import AppFleet.Keyed

/-! Tables of a store: values by key, listed in key order. -/

namespace AppFleet

structure Table (α : Type) where
  entries : List (String × α)
  increasing : Keyed.Increasing entries

namespace Table

instance : Inhabited (Table α) := ⟨⟨[], by simp [Keyed.Increasing]⟩⟩

def empty : Table α := default

def get? (t : Table α) (key : String) : Option α := t.entries.lookup key

def put (t : Table α) (key : String) (value : α) : Table α :=
  ⟨Keyed.set key value t.entries, Keyed.increasing_set t.increasing⟩

def erase (t : Table α) (key : String) : Table α :=
  ⟨Keyed.erase key t.entries, Keyed.increasing_erase t.increasing⟩

def keys (t : Table α) : List String := t.entries.map (·.1)

def toList (t : Table α) : List α := t.entries.map (·.2)

/-- The values whose keys begin with a text. -/
def withPrefix (t : Table α) (start : String) : List α :=
  (t.entries.filter fun e => start.toList.isPrefixOf e.1.toList).map (·.2)

@[simp] theorem get?_empty (key : String) : (empty : Table α).get? key = none := rfl

@[simp] theorem get?_put_self (t : Table α) (key : String) (value : α) :
    (t.put key value).get? key = some value := Keyed.lookup_set_self

theorem get?_put_of_ne (t : Table α) {key other : String} (value : α) (h : other ≠ key) :
    (t.put key value).get? other = t.get? other := Keyed.lookup_set_of_ne h

@[simp] theorem get?_erase_self (t : Table α) (key : String) : (t.erase key).get? key = none :=
  Keyed.lookup_erase_self

theorem get?_erase_of_ne (t : Table α) {key other : String} (h : other ≠ key) :
    (t.erase key).get? other = t.get? other := Keyed.lookup_erase_of_ne h

end Table

end AppFleet
