import AppFleet.Json.Fields
import Mathlib.Tactic.Common

/-! What is read, and from what: for some codecs, each value is read from one JSON value alone. From
this it can be told which objects a record is read from, when all its fields may be absent. -/

namespace AppFleet

section

variable {ε : Type}

theorem bind_ok_iff {x : Except ε α} {f : α → Except ε β} {b : β} :
    x >>= f = .ok b ↔ ∃ a, x = .ok a ∧ f a = .ok b := by
  cases x <;> simp [bind, Except.bind]

theorem map_ok_iff {x : Except ε α} {f : α → β} {b : β} :
    x.map f = .ok b ↔ ∃ a, x = .ok a ∧ f a = b := by
  cases x <;> simp [Except.map]

theorem mapError_ok_iff {ε' : Type} {x : Except ε α} {f : ε → ε'} {a : α} :
    x.mapError f = .ok a ↔ x = .ok a := by
  cases x <;> simp [Except.mapError]

theorem bind_error_iff {x : Except ε α} {f : α → Except ε β} {e : ε} :
    x >>= f = .error e ↔ x = .error e ∨ ∃ a, x = .ok a ∧ f a = .error e := by
  cases x <;> simp [bind, Except.bind]

theorem mapError_error_iff {ε' : Type} {x : Except ε α} {f : ε → ε'} {e' : ε'} :
    x.mapError f = .error e' ↔ ∃ e, x = .error e ∧ f e = e' := by
  cases x <;> simp [Except.mapError]

theorem mapM_ok_iff {f : α → Except ε β} {g : β → α} (h : ∀ a b, f a = .ok b ↔ a = g b) (as : List α)
    (bs : List β) : as.mapM f = .ok bs ↔ as = bs.map g := by
  induction as generalizing bs with
  | nil => cases bs <;> simp [pure, Except.pure]
  | cons a as ih =>
    simp only [List.mapM_cons, bind_ok_iff, h, ih]
    cases bs with
    | nil => simp [pure, Except.pure]
    | cons b bs => simp [pure, Except.pure]

end

def Json.count (n : UInt32) : Json := Json.ofNat n.toUInt64

/-- What there is under a key that may be missing. -/
def Json.Has (payload : Json) (name : String) (form : α → Json) : Option α → Prop
  | some a => payload.get? name = some (form a)
  | none => payload.get? name = none ∨ payload.get? name = some .null

namespace Codec

/-- Each value is read from one form, and nothing else is read. -/
def Accepts (c : Codec α) (form : α → Json) : Prop := ∀ j a, c.read j = .ok a ↔ j = form a

theorem string_accepts : string.Accepts .string := by
  intro j a
  cases j <;> simp [string]

theorem uint32_accepts : uint32.Accepts Json.count := by
  intro j a
  constructor
  · intro h
    unfold uint32 at h
    dsimp only at h
    split at h
    · rename_i n
      split at h
      · rename_i hsmall
        cases h
        have hback : n.toUInt32.toUInt64 = n := by
          rw [UInt64.lt_iff_toNat_lt] at hsmall
          refine UInt64.toNat_inj.1 ?_
          simpa using hsmall
        exact congrArg Json.ofNat hback.symm
      · cases h
    · cases h
    · cases h
  · rintro rfl
    have hsmall : a.toUInt64 < 4294967296 := by
      rw [UInt64.lt_iff_toNat_lt, UInt32.toNat_toUInt64]
      exact a.toNat_lt
    simp [uint32, Json.count, Json.ofNat, hsmall]

variable {item : Codec α} {form : α → Json}

theorem list_accepts (h : item.Accepts form) : item.list.Accepts fun as => .array (as.map form) := by
  intro j as
  cases j with
  | array items => simp [list, mapM_ok_iff h]
  | _ => simp [list]

theorem map_accepts (h : item.Accepts form) :
    item.map.Accepts fun entries => .object (entries.map fun e => (e.1, form e.2)) := by
  have hentry (e : String × Json) (a : String × α) :
      (item.read e.2).map (e.1, ·) = .ok a ↔ e = (a.1, form a.2) := by
    obtain ⟨key, value⟩ := e
    obtain ⟨name, a⟩ := a
    simp [map_ok_iff, h value, and_comm]
  intro j entries
  cases j with
  | object es => simp [map, mapM_ok_iff hentry]
  | _ => simp [map]

end Codec

namespace Fields

variable {find : String → Option Json}

theorem readKeys_map_iff {x : Fields σ α} {f : α → β} {b : β} :
    (f <$> x).readKeys find = .ok b ↔ ∃ a, x.readKeys find = .ok a ∧ f a = b := map_ok_iff

theorem readKeys_seq_iff {f : Fields σ (α → β)} {x : Fields σ α} {b : β} :
    (f <*> x).readKeys find = .ok b ↔
      ∃ g a, f.readKeys find = .ok g ∧ x.readKeys find = .ok a ∧ g a = b := by
  simp only [Seq.seq, Fields.seq]
  cases f.readKeys find <;> cases x.readKeys find <;> simp

theorem readKeys_lenient_iff {payload : Json} {name : String} {codec : Codec α} {form : α → Json}
    {get : σ → Option α} (h : codec.Accepts form) (hnull : ∀ a, form a ≠ .null) (o : Option α) :
    (lenient name codec get).readKeys (fun key => payload.get? key) = .ok o ↔ payload.Has name form o := by
  simp only [lenient, field]
  cases hkey : payload.get? name with
  | none => cases o <;> simp [Json.Has, hkey]
  | some j =>
    rw [mapError_ok_iff]
    unfold Codec.option
    dsimp only
    split
    · cases o with
      | none => simp [Json.Has, hkey]
      | some a => simp [Json.Has, hkey, (hnull a).symm]
    · rename_i hne
      cases o with
      | none => simpa [Json.Has, hkey, map_ok_iff] using hne
      | some a => simp [Json.Has, hkey, map_ok_iff, h j]

theorem readKeys_map (f : α → β) {x : Fields σ α} {a : α} (h : x.readKeys find = .ok a) :
    (f <$> x).readKeys find = .ok (f a) := readKeys_map_iff.2 ⟨a, h, rfl⟩

theorem readKeys_seq {f : Fields σ (α → β)} {x : Fields σ α} {g : α → β} {a : α}
    (hf : f.readKeys find = .ok g) (hx : x.readKeys find = .ok a) : (f <*> x).readKeys find = .ok (g a) :=
  readKeys_seq_iff.2 ⟨g, a, hf, hx, rfl⟩

theorem readKeys_withDefault {name : String} {codec : Codec α} {default a : α} {get : σ → α} {j : Json}
    (hfind : find name = some j) (hread : codec.read j = .ok a) :
    (withDefault name codec default get).readKeys find = .ok a := by
  simp [withDefault, field, hfind, hread, Except.mapError]

theorem read_record_iff {name : String} {fields : Fields α α} {entries : List (String × Json)} {a : α} :
    (record name fields).read (.object entries) = .ok a ↔
      fields.readKeys (fun key => (Json.object entries).get? key) = .ok a := mapError_ok_iff

end Fields

end AppFleet
