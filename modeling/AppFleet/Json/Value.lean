import AppFleet.Keyed

/-!
JSON values. Integers keep their sort: a natural number up to `2 ^ 64 - 1` or a negative one down to
`-2 ^ 63`; every other number is a double. An object is a list of entries; the payloads that travel
on the bus are `Sorted`: keys in strictly increasing order, at every depth.
-/

namespace AppFleet

/-- A double that has a JSON text. -/
structure FiniteFloat where
  value : Float
  finite : value.isFinite
deriving DecidableEq

inductive Json.Number where
  | natural (n : UInt64)
  /-- The negative integer `-(n + 1)`. -/
  | negative (n : Fin (0x8000000000000000))
  | double (x : Float)
deriving DecidableEq, Inhabited

inductive Json where
  | null
  | bool (b : Bool)
  | number (n : Json.Number)
  | string (s : String)
  | array (items : List Json)
  | object (entries : List (String × Json))
deriving Inhabited

namespace Json

mutual

def decEq : (a b : Json) → Decidable (a = b)
  | .null, .null => isTrue rfl
  | .bool a, .bool b => if h : a = b then isTrue (h ▸ rfl) else isFalse fun e => h (by cases e; rfl)
  | .number a, .number b => if h : a = b then isTrue (h ▸ rfl) else isFalse fun e => h (by cases e; rfl)
  | .string a, .string b => if h : a = b then isTrue (h ▸ rfl) else isFalse fun e => h (by cases e; rfl)
  | .array as, .array bs =>
    match decEqItems as bs with
    | isTrue h => isTrue (h ▸ rfl)
    | isFalse h => isFalse fun e => h (by cases e; rfl)
  | .object as, .object bs =>
    match decEqEntries as bs with
    | isTrue h => isTrue (h ▸ rfl)
    | isFalse h => isFalse fun e => h (by cases e; rfl)
  | .null, .bool _ | .null, .number _ | .null, .string _ | .null, .array _ | .null, .object _
  | .bool _, .null | .bool _, .number _ | .bool _, .string _ | .bool _, .array _ | .bool _, .object _
  | .number _, .null | .number _, .bool _ | .number _, .string _ | .number _, .array _
  | .number _, .object _ | .string _, .null | .string _, .bool _ | .string _, .number _
  | .string _, .array _ | .string _, .object _ | .array _, .null | .array _, .bool _
  | .array _, .number _ | .array _, .string _ | .array _, .object _ | .object _, .null
  | .object _, .bool _ | .object _, .number _ | .object _, .string _ | .object _, .array _ =>
    isFalse (by intro h; cases h)

def decEqItems : (as bs : List Json) → Decidable (as = bs)
  | [], [] => isTrue rfl
  | [], _ :: _ => isFalse (by intro h; cases h)
  | _ :: _, [] => isFalse (by intro h; cases h)
  | a :: as, b :: bs =>
    match decEq a b, decEqItems as bs with
    | isTrue h, isTrue h' => isTrue (h ▸ h' ▸ rfl)
    | isFalse h, _ => isFalse fun e => h (by cases e; rfl)
    | _, isFalse h => isFalse fun e => h (by cases e; rfl)

def decEqEntries : (as bs : List (String × Json)) → Decidable (as = bs)
  | [], [] => isTrue rfl
  | [], _ :: _ => isFalse (by intro h; cases h)
  | _ :: _, [] => isFalse (by intro h; cases h)
  | (k, a) :: as, (l, b) :: bs =>
    if hk : k = l then
      match decEq a b, decEqEntries as bs with
      | isTrue h, isTrue h' => isTrue (hk ▸ h ▸ h' ▸ rfl)
      | isFalse h, _ => isFalse fun e => h (by cases e; rfl)
      | _, isFalse h => isFalse fun e => h (by cases e; rfl)
    else isFalse fun e => hk (by cases e; rfl)

end

instance : DecidableEq Json := decEq

def ofNat (n : UInt64) : Json := .number (.natural n)

/-- A number without a decimal value has no JSON text; it is written as `null`. -/
def ofFloat (x : Float) : Json := if x.isFinite then .number (.double x) else .null

/-- The value under a key; only objects have any. -/
def get? (key : String) : Json → Option Json
  | .object entries => entries.lookup key
  | _ => none

def text? : Json → Option String
  | .string s => some s
  | _ => none

def record (entries : List (String × Json)) : Json := .object (Keyed.sort entries)

mutual

/-- The value with the entries of every object sorted by key. -/
def canonical : Json → Json
  | .array items => .array (canonicalItems items)
  | .object entries => .object (Keyed.sort (canonicalEntries entries))
  | v => v

def canonicalItems : List Json → List Json
  | [] => []
  | v :: rest => canonical v :: canonicalItems rest

def canonicalEntries : List (String × Json) → List (String × Json)
  | [] => []
  | (k, v) :: rest => (k, canonical v) :: canonicalEntries rest

end

mutual

def Sorted : Json → Prop
  | .array items => SortedItems items
  | .object entries => Keyed.Increasing entries ∧ SortedEntries entries
  | _ => True

def SortedItems : List Json → Prop
  | [] => True
  | v :: rest => Sorted v ∧ SortedItems rest

def SortedEntries : List (String × Json) → Prop
  | [] => True
  | (_, v) :: rest => Sorted v ∧ SortedEntries rest

end

mutual

/-- How deep arrays and objects nest; a scalar has depth 0. -/
def depth : Json → Nat
  | .array items => depthItems items + 1
  | .object entries => depthEntries entries + 1
  | _ => 0

def depthItems : List Json → Nat
  | [] => 0
  | v :: rest => max (depth v) (depthItems rest)

def depthEntries : List (String × Json) → Nat
  | [] => 0
  | (_, v) :: rest => max (depth v) (depthEntries rest)

end

end Json

end AppFleet
