import AppFleet.Decimal.Layout
import AppFleet.Json.Value
import AppFleet.Text.Path
import AppFleet.Text.Quoted

/-!
Codecs: how a type is written as a JSON value and read back, and the errors a value that does not
fit gives. Readers look at shape alone, so the first value that does not fit is the error.
-/

namespace AppFleet

/-- Why a value does not read. `want` describes what was asked for. -/
inductive DecodeError where
  | wrongType (got : Json) (want : String)
  | outOfRange (got : Json) (want : String)
  | wrongLength (got : Nat) (want : String)
  | missingField (name : String)
  | unknownVariant (got : String) (known : List String)
deriving DecidableEq

namespace DecodeError

def describe : Json → String
  | .null => "null"
  | .bool true => "boolean `true`"
  | .bool false => "boolean `false`"
  | .number (.natural n) => s!"integer `{n}`"
  | .number (.negative n) => s!"integer `-{n.val + 1}`"
  | .number (.double x) => s!"floating point `{String.ofList (Decimal.ofFloat x)}`"
  | .string s => "string " ++ Quoted.render s
  | .array _ => "sequence"
  | .object _ => "map"

def knownVariants : List String → String
  | [] => "there are no variants"
  | [a] => s!"expected `{a}`"
  | [a, b] => s!"expected `{a}` or `{b}`"
  | all => "expected one of " ++ ", ".intercalate (all.map fun a => s!"`{a}`")

def message : DecodeError → String
  | wrongType got want => s!"invalid type: {describe got}, expected {want}"
  | outOfRange got want => s!"invalid value: {describe got}, expected {want}"
  | wrongLength n want => s!"invalid length {n}, expected {want}"
  | missingField name => s!"missing field `{name}`"
  | unknownVariant got known => s!"unknown variant `{got}`, {knownVariants known}"

end DecodeError

/-- The two directions between a type and JSON. -/
structure Codec (α : Type) where
  write : α → Json
  read : Json → Except DecodeError α

namespace Codec

def json : Codec Json := ⟨id, .ok⟩

def string : Codec String where
  write := .string
  read
    | .string s => .ok s
    | j => .error (.wrongType j "a string")

/-- A path travels as the text that it is. One that is none is written as a value that is no path. -/
def path : Codec Path where
  write p := p.text?.elim .null .string
  read
    | .string s => .ok (.ofText s)
    | j => .error (.wrongType j "path string")

def bool : Codec Bool where
  write := .bool
  read
    | .bool b => .ok b
    | j => .error (.wrongType j "a boolean")

/-- A natural number up to 64 bits. A negative one is out of range, not of a wrong type. -/
def uint64 : Codec UInt64 where
  write := Json.ofNat
  read
    | .number (.natural n) => .ok n
    | .number (.negative n) => .error (.outOfRange (.number (.negative n)) "u64")
    | j => .error (.wrongType j "u64")

def uint32 : Codec UInt32 where
  write n := Json.ofNat n.toUInt64
  read
    | .number (.natural n) =>
      if n < 4294967296 then .ok n.toUInt32
      else .error (.outOfRange (.number (.natural n)) "u32")
    | .number (.negative n) => .error (.outOfRange (.number (.negative n)) "u32")
    | j => .error (.wrongType j "u32")

/-- A counter travels as a number of 64 bits. -/
def counter : Codec Nat where
  write n := uint64.write (UInt64.ofNat n)
  read j := (uint64.read j).map UInt64.toNat

/-- A double is also read from an integer, rounded. -/
def float : Codec Float where
  write := Json.ofFloat
  read
    | .number (.double x) => .ok x
    | .number (.natural n) => .ok (Float.ofNat n.toNat)
    | .number (.negative n) => .ok (-Float.ofNat (n.val + 1))
    | j => .error (.wrongType j "f64")

/-- JSON has no number for a double that is not finite. -/
def finite : Codec FiniteFloat where
  write x := float.write x.value
  read j := do
    let x ← float.read j
    if h : x.isFinite then .ok ⟨x, h⟩ else .error (.wrongType j "f64")

def list (item : Codec α) : Codec (List α) where
  write values := .array (values.map item.write)
  read
    | .array values => values.mapM item.read
    | j => .error (.wrongType j "a sequence")

/-- `null` stands for none. -/
def option (inner : Codec α) : Codec (Option α) where
  write
    | none => .null
    | some a => inner.write a
  read
    | .null => .ok none
    | j => (inner.read j).map some

/-- String keys to values, as an object. -/
def map (item : Codec α) : Codec (List (String × α)) where
  write entries := Json.record (entries.map fun e => (e.1, item.write e.2))
  read
    | .object entries => entries.mapM fun e => (item.read e.2).map (e.1, ·)
    | j => .error (.wrongType j "a map")

/-- One of several names. The name may also be the only key of an object, with the value `null`. -/
def choice [DecidableEq α] (names : List (String × α)) : Codec α where
  write a := .string (((names.find? (·.2 = a)).map (·.1)).getD "")
  read
    | .string s => ofName s
    | .object [(key, value)] => do
      let a ← ofName key
      match value with
      | .null => pure a
      | j => throw (.wrongType j "unit")
    | .object entries => .error (.outOfRange (.object entries) "map with a single key")
    | j => .error (.wrongType j "string or map")
where
  ofName (s : String) : Except DecodeError α :=
    match names.find? (·.1 = s) with
    | some e => .ok e.2
    | none => .error (.unknownVariant s (names.map (·.1)))

end Codec

end AppFleet
