import AppFleet.Json.Codec

/-!
Records as JSON objects. `Fields σ α` describes some named fields of a record `σ`: how they are
written from it, and how an `α` is read from them. One description gives both directions.

Reading an object reports a value that does not fit before a missing field; of two such values the
one whose key sorts first, of two missing fields the one described first. Unknown keys are ignored.
A record is also read from an array of its fields in the order of description.
-/

namespace AppFleet

/-- Why some fields do not read. -/
inductive FieldFault where
  | unfit (key : String) (error : DecodeError)
  | absent (name : String)
deriving DecidableEq

/-- Of two faults the one that is reported. -/
def FieldFault.first : FieldFault → FieldFault → FieldFault
  | .unfit k e, .unfit l f => if l < k then .unfit l f else .unfit k e
  | .unfit k e, .absent _ => .unfit k e
  | .absent _, .unfit l f => .unfit l f
  | .absent n, .absent _ => .absent n

/-- Why an array of fields does not read: an item does not fit, or it ends at a required field. -/
inductive ItemFault where
  | unfit (error : DecodeError)
  | ended (index : Nat)
deriving DecidableEq

def FieldFault.toError : FieldFault → DecodeError
  | .unfit _ e => e
  | .absent name => .missingField name

/-- The words "1 element", "2 elements". -/
def elementCount (n : Nat) : String := if n = 1 then "1 element" else s!"{n} elements"

def ItemFault.toError (shape : String) (count : Nat) : ItemFault → DecodeError
  | .unfit e => e
  | .ended i => .wrongLength i s!"{shape} with {elementCount count}"

structure Fields (σ α : Type) where
  count : Nat
  write : σ → List (String × Json)
  readKeys : (String → Option Json) → Except FieldFault α
  readItems : Nat → List Json → Except ItemFault (α × List Json)

namespace Fields

protected def pure (a : α) : Fields σ α where
  count := 0
  write _ := []
  readKeys _ := .ok a
  readItems _ rest := .ok (a, rest)

protected def map (f : α → β) (x : Fields σ α) : Fields σ β where
  count := x.count
  write := x.write
  readKeys find := (x.readKeys find).map f
  readItems i items := (x.readItems i items).map fun (a, rest) => (f a, rest)

/-- The fields of `f`, then those of `x`. -/
protected def seq (f : Fields σ (α → β)) (x : Unit → Fields σ α) : Fields σ β where
  count := f.count + (x ()).count
  write s := f.write s ++ (x ()).write s
  readKeys find :=
    match f.readKeys find, (x ()).readKeys find with
    | .ok g, .ok a => .ok (g a)
    | .error e, .ok _ => .error e
    | .ok _, .error e => .error e
    | .error e, .error e' => .error (e.first e')
  readItems i items := do
    let (g, rest) ← f.readItems i items
    let (a, rest) ← (x ()).readItems (i + f.count) rest
    return (g a, rest)

instance : Functor (Fields σ) := { map := Fields.map }
instance : Pure (Fields σ) := ⟨Fields.pure⟩
instance : Seq (Fields σ) := ⟨Fields.seq⟩

/-- One field. `missing` is its value when the key is absent, `short` when an array ends before it,
and `kept` says when it is written. -/
def field (name : String) (codec : Codec α) (get : σ → α) (missing short : Option α)
    (kept : α → Bool) : Fields σ α where
  count := 1
  write s := if kept (get s) then [(name, codec.write (get s))] else []
  readKeys find :=
    match find name with
    | some j => (codec.read j).mapError (.unfit name)
    | none =>
      match missing with
      | some a => .ok a
      | none => .error (.absent name)
  readItems i
    | j :: rest => ((codec.read j).mapError .unfit).map (·, rest)
    | [] =>
      match short with
      | some a => .ok (a, [])
      | none => .error (.ended i)

def required (name : String) (codec : Codec α) (get : σ → α) : Fields σ α :=
  field name codec get none none fun _ => true

/-- A field that may be absent, and is written as `null` when it has no value. -/
def optional (name : String) (codec : Codec α) (get : σ → Option α) : Fields σ (Option α) :=
  field name codec.option get (some none) none fun _ => true

/-- A field that may be absent from objects and arrays. -/
def lenient (name : String) (codec : Codec α) (get : σ → Option α) : Fields σ (Option α) :=
  field name codec.option get (some none) (some none) fun _ => true

/-- A field with a value for its absence. -/
def withDefault (name : String) (codec : Codec α) (default : α) (get : σ → α) : Fields σ α :=
  field name codec get (some default) (some default) fun _ => true

/-- A field that is left out when it has no value. -/
def omitNone (name : String) (codec : Codec α) (get : σ → Option α) : Fields σ (Option α) :=
  field name codec.option get (some none) (some none) Option.isSome

/-- A list that is left out when it is empty. -/
def omitEmpty (name : String) (codec : Codec α) (get : σ → List α) : Fields σ (List α) :=
  field name codec.list get (some []) (some []) (!List.isEmpty ·)

/-- Reads a record of this shape from the items of an array; `spare` is the error for extra items. -/
def readArray (fields : Fields σ α) (shape : String) (spare : Nat → DecodeError)
    (items : List Json) : Except DecodeError α :=
  match fields.readItems 0 items with
  | .ok (a, []) => .ok a
  | .ok (_, rest) => .error (spare rest.length)
  | .error fault => .error (ItemFault.toError shape fields.count fault)

def readObject (fields : Fields σ α) (j : Json) : Except DecodeError α :=
  (fields.readKeys fun name => j.get? name).mapError FieldFault.toError

/-- The codec of a record with this name. -/
def record (name : String) (fields : Fields α α) : Codec α where
  write a := Json.record (fields.write a)
  read
    | .object entries => fields.readObject (.object entries)
    | .array items =>
      fields.readArray s!"struct {name}"
        (fun _ => .wrongLength items.length "fewer elements in array") items
    | j => .error (.wrongType j s!"struct {name}")

end Fields

/-- One alternative of a type whose objects name it under a tag. -/
structure Variant (α : Type) where
  tag : String
  /-- What an array that is too short is said to lack. -/
  shape : String
  /-- The fields beside the tag; none if the value is another alternative. -/
  write : α → Option (List (String × Json))
  readObject : Json → Except DecodeError α
  readArray : List Json → Except DecodeError α

namespace Variant

/-- An alternative that holds an `β`. -/
def of (tag shape : String) (fields : Fields β β) (wrap : β → α) (unwrap : α → Option β) :
    Variant α where
  tag
  shape
  write a := (unwrap a).map fields.write
  readObject j := (fields.readObject j).map wrap
  readArray items :=
    (fields.readArray shape
      (fun spare => .wrongLength items.length
        s!"{elementCount (items.length - spare)} in sequence") items).map wrap

/-- The entries of a value, the tag first. -/
def entries (key : String) (variants : List (Variant α)) (a : α) : List (String × Json) :=
  (variants.findSome? fun v => (v.write a).map ((key, .string v.tag) :: ·)).getD []

def find (variants : List (Variant α)) : Json → Except DecodeError (Variant α)
  | .string s =>
    match variants.find? (·.tag = s) with
    | some v => .ok v
    | none => .error (.unknownVariant s (variants.map (·.tag)))
  | j => .error (.wrongType j "variant identifier")

/-- The codec of a tagged type: an object with the tag under `key`, or an array that begins with
the tag. -/
def codec (name key : String) (variants : List (Variant α)) : Codec α where
  write a := Json.record (entries key variants a)
  read
    | .object entries =>
      match (Json.object entries).get? key with
      | some tag => do (← find variants tag).readObject (.object entries)
      | none => .error (.missingField key)
    | .array [] => .error (.missingField key)
    | .array (tag :: items) => do (← find variants tag).readArray items
    | j => .error (.wrongType j s!"internally tagged enum {name}")

end Variant

end AppFleet
