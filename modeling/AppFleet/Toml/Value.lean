/-!
TOML values, and the rules by which a document builds its tables. A table remembers how it came to
be, because that decides whether it may still be opened or extended.
-/

namespace AppFleet.Toml

/-- How a table was made. -/
inductive Origin where
  /-- By a header of its own, or it is the document. -/
  | header
  /-- On the way of a header to a deeper table. -/
  | passed
  /-- On the way of a dotted key. -/
  | dotted
  /-- Between braces; such a table is closed. -/
  | inline
deriving DecidableEq, Repr

inductive Value where
  | string (s : String)
  | integer (n : Int64)
  | float (x : Float)
  | boolean (b : Bool)
  | datetime (text : String)
  | array (items : List Value)
  | table (origin : Origin) (entries : List (String × Value))
  /-- The tables of repeated double-bracket headers. -/
  | tables (items : List (List (String × Value)))
deriving Inhabited

abbrev Table := List (String × Value)

namespace Table

def replace (key : String) (value : Value) : Table → Table
  | [] => []
  | (k, v) :: rest => if k = key then (k, value) :: rest else (k, v) :: replace key value rest

/-- Changes the table at the end of a path, and makes the tables that are missing on the way. The
path of a dotted key may pass only tables that no header opened; any path takes the last of
repeated tables. -/
def alter (dotted : Bool) (change : Origin → Table → Option Table) :
    List String → Origin → Table → Option Table
  | [], origin, t => change origin t
  | key :: path, _, t =>
    match t.lookup key with
    | none => do
      let origin := if dotted then .dotted else .passed
      let inner ← alter dotted change path origin []
      return t ++ [(key, .table origin inner)]
    | some (.table .inline _) => none
    | some (.table origin inner) =>
      if dotted ∧ origin = .header then none
      else do
        let inner ← alter dotted change path origin inner
        return t.replace key (.table origin inner)
    | some (.tables items) => do
      let inner ← alter dotted change path .header (← items.getLast?)
      return t.replace key (.tables (items.dropLast ++ [inner]))
    | some _ => none

def insertNew (key : String) (value : Value) (t : Table) : Option Table :=
  if (t.lookup key).isSome then none else some (t ++ [(key, value)])

/-- Sets a key at the end of a dotted path. A table that was reached over dots takes new keys only if
dots made it. -/
def define (path : List String) (key : String) (value : Value) : Origin → Table → Option Table :=
  alter true (fun origin t => if path ≠ [] ∧ origin ≠ .dotted then none else insertNew key value t) path

/-- What a header does in the table that holds the one it names. -/
def openTable (key : String) (t : Table) : Option Table :=
  match t.lookup key with
  | none => some (t ++ [(key, .table .header [])])
  | some (.table .passed inner) => some (t.replace key (.table .header inner))
  | some _ => none

/-- What a double-bracket header does in the table that holds the ones it names. -/
def openNext (key : String) (t : Table) : Option Table :=
  match t.lookup key with
  | none => some (t ++ [(key, .tables [[]])])
  | some (.tables items) => some (t.replace key (.tables (items ++ [[]])))
  | some _ => none

end Table

/-- A document that is being read: its tables so far, and the header that is open. -/
structure Document where
  root : Table
  header : List String

namespace Document

def empty : Document := ⟨[], []⟩

/-- Sets a key in the open table. The last part of the key names the value. -/
def define (d : Document) (key : List String) (value : Value) : Option Document := do
  let path := key.dropLast
  let root ← d.root.alter false (Table.define path (← key.getLast?) value) d.header .header
  return { d with root }

def openWith (d : Document) (change : String → Table → Option Table) (header : List String) :
    Option Document := do
  let key ← header.getLast?
  let root ← d.root.alter false (fun _ t => change key t) header.dropLast .header
  return ⟨root, header⟩

end Document

end AppFleet.Toml
