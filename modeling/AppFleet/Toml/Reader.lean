import AppFleet.Toml.Number
import AppFleet.Toml.Text
import AppFleet.Toml.Value

/-!
TOML documents: keys with values, headers that open tables, comments and blank lines. Arrays and
inline tables nest less than `nestLimit` deep, and a key has fewer than `nestLimit` parts.
-/

namespace AppFleet.Toml

def nestLimit : Nat := 80

def isBare (c : Char) : Bool := c.isAlphanum || c = '-' || c = '_'

/-- One part of a key: bare, or quoted on one line. -/
def keyPart : Reader String := fun cs =>
  match cs with
  | '"' :: rest => (basic cs.length rest).map fun (text, rest) => (String.ofList text, rest)
  | '\'' :: rest => (literal rest).map fun (text, rest) => (String.ofList text, rest)
  | _ =>
    match cs.span isBare with
    | ([], _) => none
    | (text, rest) => some (String.ofList text, rest)

/-- The parts of a key, with spaces around each; `fuel` bounds their number. -/
def keyParts : Nat → Reader (List String)
  | 0, _ => none
  | fuel + 1, cs => do
    let (part, rest) ← keyPart (skipSpaces cs)
    match skipSpaces rest with
    | '.' :: rest => do
      let (parts, rest) ← keyParts fuel rest
      return (part :: parts, rest)
    | rest => return ([part], rest)

def key : Reader (List String) := keyParts (nestLimit - 1)

def dropComment : List Char → List Char
  | '#' :: rest => rest.dropWhile isPlain
  | cs => cs

/-- Nothing but spaces and a comment up to the end of the line. -/
def lineEnd? (cs : List Char) : Option (List Char) :=
  match dropComment (skipSpaces cs) with
  | [] => some []
  | rest => newline? rest

/-- Skips white space, line ends and comments; `fuel` bounds their number. -/
def skipBreaks : Nat → List Char → List Char
  | 0, cs => cs
  | fuel + 1, cs =>
    match cs with
    | '#' :: rest => skipBreaks fuel (rest.dropWhile isPlain)
    | c :: rest => if isSpace c then skipBreaks fuel rest else
      match newline? cs with
      | some rest => skipBreaks fuel rest
      | none => cs
    | [] => []

/-- The items of an array after its opening bracket; a comma may follow the last. -/
def arrayItems (value : Reader Value) : Nat → Reader (List Value)
  | 0, _ => none
  | fuel + 1, cs =>
    match skipBreaks cs.length cs with
    | ']' :: rest => some ([], rest)
    | rest => do
      let (v, rest) ← value rest
      match skipBreaks rest.length rest with
      | ',' :: rest => do
        let (vs, rest) ← arrayItems value fuel rest
        return (v :: vs, rest)
      | ']' :: rest => return ([v], rest)
      | _ => none

/-- A key, an equals sign and a value. -/
def keyValue (value : Reader Value) : Reader (List String × Value) := fun cs => do
  let (k, rest) ← key cs
  let (_, rest) ← char '=' rest
  let (v, rest) ← value (skipSpaces rest)
  return ((k, v), rest)

/-- The pairs of an inline table after its opening brace, when it has any. -/
def inlinePairs (value : Reader Value) : Nat → Reader (List (List String × Value))
  | 0, _ => none
  | fuel + 1, cs => do
    let (pair, rest) ← keyValue value cs
    match skipSpaces rest with
    | ',' :: rest => do
      let (pairs, rest) ← inlinePairs value fuel rest
      return (pair :: pairs, rest)
    | '}' :: rest => return ([pair], rest)
    | _ => none

def ofPairs (pairs : List (List String × Value)) : Option Table :=
  pairs.foldlM (fun t (k, v) => do Table.define k.dropLast (← k.getLast?) v .inline t) []

def word (text : String) (v : Value) : Reader Value := fun cs =>
  if text.toList.isPrefixOf cs then some (v, cs.drop text.length) else none

/-- A value with less than `depth` arrays and inline tables around each other. -/
def value : (depth : Nat) → Reader Value
  | depth, cs =>
    match cs with
    | '[' :: rest =>
      match depth with
      | 0 => none
      | depth + 1 =>
        (arrayItems (value depth) cs.length rest).map fun (vs, rest) => (.array vs, rest)
    | '{' :: rest =>
      match depth with
      | 0 => none
      | depth + 1 =>
        match skipSpaces rest with
        | '}' :: rest => some (.table .inline [], rest)
        | rest => do
          let (pairs, rest) ← inlinePairs (value depth) cs.length rest
          return (.table .inline (← ofPairs pairs), rest)
    | c :: _ =>
      if c = '"' ∨ c = '\'' then (string cs).map fun (s, rest) => (.string s, rest)
      else if c = 't' then word "true" (.boolean true) cs
      else if c = 'f' then word "false" (.boolean false) cs
      else (datetime cs).or (numeric cs)
    | [] => none

/-- Reads the lines of a document, one a step; `fuel` bounds their number. -/
def readLines : Nat → Document → List Char → Option Document
  | 0, _, _ => none
  | fuel + 1, d, cs =>
    match lineEnd? cs with
    | some [] => some d
    | some rest => readLines fuel d rest
    | none =>
      match skipSpaces cs with
      | '[' :: '[' :: rest => do
        let (path, rest) ← key rest
        let (_, rest) ← char ']' rest
        let (_, rest) ← char ']' rest
        readLines fuel (← d.openWith Table.openNext path) (← lineEnd? rest)
      | '[' :: rest => do
        let (path, rest) ← key rest
        let (_, rest) ← char ']' rest
        readLines fuel (← d.openWith Table.openTable path) (← lineEnd? rest)
      | rest => do
        let ((path, v), rest) ← keyValue (value (nestLimit - 1)) rest
        readLines fuel (← d.define path v) (← lineEnd? rest)

def dropMark : List Char → List Char
  | '\ufeff' :: rest => rest
  | cs => cs

/-- The table of a whole document. A byte order mark at its beginning does not count. -/
def parse? (text : String) : Option Table :=
  let cs := dropMark text.toList
  (readLines (cs.length + 1) .empty cs).map (·.root)

end AppFleet.Toml
