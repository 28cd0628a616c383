import AppFleet.Json.Value
import AppFleet.Text.Hex

/-!
JSON text to values, strict as the standard: no comments, no trailing commas, no leading zeros, one
value with nothing but white space around it. Arrays and objects nest at most `maxDepth` deep. An
object keeps its entries in the order of the text, repeated keys included.
-/

namespace AppFleet.Json

/-- Reads a value off the front of a text and returns what follows it. -/
abbrev Reader (α : Type) := List Char → Option (α × List Char)

def maxDepth : Nat := 127

def isBlank (c : Char) : Bool := c = ' ' || c = '\t' || c = '\n' || c = '\r'

def skipBlanks (cs : List Char) : List Char := cs.dropWhile isBlank

/-- The text of a string up to its closing quote, escapes still in place. -/
def stringBody : Reader (List Char)
  | [] => none
  | '"' :: rest => some ([], rest)
  | '\\' :: c :: rest => (stringBody rest).map fun (body, rest) => ('\\' :: c :: body, rest)
  | c :: rest =>
    if c = '\\' || c.toNat < 0x20 then none
    else (stringBody rest).map fun (body, rest) => (c :: body, rest)

def simpleEscape? : Char → Option Char
  | '"' => some '"'
  | '\\' => some '\\'
  | '/' => some '/'
  | 'b' => some '\x08'
  | 'f' => some '\x0c'
  | 'n' => some '\n'
  | 'r' => some '\r'
  | 't' => some '\t'
  | _ => none

/-- A character beyond U+FFFF is two escaped halves; a half alone is refused. -/
def joinSurrogates? (high low : Nat) : Option Char :=
  if 0xd800 ≤ high ∧ high < 0xdc00 ∧ 0xdc00 ≤ low ∧ low < 0xe000 then
    some (Char.ofNat (0x10000 + (high - 0xd800) * 0x400 + (low - 0xdc00)))
  else none

def unescape : List Char → Option (List Char)
  | [] => some []
  | '\\' :: 'u' :: a :: b :: c :: d :: rest => do
    let code ← Hex.toNat? [a, b, c, d]
    if 0xd800 ≤ code ∧ code < 0xe000 then
      match rest with
      | '\\' :: 'u' :: e :: f :: g :: h :: rest =>
        let joined ← joinSurrogates? code (← Hex.toNat? [e, f, g, h])
        return joined :: (← unescape rest)
      | _ => none
    else return Char.ofNat code :: (← unescape rest)
  | '\\' :: c :: rest => do return (← simpleEscape? c) :: (← unescape rest)
  | c :: rest => do return c :: (← unescape rest)

/-- A string whose opening quote was read. -/
def stringRest : Reader String := fun cs => do
  let (body, rest) ← stringBody cs
  return (String.ofList (← unescape body), rest)

def digitValue (c : Char) : Nat := c.toNat - 48

/-- The longest run of digits at the front. -/
def digits (cs : List Char) : List Char × List Char := cs.span Char.isDigit

/-- The leading digits of a number that fit 64 bits, and how many digits were left off. -/
def significand : Nat → List Char → Nat × Nat
  | n, [] => (n, 0)
  | n, c :: rest =>
    if 10 * n + digitValue c < 0x10000000000000000 then significand (10 * n + digitValue c) rest
    else (n, rest.length + 1)

/-- `m * 10 ^ e` as a double: the significand rounded, then times or over the power of ten, itself
rounded. Below the smallest power the quotient is taken in two steps; a significand of 64 bits is
zero long before a third. None when it is infinite. -/
def scale (m : Nat) (e : Int) : Option Float :=
  let power (n : Nat) : Float := Float.ofScientific 1 false n
  let base := Float.ofNat m
  if 0 ≤ e then
    if m = 0 then some base
    else if e ≤ 308 then
      let x := base * power e.toNat
      if x.isFinite then some x else none
    else none
  else if e ≥ -308 then some (base / power (-e).toNat)
  else if e ≥ -616 then some (base / power 308 / power (-e - 308).toNat)
  else some 0.0

def signed (negative : Bool) (x : Float) : Number := .double (if negative then -x else x)

/-- An exponent after its mark: an optional sign and digits. -/
def exponent? (cs : List Char) : Option (Int × List Char) :=
  let (negative, cs) := match cs with
    | '+' :: rest => (false, rest)
    | '-' :: rest => (true, rest)
    | _ => (false, cs)
  match digits cs with
  | ([], _) => none
  | (ds, rest) =>
    let n : Nat := ds.foldl (fun n c => 10 * n + digitValue c) 0
    some (if negative then -(n : Int) else n, rest)

def integer (negative : Bool) (n : Nat) : Json.Number :=
  if negative then
    if h : 0 < n ∧ n ≤ 0x8000000000000000 then .negative ⟨n - 1, by omega⟩
    else .double (-(Float.ofNat n))
  else .natural (UInt64.ofNat n)

/-- A number after its sign. A point or an exponent makes it a double, and so does a size beyond
64 bits; the digits that do not fit are left off. -/
def readUnsigned (negative : Bool) : Reader Number := fun cs => do
  let (whole, rest) := digits cs
  guard (whole ≠ [] ∧ (whole.head? = some '0' → whole.length = 1))
  let (n, cut) := significand 0 whole
  let finish (m : Nat) (e : Int) (rest : List Char) : Option (Number × List Char) :=
    (scale m e).map fun x => (signed negative x, rest)
  let exponentPart (m : Nat) (e : Int) (rest : List Char) : Option (Number × List Char) :=
    match rest with
    | 'e' :: rest | 'E' :: rest => do
      let (extra, rest) ← exponent? rest
      finish m (e + extra) rest
    | _ => finish m e rest
  match rest with
  | '.' :: rest =>
    let (fraction, rest) := digits rest
    guard (fraction ≠ [])
    let (m, skipped) := significand n fraction
    exponentPart m (cut - ((fraction.length : Int) - skipped)) rest
  | 'e' :: _ | 'E' :: _ => exponentPart n cut rest
  | _ => if cut = 0 then some (integer negative n, rest) else finish n cut rest

def readNumber : Reader Number
  | '-' :: rest => readUnsigned true rest
  | cs => readUnsigned false cs

/-- The items of an array after its opening bracket; `fuel` bounds their number. -/
def readItems (value : Reader Json) : Nat → Reader (List Json)
  | 0, _ => none
  | fuel + 1, cs => do
    let (v, rest) ← value cs
    match skipBlanks rest with
    | ',' :: rest =>
      let (vs, rest) ← readItems value fuel (skipBlanks rest)
      return (v :: vs, rest)
    | ']' :: rest => return ([v], rest)
    | _ => none

/-- The entries of an object after its opening brace; `fuel` bounds their number. -/
def readEntries (value : Reader Json) : Nat → Reader (List (String × Json))
  | 0, _ => none
  | fuel + 1, cs => do
    match cs with
    | '"' :: rest =>
      let (key, rest) ← stringRest rest
      match skipBlanks rest with
      | ':' :: rest =>
        let (v, rest) ← value (skipBlanks rest)
        match skipBlanks rest with
        | ',' :: rest =>
          let (es, rest) ← readEntries value fuel (skipBlanks rest)
          return ((key, v) :: es, rest)
        | '}' :: rest => return ([(key, v)], rest)
        | _ => none
      | _ => none
    | _ => none

/-- A value at the very front of the text, nested at most `depth` deep. -/
def readValue : (depth : Nat) → Reader Json
  | depth, cs =>
    match cs with
    | 'n' :: 'u' :: 'l' :: 'l' :: rest => some (.null, rest)
    | 't' :: 'r' :: 'u' :: 'e' :: rest => some (.bool true, rest)
    | 'f' :: 'a' :: 'l' :: 's' :: 'e' :: rest => some (.bool false, rest)
    | '"' :: rest => (stringRest rest).map fun (s, rest) => (.string s, rest)
    | '[' :: rest =>
      match depth with
      | 0 => none
      | depth + 1 =>
        match skipBlanks rest with
        | ']' :: rest => some (.array [], rest)
        | rest => (readItems (readValue depth) rest.length rest).map fun (vs, rest) => (.array vs, rest)
    | '{' :: rest =>
      match depth with
      | 0 => none
      | depth + 1 =>
        match skipBlanks rest with
        | '}' :: rest => some (.object [], rest)
        | rest => (readEntries (readValue depth) rest.length rest).map fun (es, rest) => (.object es, rest)
    | cs => (readNumber cs).map fun (n, rest) => (.number n, rest)

/-- The one value of a text, entries in text order. -/
def parseEntries? (text : List Char) : Option Json := do
  let (v, rest) ← readValue maxDepth (skipBlanks text)
  guard (skipBlanks rest = [])
  return v

/-- The one value of a text, with sorted objects. -/
def parse? (text : String) : Option Json := (parseEntries? text.toList).map canonical

end AppFleet.Json
