import AppFleet.Text.Hex

/-!
TOML strings of the four kinds: basic ones with escapes and literal ones without, each on one line
or, between triple quotes, on several. A line feed directly after opening triple quotes does not
count, and a line end reads as a line feed however it is written.
-/

namespace AppFleet.Toml

/-- Reads off the front of a text and returns what follows. -/
abbrev Reader (α : Type) := List Char → Option (α × List Char)

/-- The characters that may stand unescaped: tab and all that are no ASCII control characters. -/
def isPlain (c : Char) : Bool := c = '\t' || (0x20 ≤ c.toNat && c ≠ '\x7f')

def isSpace (c : Char) : Bool := c = ' ' || c = '\t'

def skipSpaces (cs : List Char) : List Char := cs.dropWhile isSpace

def newline? : List Char → Option (List Char)
  | '\n' :: rest | '\r' :: '\n' :: rest => some rest
  | _ => none

def dropNewline (cs : List Char) : List Char := (newline? cs).getD cs

def escaped? : Char → Option Char
  | 'b' => some '\x08'
  | 't' => some '\t'
  | 'n' => some '\n'
  | 'f' => some '\x0c'
  | 'r' => some '\r'
  | '"' => some '"'
  | '\\' => some '\\'
  | _ => none

/-- The character with this number, if there is one. -/
def codePoint? (digits : List Char) : Option Char := do
  let n ← Hex.toNat? digits
  if n.isValidChar then some (Char.ofNat n) else none

/-- What follows a backslash. -/
def escape? : Reader Char
  | 'u' :: a :: b :: c :: d :: rest => (codePoint? [a, b, c, d]).map (·, rest)
  | 'U' :: a :: b :: c :: d :: e :: f :: g :: h :: rest =>
    (codePoint? [a, b, c, d, e, f, g, h]).map (·, rest)
  | c :: rest => (escaped? c).map (·, rest)
  | [] => none

/-- A basic string after its opening quote; `fuel` bounds its length. -/
def basic : Nat → Reader (List Char)
  | 0, _ => none
  | fuel + 1, cs =>
    match cs with
    | '"' :: rest => some ([], rest)
    | '\\' :: rest => do
      let (c, rest) ← escape? rest
      let (text, rest) ← basic fuel rest
      return (c :: text, rest)
    | c :: rest =>
      if isPlain c then (basic fuel rest).map fun (text, rest) => (c :: text, rest) else none
    | [] => none

/-- Skips white space over any number of lines. -/
def skipLines : List Char → List Char
  | '\r' :: '\n' :: rest => skipLines rest
  | c :: rest => if isSpace c || c = '\n' then skipLines rest else c :: rest
  | [] => []

/-- After a backslash, a line end: it and all white space that follows are left out. -/
def continuation? (cs : List Char) : Option (List Char) := (newline? (skipSpaces cs)).map skipLines

/-- A basic string on several lines. One or two quotes before the closing ones belong to the text. -/
def basicLines : Nat → Reader (List Char)
  | 0, _ => none
  | fuel + 1, cs =>
    match cs with
    | '"' :: '"' :: '"' :: '"' :: '"' :: rest => some (['"', '"'], rest)
    | '"' :: '"' :: '"' :: '"' :: rest => some (['"'], rest)
    | '"' :: '"' :: '"' :: rest => some ([], rest)
    | '\\' :: rest =>
      match continuation? rest with
      | some rest => basicLines fuel rest
      | none => do
        let (c, rest) ← escape? rest
        let (text, rest) ← basicLines fuel rest
        return (c :: text, rest)
    | '\n' :: rest | '\r' :: '\n' :: rest =>
      (basicLines fuel rest).map fun (text, rest) => ('\n' :: text, rest)
    | c :: rest =>
      if isPlain c then (basicLines fuel rest).map fun (text, rest) => (c :: text, rest) else none
    | [] => none

def literal : Reader (List Char)
  | '\'' :: rest => some ([], rest)
  | c :: rest =>
    if isPlain c then (literal rest).map fun (text, rest) => (c :: text, rest) else none
  | [] => none

def literalLines : Reader (List Char)
  | '\'' :: '\'' :: '\'' :: '\'' :: '\'' :: rest => some (['\'', '\''], rest)
  | '\'' :: '\'' :: '\'' :: '\'' :: rest => some (['\''], rest)
  | '\'' :: '\'' :: '\'' :: rest => some ([], rest)
  | '\n' :: rest | '\r' :: '\n' :: rest =>
    (literalLines rest).map fun (text, rest) => ('\n' :: text, rest)
  | c :: rest =>
    if isPlain c then (literalLines rest).map fun (text, rest) => (c :: text, rest) else none
  | [] => none

/-- A string of any kind. -/
def string : Reader String := fun cs =>
  let text : Option (List Char × List Char) :=
    match cs with
    | '"' :: '"' :: '"' :: rest => basicLines cs.length (dropNewline rest)
    | '"' :: rest => basic cs.length rest
    | '\'' :: '\'' :: '\'' :: rest => literalLines (dropNewline rest)
    | '\'' :: rest => literal rest
    | _ => none
  text.map fun (text, rest) => (String.ofList text, rest)

end AppFleet.Toml
