import AppFleet.Decimal.Layout
import AppFleet.Json.Value
import AppFleet.Text.Hex

/-!
JSON text without spaces. Only the quote, the backslash and the characters below U+0020 are escaped;
all else stands for itself, so the text of a value never holds a line break.
-/

namespace AppFleet.Json

def escape (c : Char) : List Char :=
  if c = '"' then ['\\', '"']
  else if c = '\\' then ['\\', '\\']
  else if c = '\n' then ['\\', 'n']
  else if c = '\r' then ['\\', 'r']
  else if c = '\t' then ['\\', 't']
  else if c = '\x08' then ['\\', 'b']
  else if c = '\x0c' then ['\\', 'f']
  else if c.toNat < 0x20 then '\\' :: 'u' :: Hex.ofNat 4 c.toNat
  else [c]

def quote (s : String) : List Char := '"' :: s.toList.flatMap escape ++ ['"']

def Number.write : Number → List Char
  | .natural n => Nat.toDigits 10 n.toNat
  | .negative n => '-' :: Nat.toDigits 10 (n.val + 1)
  | .double x => Decimal.ofFloat x

mutual

def write : Json → List Char
  | .null => ['n', 'u', 'l', 'l']
  | .bool true => ['t', 'r', 'u', 'e']
  | .bool false => ['f', 'a', 'l', 's', 'e']
  | .number n => n.write
  | .string s => quote s
  | .array [] => ['[', ']']
  | .array (v :: rest) => '[' :: write v ++ writeItems rest
  | .object [] => ['{', '}']
  | .object ((k, v) :: rest) => '{' :: quote k ++ ':' :: write v ++ writeEntries rest

/-- The items after the first, and the closing bracket. -/
def writeItems : List Json → List Char
  | [] => [']']
  | v :: rest => ',' :: write v ++ writeItems rest

/-- The entries after the first, and the closing brace. -/
def writeEntries : List (String × Json) → List Char
  | [] => ['}']
  | (k, v) :: rest => ',' :: quote k ++ ':' :: write v ++ writeEntries rest

end

/-- The text of a value. -/
def render (j : Json) : String := String.ofList j.write

end AppFleet.Json
