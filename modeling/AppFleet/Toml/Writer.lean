import AppFleet.Text.Hex

/-!
TOML text. A string is written between double quotes when nothing in it needs an escape, else in the
first of these forms that can hold it as it is: single quotes, triple double quotes, triple single
quotes; and with escapes when none can. Triple quotes are followed by a line feed when the string
holds one.
-/

namespace AppFleet.Toml

/-- The most marks directly after one another. -/
def longestRun (mark : Char) (cs : List Char) : Nat :=
  (cs.foldl (fun (best, now) c => if c = mark then (max best (now + 1), now + 1) else (best, 0))
    (0, 0)).1

def isControl (c : Char) : Bool := c.toNat < 0x20 || c = '\x7f'

/-- The control characters that have no place in any unescaped form. -/
def needsCode (c : Char) : Bool := isControl c && c ≠ '\t' && c ≠ '\n'

inductive Form where
  | basic
  | literal
  | basicLines
  | literalLines
deriving DecidableEq, Repr

namespace Form

def delimiter : Form → List Char
  | basic => ['"']
  | literal => ['\'']
  | basicLines => ['"', '"', '"']
  | literalLines => ['\'', '\'', '\'']

/-- The form in which a string is written. -/
def choose (cs : List Char) : Form :=
  let codes := cs.any needsCode
  let backslash := cs.contains '\\'
  let double := longestRun '"' cs
  let single := longestRun '\'' cs
  let lines := cs.contains '\n'
  if !codes && !backslash && double = 0 && !lines then basic
  else if !codes && single = 0 && !lines then literal
  else if !codes && !backslash && double ≤ 2 then basicLines
  else if !codes && single ≤ 2 then literalLines
  else if lines then basicLines
  else basic

end Form

def escapeControl (c : Char) : List Char :=
  if c = '\x08' then ['\\', 'b']
  else if c = '\t' then ['\\', 't']
  else if c = '\n' then ['\\', 'n']
  else if c = '\x0c' then ['\\', 'f']
  else if c = '\r' then ['\\', 'r']
  else '\\' :: 'u' :: (Hex.ofNat 4 c.toNat).map Char.toUpper

/-- The text between double quotes. `allowed` quotes may follow one another unescaped, `quotes` did,
and a line feed stands for itself where the form has lines. -/
def escapeBasic (allowed : Nat) (lines : Bool) : (quotes : Nat) → List Char → List Char
  | _, [] => []
  | quotes, c :: rest =>
    if c = '"' then
      if quotes < allowed then c :: escapeBasic allowed lines (quotes + 1) rest
      else '\\' :: '"' :: escapeBasic allowed lines 0 rest
    else if c = '\\' then '\\' :: '\\' :: escapeBasic allowed lines 0 rest
    else if c = '\n' ∧ lines then c :: escapeBasic allowed lines 0 rest
    else if isControl c then escapeControl c ++ escapeBasic allowed lines 0 rest
    else c :: escapeBasic allowed lines 0 rest

def Form.body (form : Form) (cs : List Char) : List Char :=
  match form with
  | basic => escapeBasic 0 false 0 cs
  | basicLines => escapeBasic 2 true 0 cs
  | literal | literalLines => cs

def Form.hasLines (form : Form) : Bool := form = .basicLines || form = .literalLines

def quote (s : String) : List Char :=
  let cs := s.toList
  let form := Form.choose cs
  form.delimiter ++ (if form.hasLines && cs.contains '\n' then ['\n'] else []) ++ form.body cs
    ++ form.delimiter

end AppFleet.Toml
