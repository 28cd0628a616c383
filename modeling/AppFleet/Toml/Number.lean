import AppFleet.Toml.Text
import AppFleet.Toml.Value

/-!
TOML numbers and dates. Integers are signed with 64 bits, in base 2, 8, 10 or 16, with single
underscores between digits; a decimal float is refused when it rounds to positive infinity. Dates and
times follow RFC 3339, and a date may stand without a time or a time without a date.
-/

namespace AppFleet.Toml

/-- Digits that may each follow an underscore. -/
def moreDigits (isDigit : Char → Bool) : Reader (List Char)
  | '_' :: c :: rest =>
    if isDigit c then (moreDigits isDigit rest).map fun (ds, rest) => (c :: ds, rest) else none
  | c :: rest =>
    if isDigit c then (moreDigits isDigit rest).map fun (ds, rest) => (c :: ds, rest)
    else if c = '_' then none
    else some ([], c :: rest)
  | [] => some ([], [])

/-- At least one digit, underscores between digits left out. -/
def digits (isDigit : Char → Bool) : Reader (List Char)
  | c :: rest =>
    if isDigit c then (moreDigits isDigit rest).map fun (ds, rest) => (c :: ds, rest) else none
  | [] => none

/-- A decimal whole part: no zero before other digits. -/
def whole : Reader (List Char)
  | '0' :: rest => some (['0'], rest)
  | cs => digits Char.isDigit cs

def sign : List Char → Bool × List Char
  | '-' :: rest => (true, rest)
  | '+' :: rest => (false, rest)
  | cs => (false, cs)

def number (base : Nat) (ds : List Char) : Nat :=
  ds.foldl (fun n c => base * n + (Hex.value? c).getD 0) 0

/-- An integer of 64 bits. -/
def integer? (negative : Bool) (n : Nat) : Option Value :=
  if n < 0x8000000000000000 ∨ (negative ∧ n = 0x8000000000000000) then
    some (.integer (Int64.ofInt (if negative then -(n : Int) else n)))
  else none

/-- The double nearest to `m * 10 ^ e`; beyond the range of doubles it is infinite or zero. -/
def nearestFloat (m : Nat) (e : Int) : Float :=
  let first : Int := (Nat.toDigits 10 m).length + e
  if m = 0 ∨ first < -400 then 0
  else if 400 < first then 1 / 0
  else Float.ofScientific m (e < 0) e.natAbs

def float? (negative : Bool) (m : Nat) (e : Int) : Option Value :=
  let x := nearestFloat m e
  if negative then some (.float (-x)) else if x.isFinite then some (.float x) else none

/-- An exponent after its mark. -/
def exponent : Reader Int := fun cs => do
  let (negative, cs) := sign cs
  let (ds, rest) ← digits Char.isDigit cs
  return (if negative then -(number 10 ds : Int) else number 10 ds, rest)

/-- A number in a base that its beginning names. -/
def based (base : Nat) (isDigit : Char → Bool) : Reader Value := fun cs => do
  let (ds, rest) ← digits isDigit cs
  return (← integer? false (number base ds), rest)

def decimal (negative : Bool) : Reader Value := fun cs => do
  let (ds, rest) ← whole cs
  match rest with
  | 'e' :: rest | 'E' :: rest => do
    let (e, rest) ← exponent rest
    return (← float? negative (number 10 ds) e, rest)
  | '.' :: rest => do
    let (fraction, rest) ← digits Char.isDigit rest
    let m := number 10 (ds ++ fraction)
    match rest with
    | 'e' :: rest | 'E' :: rest => do
      let (e, rest) ← exponent rest
      return (← float? negative m (e - fraction.length), rest)
    | _ => return (← float? negative m (-fraction.length), rest)
  | _ => return (← integer? negative (number 10 ds), rest)

def signedNumber : Reader Value := fun cs =>
  let (negative, cs) := sign cs
  let signed (x : Float) : Value := .float (if negative then -x else x)
  match cs with
  | 'i' :: 'n' :: 'f' :: rest => some (signed (1 / 0), rest)
  | 'n' :: 'a' :: 'n' :: rest => some (signed (0 / 0), rest)
  | _ => decimal negative cs

def numeric : Reader Value
  | '0' :: 'x' :: rest => based 16 (fun c => (Hex.value? c).isSome) rest
  | '0' :: 'o' :: rest => based 8 (fun c => '0' ≤ c ∧ c ≤ '7') rest
  | '0' :: 'b' :: rest => based 2 (fun c => c = '0' ∨ c = '1') rest
  | cs => signedNumber cs

/-- Exactly `count` digits, as a number within bounds. -/
def field (count least greatest : Nat) : Reader Nat := fun cs =>
  let ds := cs.take count
  let n := number 10 ds
  if ds.length = count ∧ ds.all Char.isDigit ∧ least ≤ n ∧ n ≤ greatest then
    some (n, cs.drop count)
  else none

def char (c : Char) : Reader Unit
  | d :: rest => if c = d then some ((), rest) else none
  | [] => none

def isLeap (year : Nat) : Bool := year % 4 = 0 && (year % 100 ≠ 0 || year % 400 = 0)

def daysIn (year month : Nat) : Nat :=
  if month = 2 then (if isLeap year then 29 else 28)
  else if month ∈ [4, 6, 9, 11] then 30
  else 31

def date : Reader Unit := fun cs => do
  let (year, cs) ← field 4 0 9999 cs
  let (_, cs) ← char '-' cs
  let (month, cs) ← field 2 1 12 cs
  let (_, cs) ← char '-' cs
  let (_, cs) ← field 2 1 (daysIn year month) cs
  return ((), cs)

/-- Parts of a second, if there are any. -/
def skipFraction : List Char → List Char
  | '.' :: c :: rest => if c.isDigit then rest.dropWhile Char.isDigit else '.' :: c :: rest
  | cs => cs

def time : Reader Unit := fun cs => do
  let (_, cs) ← field 2 0 23 cs
  let (_, cs) ← char ':' cs
  let (_, cs) ← field 2 0 59 cs
  let (_, cs) ← char ':' cs
  let (_, cs) ← field 2 0 60 cs
  return ((), skipFraction cs)

def offset : Reader Unit
  | 'Z' :: rest | 'z' :: rest => some ((), rest)
  | '+' :: rest | '-' :: rest => do
    let (_, cs) ← field 2 0 23 rest
    let (_, cs) ← char ':' cs
    let (_, cs) ← field 2 0 59 cs
    return ((), cs)
  | _ => none

/-- What follows a date: a time of day, which may have an offset, or nothing. -/
def skipTime (cs : List Char) : List Char :=
  match cs with
  | 'T' :: rest | 't' :: rest | ' ' :: rest =>
    match time rest with
    | some (_, rest) => (offset rest).elim rest (·.2)
    | none => cs
  | _ => cs

def datetime : Reader Value := fun cs => do
  let rest ←
    match date cs with
    | some (_, rest) => some (skipTime rest)
    | none => (time cs).map (·.2)
  return (.datetime (String.ofList (cs.take (cs.length - rest.length))), rest)

end AppFleet.Toml
