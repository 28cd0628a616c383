import AppFleet.Decimal.Shortest

/-!
Text of a double in JSON: the shortest digits that read back, positional where the exponent of the
first digit is between -5 and 15, otherwise scientific with a signed exponent that no zero fills up.
A positional number always has a digit after its point, so it never reads as an integer.
-/

namespace AppFleet.Decimal

/-- Which exponents of the first digit are written positionally. -/
structure Layout where
  least : Int
  greatest : Int
deriving Repr

def Layout.json : Layout := ⟨-5, 15⟩

def zeros (n : Int) : List Char := List.replicate n.toNat '0'

def exponentText (e : Int) : List Char :=
  'e' :: (if e < 0 then '-' else '+') :: Nat.toDigits 10 e.natAbs

def render (layout : Layout) (d : Decimal) : List Char :=
  let digits := Nat.toDigits 10 d.digits
  let first : Int := digits.length + d.exponent - 1
  if d.digits = 0 then ['0', '.', '0']
  else if layout.least ≤ first ∧ first ≤ layout.greatest then
    if 0 ≤ d.exponent then digits ++ zeros d.exponent ++ ['.', '0']
    else if 0 ≤ first then
      digits.take (first.toNat + 1) ++ '.' :: digits.drop (first.toNat + 1)
    else '0' :: '.' :: zeros (-first - 1) ++ digits
  else
    (match digits with
      | [] => []
      | [c] => [c]
      | c :: rest => c :: '.' :: rest) ++ exponentText first

/-- The text of a finite double. -/
def ofFloat (x : Float) : List Char :=
  let text := render .json (Shortest.ofBits x.toBits)
  if x.toBits < 0x8000000000000000 then text else '-' :: text

end AppFleet.Decimal
