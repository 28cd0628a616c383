/-!
The shortest decimal that reads back as a given double. A finite double is `m * 2 ^ q`; the
decimals that round to it are those between its two half-way points, ends included exactly when
`m` is even. The grid of `n` digits is tried for `n = 1, 2, …`, in exact natural arithmetic.
-/

namespace AppFleet

/-- The number `digits * 10 ^ exponent`. -/
structure Decimal where
  digits : Nat
  exponent : Int
deriving DecidableEq, Repr

namespace Shortest

/-- A positive finite double as `significand * 2 ^ exponent`. `tightBelow` marks a power of two,
whose lower neighbour is half as far away as the upper one. -/
structure Binary where
  significand : Nat
  exponent : Int
  tightBelow : Bool
deriving DecidableEq, Repr

def Binary.ofBits (bits : UInt64) : Binary :=
  let fraction : Nat := bits.toNat % 0x10000000000000
  let biased : Nat := bits.toNat / 0x10000000000000 % 0x800
  if biased = 0 then ⟨fraction, -1074, false⟩
  else ⟨0x10000000000000 + fraction, (biased : Int) - 1075, fraction = 0 ∧ 1 < biased⟩

/-- Powers of ten are written as a quotient: one of the two parts is `1`. -/
def ratio (base : Nat) (e : Int) : Nat × Nat := (base.pow e.toNat, base.pow (-e).toNat)

/-- Number of decimal digits. -/
def width (n : Nat) : Nat := (Nat.toDigits 10 n).length

/-- The exponent of the first digit of `num / den`. -/
def leading (num den : Nat) : Int :=
  let guess : Int := width num - width den
  let (up, down) := ratio 10 guess
  if num * down ≥ den * up then guess else guess - 1

/-- Numerator of `4 m`, the two half-way points on the same scale, and the denominator. -/
structure Scaled where
  value : Nat
  low : Nat
  high : Nat
  unit : Nat
  closed : Bool

def Binary.scaled (b : Binary) (tens : Int) : Scaled :=
  let (two, half) := ratio 2 (b.exponent - 2)
  let (ten, tenth) := ratio 10 tens
  let k := two * ten
  let m := 4 * b.significand
  ⟨m * k, (m - if b.tightBelow then 1 else 2) * k, (m + 2) * k, half * tenth, b.significand % 2 = 0⟩

def Scaled.holds (s : Scaled) (candidate : Nat) : Bool :=
  let x := candidate * s.unit
  if s.closed then s.low ≤ x && x ≤ s.high else s.low < x && x < s.high

/-- The point of this grid that reads back, the nearer of two and of equally near ones the even. -/
def Scaled.pick (s : Scaled) : Option Nat :=
  let below := s.value / s.unit
  let above := below + 1
  match s.holds below, s.holds above with
  | false, false => none
  | true, false => some below
  | false, true => some above
  | true, true =>
    let toBelow := s.value - below * s.unit
    let toAbove := above * s.unit - s.value
    if toBelow < toAbove ∨ (toBelow = toAbove ∧ below % 2 = 0) then some below else some above

/-- Trailing zeros move from the digits into the exponent. -/
def strip : Nat → Decimal → Decimal
  | 0, d => d
  | fuel + 1, d =>
    if d.digits ≠ 0 ∧ d.digits % 10 = 0 then strip fuel ⟨d.digits / 10, d.exponent + 1⟩ else d

/-- The shortest decimal for the double with these bits, its sign ignored. -/
def ofBits (bits : UInt64) : Decimal :=
  let b := Binary.ofBits bits
  if b.significand = 0 then ⟨0, 0⟩
  else
    let whole := b.scaled 0
    let first := leading whole.value whole.unit
    let found := (List.range 17).findSome? fun (n : Nat) =>
      let tens : Int := (n : Int) - first
      ((b.scaled tens).pick).map fun digits => Decimal.mk digits (-tens)
    strip 17 (found.getD ⟨b.significand, 0⟩)

end Shortest

end AppFleet
