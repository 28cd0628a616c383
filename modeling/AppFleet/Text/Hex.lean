/-! Hexadecimal text: two lower-case digits for every byte, the high half first. -/

namespace AppFleet.Hex

def digit (n : UInt8) : Char :=
  if n < 10 then Char.ofNat (n.toNat + 48) else Char.ofNat (n.toNat + 87)

def ofByte (b : UInt8) : List Char := [digit (b / 16), digit (b % 16)]

def ofBytes (bytes : List UInt8) : String := String.ofList (bytes.flatMap ofByte)

def value? (c : Char) : Option Nat :=
  if '0' ≤ c ∧ c ≤ '9' then some (c.toNat - 48)
  else if 'a' ≤ c ∧ c ≤ 'f' then some (c.toNat - 87)
  else if 'A' ≤ c ∧ c ≤ 'F' then some (c.toNat - 55)
  else none

/-- A number from hexadecimal digits of either case, the most significant first. -/
def toNat? (digits : List Char) : Option Nat :=
  digits.foldlM (fun n c => (value? c).map (16 * n + ·)) 0

/-- The bytes of some digits, two for each. -/
def bytes? : List Char → Option (List UInt8)
  | [] => some []
  | a :: b :: rest => do return UInt8.ofNat (← toNat? [a, b]) :: (← bytes? rest)
  | _ => none

/-- The last `count` hexadecimal digits of `n`, zeros in front. -/
def ofNat (count n : Nat) : List Char :=
  (List.range count).reverse.map fun i => digit (UInt8.ofNat (n / Nat.pow 16 i % 16))

theorem length_flatMap_ofByte (bytes : List UInt8) : (bytes.flatMap ofByte).length = 2 * bytes.length := by
  induction bytes with
  | nil => rfl
  | cons b rest ih => simp [ofByte, ih]; omega

end AppFleet.Hex
