/-! Blank text: nothing but white space, in the sense of the Unicode property White_Space. -/

namespace AppFleet.Text

/-- The ranges of the property, in order, ends included. -/
def blankRanges : List (Nat × Nat) := [
  (0x9, 0xd), (0x20, 0x20), (0x85, 0x85), (0xa0, 0xa0), (0x1680, 0x1680), (0x2000, 0x200a),
  (0x2028, 0x2029), (0x202f, 0x202f), (0x205f, 0x205f), (0x3000, 0x3000)]

def isBlankChar (c : Char) : Bool := blankRanges.any fun (low, high) => low ≤ c.toNat && c.toNat ≤ high

def isBlank (s : String) : Bool := s.toList.all isBlankChar

theorem isBlankChar_of_isWhitespace (c : Char) (h : c.isWhitespace = true) : isBlankChar c = true := by
  simp only [Char.isWhitespace, Bool.or_eq_true, decide_eq_true_eq] at h
  rcases h with ((h | h) | h) | h <;> subst h <;> decide

end AppFleet.Text
