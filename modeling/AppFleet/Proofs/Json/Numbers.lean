import AppFleet.Decimal.Layout
import AppFleet.Json.Reader
import AppFleet.Json.Writer
import Mathlib.Data.List.TakeDrop
import Mathlib.Data.List.TakeWhile
import Mathlib.Tactic.Common

/-! Numbers in JSON text. A number ends where something follows that cannot be part of it, and an integer
of 64 bits reads back. -/

namespace AppFleet.Json

def isNumeral (c : Char) : Bool := c.isDigit || c = '.' || c = 'e' || c = 'E' || c = '+' || c = '-'

/-- What cannot go on with a number. -/
def Apart (rest : List Char) : Prop := ∀ c ∈ rest.head?, isNumeral c = false

theorem apart_cons {c : Char} {rest : List Char} (h : isNumeral c = false) : Apart (c :: rest) := by
  simpa [Apart] using h

variable {cs rest : List Char}

theorem Apart.head_append_ne (h : Apart rest) {c : Char} (hc : isNumeral c = true) (hcs : cs.head? ≠ some c) :
    (cs ++ rest).head? ≠ some c := by
  cases cs with
  | nil =>
    intro hhead
    have hother := h c hhead
    rw [hc] at hother
    cases hother
  | cons d cs => exact hcs

/-- The same, with more text after what it left. -/
def before (rest : List Char) : Option (α × List Char) → Option (α × List Char) :=
  Option.map fun (a, left) => (a, left ++ rest)

theorem bind_before (rest : List Char) (x : Option β) (f : β → Option (α × List Char)) :
    (x >>= fun b => before rest (f b)) = before rest (x >>= f) := by
  cases x <;> rfl

theorem of_guard {p : Prop} [Decidable p] {u : Unit} (h : guard p = some u) : p := by
  unfold guard at h
  split at h
  · assumption
  · cases h

theorem digits_eq (cs : List Char) : digits cs = (cs.takeWhile Char.isDigit, cs.dropWhile Char.isDigit) :=
  List.span_eq_takeWhile_dropWhile _ cs

theorem digits_apart (h : Apart rest) : digits rest = ([], rest) := by
  rw [digits_eq]
  cases rest with
  | nil => rfl
  | cons c rest =>
    have hc := h c rfl
    simp only [isNumeral, Bool.or_eq_false_iff] at hc
    simp [hc.1.1.1.1.1]

theorem digits_append (h : Apart rest) (cs : List Char) :
    digits (cs ++ rest) = ((digits cs).1, (digits cs).2 ++ rest) := by
  have hrest := digits_apart h
  simp only [digits_eq, Prod.mk.injEq] at hrest ⊢
  induction cs with
  | nil => simpa using hrest
  | cons c cs ih => cases hc : c.isDigit <;> simp [hc, ih]

def magnitude? (negative : Bool) (cs : List Char) : Option (Int × List Char) :=
  match digits cs with
  | ([], _) => none
  | (ds, rest) =>
    let n : Nat := ds.foldl (fun n c => 10 * n + digitValue c) 0
    some (if negative then -(n : Int) else n, rest)

theorem magnitude?_append (h : Apart rest) (negative : Bool) (cs : List Char) :
    magnitude? negative (cs ++ rest) = before rest (magnitude? negative cs) := by
  unfold magnitude?
  rw [digits_append h]
  obtain ⟨ds, left⟩ := digits cs
  cases ds <;> rfl

theorem exponent?_unsigned (hplus : cs.head? ≠ some '+') (hminus : cs.head? ≠ some '-') :
    exponent? cs = magnitude? false cs := by
  unfold exponent?
  split
  rename_i hsign
  split at hsign
  · exact absurd rfl hplus
  · exact absurd rfl hminus
  · cases hsign
    rfl

theorem exponent?_append (h : Apart rest) (cs : List Char) :
    exponent? (cs ++ rest) = before rest (exponent? cs) := by
  by_cases hplus : cs.head? = some '+'
  · obtain ⟨cs, rfl⟩ := List.head?_eq_some_iff.1 hplus
    exact magnitude?_append h false cs
  · by_cases hminus : cs.head? = some '-'
    · obtain ⟨cs, rfl⟩ := List.head?_eq_some_iff.1 hminus
      exact magnitude?_append h true cs
    · rw [exponent?_unsigned (h.head_append_ne rfl hplus) (h.head_append_ne rfl hminus),
        exponent?_unsigned hplus hminus]
      exact magnitude?_append h false cs

/-- The double with this significand and exponent, once all of it was read. -/
def finish (negative : Bool) (m : Nat) (e : Int) (rest : List Char) : Option (Number × List Char) :=
  (scale m e).map fun x => (signed negative x, rest)

theorem finish_append (negative : Bool) (m : Nat) (e : Int) (left : List Char) :
    finish negative m e (left ++ rest) = before rest (finish negative m e left) := by
  unfold finish before
  cases scale m e <;> rfl

def exponentPart (negative : Bool) (m : Nat) (e : Int) (cs : List Char) : Option (Number × List Char) :=
  match cs with
  | 'e' :: rest | 'E' :: rest => do
    let (extra, rest) ← exponent? rest
    finish negative m (e + extra) rest
  | _ => finish negative m e cs

theorem exponentPart_of_ne (hlower : cs.head? ≠ some 'e') (hupper : cs.head? ≠ some 'E') (negative : Bool)
    (m : Nat) (e : Int) : exponentPart negative m e cs = finish negative m e cs := by
  unfold exponentPart
  split
  · exact absurd rfl hlower
  · exact absurd rfl hupper
  · rfl

theorem exponentPart_append (h : Apart rest) (negative : Bool) (m : Nat) (e : Int) (cs : List Char) :
    exponentPart negative m e (cs ++ rest) = before rest (exponentPart negative m e cs) := by
  have hmark (cs : List Char) :
      (exponent? (cs ++ rest) >>= fun read => finish negative m (e + read.1) read.2) =
        before rest (exponent? cs >>= fun read => finish negative m (e + read.1) read.2) := by
    rw [exponent?_append h]
    cases exponent? cs with
    | none => rfl
    | some read => exact finish_append negative m _ read.2
  by_cases hlower : cs.head? = some 'e'
  · obtain ⟨cs, rfl⟩ := List.head?_eq_some_iff.1 hlower
    exact hmark cs
  · by_cases hupper : cs.head? = some 'E'
    · obtain ⟨cs, rfl⟩ := List.head?_eq_some_iff.1 hupper
      exact hmark cs
    · rw [exponentPart_of_ne (h.head_append_ne rfl hlower) (h.head_append_ne rfl hupper),
        exponentPart_of_ne hlower hupper]
      exact finish_append negative m e cs

def fractionPart (negative : Bool) (n cut : Nat) (cs : List Char) : Option (Number × List Char) :=
  match cs with
  | '.' :: rest => do
    let (fraction, rest) := digits rest
    guard (fraction ≠ [])
    let (m, skipped) := significand n fraction
    exponentPart negative m (cut - ((fraction.length : Int) - skipped)) rest
  | 'e' :: _ | 'E' :: _ => exponentPart negative n cut cs
  | _ => if cut = 0 then some (integer negative n, cs) else finish negative n cut cs

theorem fractionPart_of_ne (hpoint : cs.head? ≠ some '.') (hlower : cs.head? ≠ some 'e')
    (hupper : cs.head? ≠ some 'E') (negative : Bool) (n cut : Nat) : fractionPart negative n cut cs =
      if cut = 0 then some (integer negative n, cs) else finish negative n cut cs := by
  unfold fractionPart
  split
  · exact absurd rfl hpoint
  · exact absurd rfl hlower
  · exact absurd rfl hupper
  · rfl

theorem fractionPart_append (h : Apart rest) (negative : Bool) (n cut : Nat) (cs : List Char) :
    fractionPart negative n cut (cs ++ rest) = before rest (fractionPart negative n cut cs) := by
  by_cases hpoint : cs.head? = some '.'
  · obtain ⟨cs, rfl⟩ := List.head?_eq_some_iff.1 hpoint
    change (do
      guard ((digits (cs ++ rest)).1 ≠ [])
      exponentPart negative (significand n (digits (cs ++ rest)).1).1
        (cut - (((digits (cs ++ rest)).1.length : Int) - (significand n (digits (cs ++ rest)).1).2))
        (digits (cs ++ rest)).2) = _
    rw [digits_append h, exponentPart_append h]
    exact bind_before rest _ _
  · by_cases hlower : cs.head? = some 'e'
    · obtain ⟨cs, rfl⟩ := List.head?_eq_some_iff.1 hlower
      exact exponentPart_append h negative n cut ('e' :: cs)
    · by_cases hupper : cs.head? = some 'E'
      · obtain ⟨cs, rfl⟩ := List.head?_eq_some_iff.1 hupper
        exact exponentPart_append h negative n cut ('E' :: cs)
      · rw [fractionPart_of_ne (h.head_append_ne rfl hpoint) (h.head_append_ne rfl hlower)
          (h.head_append_ne rfl hupper), fractionPart_of_ne hpoint hlower hupper]
        split
        · rfl
        · exact finish_append negative n cut cs

theorem readUnsigned_eq (negative : Bool) (cs : List Char) : readUnsigned negative cs = (do
    guard ((digits cs).1 ≠ [] ∧ ((digits cs).1.head? = some '0' → (digits cs).1.length = 1))
    fractionPart negative (significand 0 (digits cs).1).1 (significand 0 (digits cs).1).2 (digits cs).2) := rfl

theorem readUnsigned_append (h : Apart rest) (negative : Bool) (cs : List Char) :
    readUnsigned negative (cs ++ rest) = before rest (readUnsigned negative cs) := by
  rw [readUnsigned_eq, readUnsigned_eq, digits_append h, fractionPart_append h]
  exact bind_before rest _ _

theorem readNumber_of_ne (h : cs.head? ≠ some '-') : readNumber cs = readUnsigned false cs := by
  unfold readNumber
  split
  · exact absurd rfl h
  · rfl

theorem readNumber_append (h : Apart rest) (cs : List Char) :
    readNumber (cs ++ rest) = before rest (readNumber cs) := by
  by_cases hminus : cs.head? = some '-'
  · obtain ⟨cs, rfl⟩ := List.head?_eq_some_iff.1 hminus
    exact readUnsigned_append h true cs
  · rw [readNumber_of_ne hminus, readNumber_of_ne (h.head_append_ne rfl hminus)]
    exact readUnsigned_append h false cs

/-- A number begins with a digit or a sign. -/
theorem head_of_readNumber {read : Number × List Char} (h : readNumber cs = some read) :
    ∃ c, cs.head? = some c ∧ (c.isDigit ∨ c = '-') := by
  by_cases hminus : cs.head? = some '-'
  · exact ⟨'-', hminus, .inr rfl⟩
  · rw [readNumber_of_ne hminus, readUnsigned_eq, digits_eq] at h
    obtain ⟨_, hguard, -⟩ := Option.bind_eq_some_iff.1 h
    have hsome := (of_guard hguard).1
    cases cs with
    | nil => exact absurd rfl hsome
    | cons c cs =>
      by_cases hdigit : c.isDigit
      · exact ⟨c, rfl, .inl hdigit⟩
      · exact absurd (List.takeWhile_cons_of_neg hdigit) hsome

theorem significand_eq {ds : List Char} {n : Nat} (h : Nat.ofDigitChars 10 ds n < 0x10000000000000000) :
    significand n ds = (Nat.ofDigitChars 10 ds n, 0) := by
  induction ds generalizing n with
  | nil => rfl
  | cons c ds ih =>
    rw [Nat.ofDigitChars_cons] at h ⊢
    have hle (m : Nat) : m ≤ Nat.ofDigitChars 10 ds m := by
      rw [Nat.ofDigitChars_eq_ofDigitChars_zero]
      exact Nat.le_add_right_of_le (Nat.le_mul_of_pos_left m (Nat.pow_pos (by omega)))
    exact (if_pos (Nat.lt_of_le_of_lt (hle _) h)).trans (ih h)

theorem head_toDigits {n : Nat} (h : 0 < n) : (Nat.toDigits 10 n).head? ≠ some '0' := by
  induction n using Nat.strongRecOn with
  | ind n ih =>
    by_cases hsmall : n < 10
    · have hchar : ∀ d < 10, 0 < d → d.digitChar ≠ '0' := by decide
      rw [Nat.toDigits_of_lt_base hsmall]
      simpa using hchar n hsmall h
    · have hfirst := ih (n / 10) (by omega) (by omega)
      rw [Nat.toDigits_of_base_le (by omega) (by omega), List.head?_append]
      rwa [Option.or_of_isSome (by simp)]

theorem readUnsigned_toDigits (negative : Bool) {n : Nat} (h : n < 0x10000000000000000) :
    readUnsigned negative (Nat.toDigits 10 n) = some (integer negative n, []) := by
  have hdigit : ∀ c ∈ Nat.toDigits 10 n, c.isDigit = true :=
    fun c => Nat.isDigit_of_mem_toDigits (by omega) (by omega)
  have hdigits : digits (Nat.toDigits 10 n) = (Nat.toDigits 10 n, []) := by
    rw [digits_eq, List.takeWhile_eq_self_iff.2 hdigit, List.dropWhile_eq_nil_iff.2 hdigit]
  have hvalue : significand 0 (Nat.toDigits 10 n) = (n, 0) := by
    rw [significand_eq] <;> rw [Nat.ofDigitChars_ten_toDigits]
    exact h
  have hzero : (Nat.toDigits 10 n).head? = some '0' → (Nat.toDigits 10 n).length = 1 := by
    rcases Nat.eq_zero_or_pos n with rfl | hpos
    · exact fun _ => rfl
    · exact fun hhead => absurd hhead (head_toDigits hpos)
  rw [readUnsigned_eq, hdigits, guard, if_pos ⟨Nat.toDigits_ne_nil, hzero⟩, hvalue]
  rfl

/-- The text of a double reads back; integers always do. -/
def Number.Exact : Number → Prop
  | .double x => readNumber (Decimal.ofFloat x) = some (.double x, [])
  | _ => True

theorem readNumber_write {n : Number} (h : n.Exact) : readNumber n.write = some (n, []) := by
  cases n with
  | natural n =>
    have hminus : (Nat.toDigits 10 n.toNat).head? ≠ some '-' := by
      intro hhead
      have hdigit := Nat.isDigit_of_mem_toDigits (by omega) (by omega) (List.mem_of_head? hhead)
      revert hdigit
      decide
    rw [Number.write, readNumber_of_ne hminus, readUnsigned_toDigits false n.toNat_lt]
    simp [integer]
  | negative n =>
    have hread := readUnsigned_toDigits true (n := n.val + 1) (by omega)
    rw [Number.write]
    refine hread.trans ?_
    rw [integer, if_pos rfl, dif_pos ⟨Nat.succ_pos _, n.isLt⟩]
    rfl
  | double x => exact h

theorem isNumeral_of_mem_toDigits {n : Nat} {c : Char} (h : c ∈ Nat.toDigits 10 n) : isNumeral c = true := by
  simp [isNumeral, Nat.isDigit_of_mem_toDigits (by omega) (by omega) h]

theorem isNumeral_of_mem_render {layout : Decimal.Layout} {d : Decimal} {c : Char}
    (h : c ∈ Decimal.render layout d) : isNumeral c = true := by
  have hzeros {n : Int} (h : c ∈ Decimal.zeros n) : isNumeral c = true := by
    rw [List.eq_of_mem_replicate h]
    rfl
  have hdigits : c ∈ Nat.toDigits 10 d.digits → isNumeral c = true := isNumeral_of_mem_toDigits
  unfold Decimal.render at h
  generalize Nat.toDigits 10 d.digits = ds at h hdigits
  dsimp only at h
  split at h
  · simp only [List.mem_cons, List.not_mem_nil, or_false] at h
    rcases h with rfl | rfl | rfl <;> rfl
  · split at h
    · split at h
      · simp only [List.append_assoc, List.mem_append, List.mem_cons, List.not_mem_nil, or_false] at h
        rcases h with h | h | rfl | rfl
        · exact hdigits h
        · exact hzeros h
        · rfl
        · rfl
      · split at h
        · simp only [List.mem_append, List.mem_cons] at h
          rcases h with h | rfl | h
          · exact hdigits (List.mem_of_mem_take h)
          · rfl
          · exact hdigits (List.mem_of_mem_drop h)
        · simp only [List.cons_append, List.mem_append, List.mem_cons] at h
          rcases h with rfl | rfl | h | h
          · rfl
          · rfl
          · exact hzeros h
          · exact hdigits h
    · rcases List.mem_append.1 h with h | h
      · split at h
        · simp at h
        · exact hdigits h
        · simp only [List.mem_cons] at h hdigits
          rcases h with rfl | rfl | h
          · exact hdigits (.inl rfl)
          · rfl
          · exact hdigits (.inr h)
      · simp only [Decimal.exponentText, List.mem_cons] at h
        rcases h with rfl | rfl | h
        · rfl
        · split <;> rfl
        · exact isNumeral_of_mem_toDigits h

theorem isNumeral_of_mem_write {n : Number} {c : Char} (h : c ∈ n.write) : isNumeral c = true := by
  cases n with
  | natural n => exact isNumeral_of_mem_toDigits h
  | negative n =>
    rcases List.mem_cons.1 h with rfl | h
    · rfl
    · exact isNumeral_of_mem_toDigits h
  | double x =>
    simp only [Number.write, Decimal.ofFloat] at h
    split at h
    · exact isNumeral_of_mem_render h
    · rcases List.mem_cons.1 h with rfl | h
      · rfl
      · exact isNumeral_of_mem_render h

end AppFleet.Json
