import AppFleet.Proofs.Json.Numbers
import AppFleet.Proofs.Toml.Strings
import AppFleet.Toml.Reader

/-! Values at the end of a line: strings, natural numbers of 63 bits and truth values read back. Digits
alone are no date and no time, which go on with a dash or a colon. -/

namespace AppFleet.Toml

variable {c : Char} {cs ds rest : List Char} {n : Nat}

theorem head_of_field {count least greatest : Nat} {left : List Char} (hds : ∀ c ∈ ds, c.isDigit = true)
    (h : field count least greatest (ds ++ '\n' :: rest) = some (n, left)) :
    ∃ c more, left = c :: more ∧ (c.isDigit = true ∨ c = '\n') := by
  unfold field at h
  dsimp only at h
  split at h
  · rename_i hfit
    obtain ⟨hlength, hall, -⟩ := hfit
    cases h
    have hle : count ≤ ds.length := by
      refine Nat.le_of_not_lt fun hlt => ?_
      have hmem : '\n' ∈ (ds ++ '\n' :: rest).take count := by
        rw [List.take_append]
        refine List.mem_append_right _ ?_
        obtain ⟨k, hk⟩ := Nat.exists_eq_add_of_lt hlt
        rw [show count - ds.length = k + 1 by omega]
        exact List.mem_cons_self
      cases List.all_eq_true.1 hall _ hmem
    rw [List.drop_append_of_le_length hle]
    cases hdrop : ds.drop count with
    | nil => exact ⟨_, _, rfl, .inr rfl⟩
    | cons c more =>
      have hmem : c ∈ ds := List.mem_of_mem_drop (hdrop ▸ List.mem_cons_self)
      exact ⟨_, _, rfl, .inl (hds c hmem)⟩
  · cases h

theorem char_of_field {count least greatest : Nat} {left : List Char} {d : Char}
    (hds : ∀ c ∈ ds, c.isDigit = true) (hd : d.isDigit = false) (hend : d ≠ '\n')
    (h : field count least greatest (ds ++ '\n' :: rest) = some (n, left)) : char d left = none := by
  obtain ⟨c, more, rfl, hc⟩ := head_of_field hds h
  have hne : d ≠ c := by
    rcases hc with hc | rfl
    · exact (ne_of_class hc hd).symm
    · exact hend
  exact if_neg hne

theorem date_digits (h : ∀ c ∈ ds, c.isDigit = true) (rest : List Char) : date (ds ++ '\n' :: rest) = none := by
  unfold date
  cases hyear : field 4 0 9999 (ds ++ '\n' :: rest) with
  | none => rfl
  | some read =>
    have hdash : char '-' read.2 = none := char_of_field h rfl (by decide) hyear
    simp [hdash]

theorem time_digits (h : ∀ c ∈ ds, c.isDigit = true) (rest : List Char) : time (ds ++ '\n' :: rest) = none := by
  unfold time
  cases hhour : field 2 0 23 (ds ++ '\n' :: rest) with
  | none => rfl
  | some read =>
    have hcolon : char ':' read.2 = none := char_of_field h rfl (by decide) hhour
    simp [hcolon]

theorem datetime_digits (h : ∀ c ∈ ds, c.isDigit = true) (rest : List Char) :
    datetime (ds ++ '\n' :: rest) = none := by
  simp [datetime, date_digits h, time_digits h]

theorem moreDigits_append (h : ∀ c ∈ ds, c.isDigit = true) (rest : List Char) :
    moreDigits Char.isDigit (ds ++ '\n' :: rest) = some (ds, '\n' :: rest) := by
  induction ds with
  | nil => rfl
  | cons c ds ih =>
    have hc := h c List.mem_cons_self
    have hunderscore : c ≠ '_' := ne_of_class hc rfl
    rw [List.cons_append, moreDigits.eq_2 _ _ _ (by simp [hunderscore]), if_pos hc,
      ih fun c hc => h c (List.mem_cons_of_mem _ hc)]
    rfl

theorem exists_toDigits (n : Nat) : ∃ c ds, Nat.toDigits 10 n = c :: ds ∧ (c = '0' → n = 0) ∧
    c.isDigit = true ∧ ∀ d ∈ ds, d.isDigit = true := by
  have hdigit : ∀ c ∈ Nat.toDigits 10 n, c.isDigit = true :=
    fun c => Nat.isDigit_of_mem_toDigits (by omega) (by omega)
  obtain ⟨c, ds, hds⟩ := List.exists_cons_of_ne_nil (Nat.toDigits_ne_nil (n := n) (b := 10))
  rw [hds] at hdigit
  refine ⟨c, ds, hds, ?_, hdigit c List.mem_cons_self, fun d hd => hdigit d (List.mem_cons_of_mem _ hd)⟩
  rintro rfl
  refine Nat.eq_zero_of_not_pos fun hpos => Json.head_toDigits hpos ?_
  rw [hds]
  rfl

theorem whole_toDigits (n : Nat) (rest : List Char) :
    whole (Nat.toDigits 10 n ++ '\n' :: rest) = some (Nat.toDigits 10 n, '\n' :: rest) := by
  obtain ⟨c, ds, hds, hzero, hdigit, hmore⟩ := exists_toDigits n
  by_cases hc : c = '0'
  · obtain rfl := hzero hc
    rfl
  · rw [hds]
    simp [whole, hc, digits, hdigit, moreDigits_append hmore]

theorem number_toDigits (n : Nat) : number 10 (Nat.toDigits 10 n) = n := by
  have hvalue (c : Char) (hc : c ∈ Nat.toDigits 10 n) : (Hex.value? c).getD 0 = c.toNat - '0'.toNat := by
    have hdigit := Nat.isDigit_of_mem_toDigits (by omega) (by omega) hc
    have hrange : '0' ≤ c ∧ c ≤ '9' := by simpa [Char.isDigit, Char.le_def] using hdigit
    rw [Hex.value?, if_pos hrange]
    rfl
  calc number 10 (Nat.toDigits 10 n)
    _ = Nat.ofDigitChars 10 (Nat.toDigits 10 n) 0 :=
      List.foldl_ext _ _ 0 fun m c hc => by rw [hvalue c hc]
    _ = n := Nat.ofDigitChars_ten_toDigits

theorem decimal_toDigits (h : n < 0x8000000000000000) (rest : List Char) :
    decimal false (Nat.toDigits 10 n ++ '\n' :: rest) = some (.integer (Int64.ofInt n), '\n' :: rest) := by
  simp [decimal, whole_toDigits, number_toDigits, integer?, h]

theorem numeric_digit (h : c.isDigit = true) (hfirst : c ≠ '0') (cs : List Char) :
    numeric (c :: cs) = decimal false (c :: cs) := by
  have hminus : c ≠ '-' := ne_of_class h rfl
  have hplus : c ≠ '+' := ne_of_class h rfl
  have hinf : c ≠ 'i' := ne_of_class h rfl
  have hnan : c ≠ 'n' := ne_of_class h rfl
  simp [numeric, signedNumber, sign, hfirst, hminus, hplus, hinf, hnan]

theorem numeric_toDigits (n : Nat) (rest : List Char) :
    numeric (Nat.toDigits 10 n ++ '\n' :: rest) = decimal false (Nat.toDigits 10 n ++ '\n' :: rest) := by
  obtain ⟨c, ds, hds, hzero, hdigit, -⟩ := exists_toDigits n
  by_cases hc : c = '0'
  · obtain rfl := hzero hc
    rfl
  · rw [hds]
    exact numeric_digit hdigit hc _

theorem value_cons (harray : c ≠ '[') (htable : c ≠ '{') (depth : Nat) (cs : List Char) :
    value depth (c :: cs) =
      if c = '"' ∨ c = '\'' then (string (c :: cs)).map fun (s, rest) => (.string s, rest)
      else if c = 't' then word "true" (.boolean true) (c :: cs)
      else if c = 'f' then word "false" (.boolean false) (c :: cs)
      else (datetime (c :: cs)).or (numeric (c :: cs)) := by
  unfold value
  split
  · rename_i heq
    exact absurd (List.cons.inj heq).1 harray
  · rename_i heq
    exact absurd (List.cons.inj heq).1 htable
  · rename_i heq
    cases heq
    rfl
  · rename_i heq
    cases heq

theorem value_toDigits (h : n < 0x8000000000000000) (depth : Nat) (rest : List Char) :
    value depth (Nat.toDigits 10 n ++ '\n' :: rest) = some (.integer (Int64.ofInt n), '\n' :: rest) := by
  have hdigits : ∀ c ∈ Nat.toDigits 10 n, c.isDigit = true :=
    fun c => Nat.isDigit_of_mem_toDigits (by omega) (by omega)
  have hread : (datetime (Nat.toDigits 10 n ++ '\n' :: rest)).or
      (numeric (Nat.toDigits 10 n ++ '\n' :: rest)) = some (.integer (Int64.ofInt n), '\n' :: rest) := by
    rw [datetime_digits hdigits, numeric_toDigits, decimal_toDigits h]
    rfl
  obtain ⟨c, ds, hds, -, hdigit, -⟩ := exists_toDigits n
  have hother {d : Char} (hd : d.isDigit = false) : c ≠ d := ne_of_class hdigit hd
  rw [hds] at hread ⊢
  rw [List.cons_append, value_cons (hother rfl) (hother rfl), if_neg, if_neg (hother rfl), if_neg (hother rfl)]
  · exact hread
  · exact not_or.2 ⟨hother rfl, hother rfl⟩

theorem head_quote (s : String) : ∃ c cs, quote s = c :: cs ∧ (c = '"' ∨ c = '\'') := by
  dsimp only [quote]
  cases Form.choose s.toList with
  | basic | basicLines => exact ⟨_, _, rfl, .inl rfl⟩
  | literal | literalLines => exact ⟨_, _, rfl, .inr rfl⟩

theorem value_quote (s : String) (depth : Nat) (rest : List Char) :
    value depth (quote s ++ '\n' :: rest) = some (.string s, '\n' :: rest) := by
  have hread : string (quote s ++ '\n' :: rest) = some (s, '\n' :: rest) :=
    string_quote s (by simp) (by simp)
  obtain ⟨c, cs, heq, hc⟩ := head_quote s
  have harray : c ≠ '[' := by rcases hc with rfl | rfl <;> decide
  have htable : c ≠ '{' := by rcases hc with rfl | rfl <;> decide
  rw [heq, List.cons_append] at hread ⊢
  rw [value_cons harray htable, if_pos hc, hread]
  rfl

theorem value_true (depth : Nat) (rest : List Char) :
    value depth ('t' :: 'r' :: 'u' :: 'e' :: rest) = some (.boolean true, rest) := by
  rw [value_cons (by decide) (by decide), if_neg (by decide), if_pos rfl]
  rfl

theorem value_false (depth : Nat) (rest : List Char) :
    value depth ('f' :: 'a' :: 'l' :: 's' :: 'e' :: rest) = some (.boolean false, rest) := by
  rw [value_cons (by decide) (by decide), if_neg (by decide), if_neg (by decide), if_pos rfl]
  rfl

/-- At the end of a line a text is read as this value. -/
structure Denotes (text : List Char) (v : Value) : Prop where
  head : ∀ c ∈ text.head?, isSpace c = false
  reads : ∀ depth rest, value depth (text ++ '\n' :: rest) = some (v, '\n' :: rest)

theorem denotes_quote (s : String) : Denotes (quote s) (.string s) := by
  obtain ⟨c, cs, heq, hc⟩ := head_quote s
  refine ⟨?_, value_quote s⟩
  rw [heq]
  rintro d ⟨⟩
  rcases hc with rfl | rfl <;> rfl

theorem denotes_toDigits (h : n < 0x8000000000000000) :
    Denotes (Nat.toDigits 10 n) (.integer (Int64.ofInt n)) := by
  refine ⟨fun c hc => ?_, value_toDigits h⟩
  have hdigit := Nat.isDigit_of_mem_toDigits (by omega) (by omega) (List.mem_of_head? hc)
  have hblank : c ≠ ' ' := ne_of_class hdigit rfl
  have htab : c ≠ '\t' := ne_of_class hdigit rfl
  simp [isSpace, hblank, htab]

theorem denotes_true : Denotes ['t', 'r', 'u', 'e'] (.boolean true) :=
  ⟨by simp [isSpace], fun depth rest => value_true depth _⟩

theorem denotes_false : Denotes ['f', 'a', 'l', 's', 'e'] (.boolean false) :=
  ⟨by simp [isSpace], fun depth rest => value_false depth _⟩

end AppFleet.Toml
