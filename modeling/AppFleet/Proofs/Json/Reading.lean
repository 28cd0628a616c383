import AppFleet.Proofs.Json.Numbers

/-! Values at the front of a text. A value that is read stays the same when something follows the text that
could not go on with a number. -/

namespace AppFleet.Json

variable {rest : List Char}

/-- What it reads it reads also when there is more text. -/
def Keeps (rest : List Char) (read : Reader α) : Prop :=
  ∀ cs a left, read cs = some (a, left) → read (cs ++ rest) = some (a, left ++ rest)

theorem skipBlanks_append {cs : List Char} (h : skipBlanks cs ≠ []) (rest : List Char) :
    skipBlanks (cs ++ rest) = skipBlanks cs ++ rest := by
  have hsome : (cs.dropWhile isBlank).isEmpty = false := by simpa [skipBlanks] using h
  simp only [skipBlanks] at hsome ⊢
  rw [List.dropWhile_append, hsome]
  rfl

theorem skipBlanks_cons {c : Char} {cs left : List Char} (h : skipBlanks cs = c :: left) (rest : List Char) :
    skipBlanks (cs ++ rest) = c :: (left ++ rest) := by
  rw [skipBlanks_append (by simp [h]), h]
  rfl

theorem keeps_stringBody (rest : List Char) : Keeps rest stringBody := by
  intro cs
  fun_induction stringBody cs with
  | case1 => simp
  | case2 left =>
    rintro body left' ⟨⟩
    rfl
  | case3 c cs ih =>
    intro body left h
    obtain ⟨⟨body', left'⟩, hbody, heq⟩ := Option.map_eq_some_iff.1 h
    cases heq
    simp [stringBody, ih _ _ hbody]
  | case4 c cs hquote hescape hbad => simp
  | case5 c cs hquote hescape hbad ih =>
    intro body left h
    obtain ⟨⟨body', left'⟩, hbody, heq⟩ := Option.map_eq_some_iff.1 h
    cases heq
    have hbad' : ¬ (c = '\\' || c.toNat < 0x20) = true := hbad
    rw [List.cons_append, stringBody.eq_4 _ _ hquote (by simp_all), if_neg hbad', ih _ _ hbody]
    rfl

theorem keeps_stringRest (rest : List Char) : Keeps rest stringRest := by
  intro cs s left h
  obtain ⟨⟨body, left'⟩, hbody, h⟩ := Option.bind_eq_some_iff.1 h
  obtain ⟨text, htext, h⟩ := Option.bind_eq_some_iff.1 h
  cases h
  simp [stringRest, keeps_stringBody rest _ _ _ hbody, htext]

theorem keeps_readNumber (h : Apart rest) : Keeps rest readNumber := by
  intro cs n left hread
  rw [readNumber_append h, hread]
  rfl

variable {value : Reader Json} {fuel fuel' : Nat} {cs left : List Char}

theorem keeps_readItems (hvalue : Keeps rest value) (hnone : value [] = none) (hfuel : fuel ≤ fuel')
    {vs : List Json} (h : readItems value fuel cs = some (vs, left)) :
    readItems value fuel' (cs ++ rest) = some (vs, left ++ rest) := by
  induction fuel generalizing fuel' cs vs left with
  | zero => cases h
  | succ fuel ih =>
    obtain ⟨fuel', rfl⟩ := Nat.exists_eq_add_of_le' hfuel
    obtain ⟨⟨v, after⟩, hv, h⟩ := Option.bind_eq_some_iff.1 h
    rw [← Nat.add_assoc, readItems, hvalue _ _ _ hv]
    dsimp only at h ⊢
    split at h
    · rename_i more hmore
      obtain ⟨⟨vs', left'⟩, hvs, h⟩ := Option.bind_eq_some_iff.1 h
      cases h
      have hsome : skipBlanks more ≠ [] := by
        intro hempty
        rw [hempty] at hvs
        cases fuel <;> simp [readItems, hnone] at hvs
      simp only [Option.bind_eq_bind, Option.bind_some, skipBlanks_cons hmore, skipBlanks_append hsome]
      rw [ih (Nat.le_add_left ..) hvs]
      rfl
    · rename_i more hmore
      cases h
      simp [skipBlanks_cons hmore]
    · cases h

theorem keeps_readEntries (hvalue : Keeps rest value) (hnone : value [] = none) (hfuel : fuel ≤ fuel')
    {es : List (String × Json)} (h : readEntries value fuel cs = some (es, left)) :
    readEntries value fuel' (cs ++ rest) = some (es, left ++ rest) := by
  induction fuel generalizing fuel' cs es left with
  | zero => cases h
  | succ fuel ih =>
    obtain ⟨fuel', rfl⟩ := Nat.exists_eq_add_of_le' hfuel
    unfold readEntries at h
    split at h
    · rename_i named
      obtain ⟨⟨key, after⟩, hkey, h⟩ := Option.bind_eq_some_iff.1 h
      dsimp only at h
      split at h
      · rename_i valued hvalued
        obtain ⟨⟨v, after'⟩, hv, h⟩ := Option.bind_eq_some_iff.1 h
        have hsome : skipBlanks valued ≠ [] := by
          intro hempty
          rw [hempty, hnone] at hv
          cases hv
        rw [← Nat.add_assoc, List.cons_append, readEntries, keeps_stringRest rest _ _ _ hkey]
        simp only [Option.bind_eq_bind, Option.bind_some, skipBlanks_cons hvalued,
          skipBlanks_append hsome, hvalue _ _ _ hv]
        dsimp only at h
        split at h
        · rename_i more hmore
          obtain ⟨⟨es', left'⟩, hes, h⟩ := Option.bind_eq_some_iff.1 h
          cases h
          have hsome : skipBlanks more ≠ [] := by
            intro hempty
            rw [hempty] at hes
            cases fuel <;> simp [readEntries] at hes
          simp only [skipBlanks_cons hmore, skipBlanks_append hsome]
          rw [ih (Nat.le_add_left ..) hes]
          rfl
        · rename_i more hmore
          cases h
          simp [skipBlanks_cons hmore]
        · cases h
      · cases h
    · cases h

theorem readValue_number {c : Char} (h : c.isDigit ∨ c = '-') (depth : Nat) (cs : List Char) :
    readValue depth (c :: cs) = (readNumber (c :: cs)).map fun (n, rest) => (.number n, rest) := by
  have hne (d : Char) (hd : d.isDigit = false) (hminus : d ≠ '-') : c ≠ d := by
    rintro rfl
    rcases h with h | h
    · rw [hd] at h
      cases h
    · exact hminus h
  unfold readValue
  split
  · rename_i heq
    exact absurd (List.cons.inj heq).1 (hne 'n' rfl (by decide))
  · rename_i heq
    exact absurd (List.cons.inj heq).1 (hne 't' rfl (by decide))
  · rename_i heq
    exact absurd (List.cons.inj heq).1 (hne 'f' rfl (by decide))
  · rename_i heq
    exact absurd (List.cons.inj heq).1 (hne '"' rfl (by decide))
  · rename_i heq
    exact absurd (List.cons.inj heq).1 (hne '[' rfl (by decide))
  · rename_i heq
    exact absurd (List.cons.inj heq).1 (hne '{' rfl (by decide))
  · rfl

theorem readValue_nil (depth : Nat) : readValue depth [] = none := by
  unfold readValue
  rfl

theorem readValue_noItems (h : skipBlanks cs = ']' :: left) (depth : Nat) :
    readValue (depth + 1) ('[' :: cs) = some (.array [], left) := by
  rw [readValue]
  simp only [h]

theorem readValue_items {c : Char} (h : skipBlanks cs = c :: left) (hc : c ≠ ']') (depth : Nat) :
    readValue (depth + 1) ('[' :: cs) = (readItems (readValue depth) (left.length + 1) (c :: left)).map
      fun (vs, rest) => (.array vs, rest) := by
  rw [readValue]
  simp only [h]
  split
  · rename_i heq
    exact absurd (List.cons.inj heq).1 hc
  · rfl

theorem readValue_noEntries (h : skipBlanks cs = '}' :: left) (depth : Nat) :
    readValue (depth + 1) ('{' :: cs) = some (.object [], left) := by
  rw [readValue]
  simp only [h]

theorem readValue_entries {c : Char} (h : skipBlanks cs = c :: left) (hc : c ≠ '}') (depth : Nat) :
    readValue (depth + 1) ('{' :: cs) = (readEntries (readValue depth) (left.length + 1) (c :: left)).map
      fun (es, rest) => (.object es, rest) := by
  rw [readValue]
  simp only [h]
  split
  · rename_i heq
    exact absurd (List.cons.inj heq).1 hc
  · rfl

theorem keeps_array {depth : Nat} (hinner : Keeps rest (readValue depth)) {v : Json}
    (h : readValue (depth + 1) ('[' :: cs) = some (v, left)) :
    readValue (depth + 1) ('[' :: (cs ++ rest)) = some (v, left ++ rest) := by
  cases hcs : skipBlanks cs with
  | nil =>
    rw [readValue] at h
    simp only [hcs] at h
    cases h
  | cons c more =>
    have hcs' := skipBlanks_cons hcs rest
    by_cases hc : c = ']'
    · subst hc
      rw [readValue_noItems hcs] at h
      cases h
      exact readValue_noItems hcs' depth
    · rw [readValue_items hcs hc] at h
      obtain ⟨⟨vs, left'⟩, hvs, heq⟩ := Option.map_eq_some_iff.1 h
      cases heq
      have hfuel : more.length + 1 ≤ (more ++ rest).length + 1 := by simp
      rw [readValue_items hcs' hc]
      exact congrArg _ (keeps_readItems hinner (readValue_nil depth) hfuel hvs)

theorem keeps_object {depth : Nat} (hinner : Keeps rest (readValue depth)) {v : Json}
    (h : readValue (depth + 1) ('{' :: cs) = some (v, left)) :
    readValue (depth + 1) ('{' :: (cs ++ rest)) = some (v, left ++ rest) := by
  cases hcs : skipBlanks cs with
  | nil =>
    rw [readValue] at h
    simp only [hcs] at h
    cases h
  | cons c more =>
    have hcs' := skipBlanks_cons hcs rest
    by_cases hc : c = '}'
    · subst hc
      rw [readValue_noEntries hcs] at h
      cases h
      exact readValue_noEntries hcs' depth
    · rw [readValue_entries hcs hc] at h
      obtain ⟨⟨es, left'⟩, hes, heq⟩ := Option.map_eq_some_iff.1 h
      cases heq
      have hfuel : more.length + 1 ≤ (more ++ rest).length + 1 := by simp
      rw [readValue_entries hcs' hc]
      exact congrArg _ (keeps_readEntries hinner (readValue_nil depth) hfuel hes)

/-- Within brackets anything may follow a value; after it, nothing that could go on with a number. -/
theorem keeps_readValue (h : Apart rest) (depth : Nat) : Keeps rest (readValue depth) := by
  induction depth using Nat.strongRecOn with
  | ind depth ih =>
    intro cs v left hread
    have hread' := hread
    unfold readValue at hread
    split at hread
    · cases hread
      simp only [List.cons_append, readValue]
    · cases hread
      simp only [List.cons_append, readValue]
    · cases hread
      simp only [List.cons_append, readValue]
    · obtain ⟨⟨s, left'⟩, hs, heq⟩ := Option.map_eq_some_iff.1 hread
      cases heq
      rw [List.cons_append, readValue, keeps_stringRest rest _ _ _ hs]
      rfl
    · cases depth with
      | zero => cases hread
      | succ depth => exact keeps_array (ih depth (Nat.lt_succ_self depth)) hread'
    · cases depth with
      | zero => cases hread
      | succ depth => exact keeps_object (ih depth (Nat.lt_succ_self depth)) hread'
    · obtain ⟨⟨n, left'⟩, hn, heq⟩ := Option.map_eq_some_iff.1 hread
      cases heq
      obtain ⟨c, hc, hhead⟩ := head_of_readNumber hn
      obtain ⟨cs', rfl⟩ := List.head?_eq_some_iff.1 hc
      have hkept := keeps_readNumber h _ _ _ hn
      rw [List.cons_append] at hkept ⊢
      rw [readValue_number hhead, hkept]
      rfl

end AppFleet.Json
