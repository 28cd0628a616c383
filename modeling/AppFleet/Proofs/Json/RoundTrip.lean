import AppFleet.Json.Writer
import AppFleet.Proofs.Json.Reading
import AppFleet.Proofs.Json.Record

/-! What is written as JSON reads back. A value is one line of text, and reads back as it was if its objects
are sorted and its doubles read back. -/

namespace AppFleet

namespace Keyed

theorem set_of_lt {key : String} {value : α} {entries : List (String × α)}
    (h : ∀ e ∈ entries, e.1 < key) : set key value entries = entries ++ [(key, value)] := by
  induction entries with
  | nil => rfl
  | cons e entries ih =>
    obtain ⟨k, v⟩ := e
    have hlt : k < key := h (k, v) List.mem_cons_self
    rw [set, if_neg (String.lt_asymm hlt), if_neg (by rintro rfl; exact String.lt_irrefl _ hlt),
      ih fun e he => h e (List.mem_cons_of_mem _ he)]
    rfl

theorem sort_of_increasing {entries : List (String × α)} (h : Increasing entries) : sort entries = entries := by
  induction entries using List.reverseRecOn with
  | nil => rfl
  | append_singleton entries e ih =>
    rw [Increasing, List.map_append, List.pairwise_append] at h
    obtain ⟨hentries, -, hlast⟩ := h
    have hset : sort (entries ++ [e]) = set e.1 e.2 (sort entries) := by simp [sort]
    rw [hset, ih hentries]
    exact set_of_lt fun e' he' => hlast e'.1 (List.mem_map_of_mem he') e.1 (by simp)

end Keyed

namespace Json

theorem toNat?_control : ∀ n < 0x20, Hex.toNat? (Hex.ofNat 4 n) = some n := by decide

theorem plain_control {n : Nat} (h : n < 0x20) :
    ∀ c ∈ Hex.ofNat 4 n, c ≠ '"' ∧ c ≠ '\\' ∧ 0x20 ≤ c.toNat := by
  have hall : ∀ n < 0x20, (Hex.ofNat 4 n).all fun c => c ≠ '"' ∧ c ≠ '\\' ∧ 0x20 ≤ c.toNat := by decide
  simpa using hall n h

theorem escape_cases (c : Char) :
    (∃ d, escape c = ['\\', d] ∧ simpleEscape? d = some c ∧ 0x20 ≤ d.toNat) ∨
    (c.toNat < 0x20 ∧ escape c = '\\' :: 'u' :: Hex.ofNat 4 c.toNat) ∨
    (c ≠ '"' ∧ c ≠ '\\' ∧ 0x20 ≤ c.toNat ∧ escape c = [c]) := by
  unfold escape
  split
  · subst_vars
    exact .inl ⟨'"', rfl, rfl, by decide⟩
  split
  · subst_vars
    exact .inl ⟨'\\', rfl, rfl, by decide⟩
  split
  · subst_vars
    exact .inl ⟨'n', rfl, rfl, by decide⟩
  split
  · subst_vars
    exact .inl ⟨'r', rfl, rfl, by decide⟩
  split
  · subst_vars
    exact .inl ⟨'t', rfl, rfl, by decide⟩
  split
  · subst_vars
    exact .inl ⟨'b', rfl, rfl, by decide⟩
  split
  · subst_vars
    exact .inl ⟨'f', rfl, rfl, by decide⟩
  split
  · rename_i hcontrol
    exact .inr (.inl ⟨hcontrol, rfl⟩)
  · rename_i hquote hescape _ _ _ _ _ hcontrol
    exact .inr (.inr ⟨hquote, hescape, Nat.le_of_not_lt hcontrol, rfl⟩)

theorem stringBody_plain {c : Char} (hquote : c ≠ '"') (hescape : c ≠ '\\') (hcontrol : 0x20 ≤ c.toNat)
    (cs : List Char) :
    stringBody (c :: cs) = (stringBody cs).map fun (body, rest) => (c :: body, rest) := by
  have hbad : ¬ (c = '\\' || c.toNat < 0x20) = true := by
    simp [hescape, Nat.not_lt.2 hcontrol]
  rw [stringBody.eq_4 _ _ hquote (by simp_all), if_neg hbad]

theorem stringBody_escape (c : Char) (cs : List Char) :
    stringBody (escape c ++ cs) = (stringBody cs).map fun (body, rest) => (escape c ++ body, rest) := by
  rcases escape_cases c with ⟨d, heq, -⟩ | ⟨hcontrol, heq⟩ | ⟨hquote, hescape, hcontrol, heq⟩
  · rw [heq]
    rfl
  · have hhex := plain_control hcontrol
    have hplain (ds cs : List Char) (h : ∀ d ∈ ds, d ≠ '"' ∧ d ≠ '\\' ∧ 0x20 ≤ d.toNat) :
        stringBody (ds ++ cs) = (stringBody cs).map fun (body, rest) => (ds ++ body, rest) := by
      induction ds with
      | nil => simp
      | cons d ds ih =>
        obtain ⟨hquote, hescape, hcontrol⟩ := h d List.mem_cons_self
        rw [List.cons_append, stringBody_plain hquote hescape hcontrol,
          ih fun d hd => h d (List.mem_cons_of_mem _ hd), Option.map_map]
        rfl
    rw [heq]
    simp only [List.cons_append, stringBody, hplain _ cs hhex, Option.map_map]
    rfl
  · rw [heq]
    exact stringBody_plain hquote hescape hcontrol cs

theorem stringBody_quote (cs rest : List Char) :
    stringBody (cs.flatMap escape ++ '"' :: rest) = some (cs.flatMap escape, rest) := by
  induction cs with
  | nil => rfl
  | cons c cs ih => rw [List.flatMap_cons, List.append_assoc, stringBody_escape, ih]; rfl

theorem unescape_escape (c : Char) (cs : List Char) :
    unescape (escape c ++ cs) = (unescape cs).map (c :: ·) := by
  rcases escape_cases c with ⟨d, heq, hsimple, -⟩ | ⟨hcontrol, heq⟩ | ⟨-, hescape, -, heq⟩
  · have hne : d ≠ 'u' := by
      rintro rfl
      cases hsimple
    rw [heq]
    simp only [List.cons_append, List.nil_append]
    rw [unescape.eq_3 _ _ (by simp [hne]), hsimple]
    cases unescape cs <;> rfl
  · have hcode := toNat?_control _ hcontrol
    obtain ⟨p, q, r, s, hdigits⟩ : ∃ p q r s, Hex.ofNat 4 c.toNat = [p, q, r, s] := ⟨_, _, _, _, rfl⟩
    rw [hdigits] at hcode
    rw [heq, hdigits]
    have hwhole : ¬ (0xd800 ≤ c.toNat ∧ c.toNat < 0xe000) := by omega
    simp only [List.cons_append, List.nil_append, unescape, hcode, Option.bind_eq_bind, Option.bind_some,
      if_neg hwhole, Char.ofNat_toNat]
    cases unescape cs <;> rfl
  · rw [heq, List.singleton_append, unescape.eq_4 _ _ (by simp [hescape]) (by simp [hescape])]
    cases unescape cs <;> rfl

theorem unescape_quote (cs : List Char) : unescape (cs.flatMap escape) = some cs := by
  induction cs with
  | nil => rfl
  | cons c cs ih => rw [List.flatMap_cons, unescape_escape, ih]; rfl

theorem stringRest_quote (s : String) (rest : List Char) :
    stringRest (s.toList.flatMap escape ++ '"' :: rest) = some (s, rest) := by
  simp [stringRest, stringBody_quote, unescape_quote]

theorem printable_quote (s : String) : ∀ c ∈ quote s, 0x20 ≤ c.toNat := by
  have hescape (c : Char) : ∀ d ∈ escape c, 0x20 ≤ d.toNat := by
    rcases escape_cases c with ⟨d, heq, -, hd⟩ | ⟨hcontrol, heq⟩ | ⟨-, -, hcontrol, heq⟩
    · simpa [heq] using hd
    · have hhex := fun d hd => (plain_control hcontrol d hd).2.2
      simpa [heq] using hhex
    · simpa [heq] using hcontrol
  simp only [quote, List.cons_append, List.mem_cons, List.mem_append, List.mem_flatMap, List.not_mem_nil,
    or_false]
  rintro c (rfl | ⟨d, -, hc⟩ | rfl)
  · decide
  · exact hescape d c hc
  · decide

mutual

/-- Every double in it reads back. -/
def Exact : Json → Prop
  | .number n => n.Exact
  | .array items => ExactItems items
  | .object entries => ExactEntries entries
  | _ => True

def ExactItems : List Json → Prop
  | [] => True
  | v :: rest => Exact v ∧ ExactItems rest

def ExactEntries : List (String × Json) → Prop
  | [] => True
  | (_, v) :: rest => Exact v ∧ ExactEntries rest

end

/-- What a value begins with is neither white space nor the end of an array. -/
theorem head_write {v : Json} (h : v.Exact) :
    ∃ c cs, v.write = c :: cs ∧ isBlank c = false ∧ c ≠ ']' := by
  cases v with
  | null => exact ⟨'n', _, rfl, rfl, by decide⟩
  | bool b => cases b <;> exact ⟨_, _, rfl, rfl, by decide⟩
  | number n =>
    obtain ⟨c, hhead, hc⟩ := head_of_readNumber (readNumber_write h)
    obtain ⟨cs, hcs⟩ := List.head?_eq_some_iff.1 hhead
    refine ⟨c, cs, hcs, ?_, ?_⟩
    · refine Bool.eq_false_iff.2 fun hblank => ?_
      simp only [isBlank, Bool.or_eq_true, decide_eq_true_eq] at hblank
      rcases hblank with ((rfl | rfl) | rfl) | rfl <;> revert hc <;> decide
    · rintro rfl
      revert hc
      decide
  | string s => exact ⟨'"', _, rfl, rfl, by decide⟩
  | array items => cases items <;> exact ⟨'[', _, rfl, rfl, by decide⟩
  | object entries => rcases entries with _ | ⟨⟨k, v⟩, entries⟩ <;> exact ⟨'{', _, rfl, rfl, by decide⟩

theorem skipBlanks_write {v : Json} (h : v.Exact) (rest : List Char) :
    skipBlanks (v.write ++ rest) = v.write ++ rest := by
  obtain ⟨c, cs, hwrite, hblank, -⟩ := head_write h
  rw [hwrite]
  exact List.dropWhile_cons_of_neg (by simp [hblank])

variable {value : Reader Json} {fuel : Nat}

theorem readItems_write (hkeeps : ∀ rest, Apart rest → Keeps rest value) {v : Json} {vs : List Json}
    (hvalue : ∀ w ∈ v :: vs, w.Exact ∧ value w.write = some (w, [])) (hfuel : vs.length < fuel) :
    readItems value fuel (v.write ++ writeItems vs) = some (v :: vs, []) := by
  induction vs generalizing v fuel with
  | nil =>
    obtain ⟨fuel, rfl⟩ := Nat.exists_eq_add_of_lt hfuel
    have hv := hkeeps [']'] (apart_cons rfl) _ _ _ (hvalue v List.mem_cons_self).2
    rw [readItems, writeItems, hv]
    rfl
  | cons w vs ih =>
    obtain ⟨fuel, rfl⟩ := Nat.exists_eq_add_of_lt hfuel
    have hv := hkeeps (',' :: w.write ++ writeItems vs) (apart_cons rfl) _ _ _
      (hvalue v List.mem_cons_self).2
    have hmore : skipBlanks (',' :: w.write ++ writeItems vs) = ',' :: (w.write ++ writeItems vs) := rfl
    have hw := skipBlanks_write (hvalue w (by simp)).1 (writeItems vs)
    have hrest : readItems value (vs.length + 1 + fuel) (w.write ++ writeItems vs) = some (w :: vs, []) :=
      ih (fun u hu => hvalue u (List.mem_cons_of_mem _ hu)) (by omega)
    rw [List.length_cons, readItems, writeItems, hv]
    simp only [Option.bind_eq_bind, Option.bind_some, List.nil_append, hmore, hw, hrest]
    rfl

theorem readEntries_write (hkeeps : ∀ rest, Apart rest → Keeps rest value) {k : String} {v : Json}
    {es : List (String × Json)}
    (hvalue : ∀ e ∈ (k, v) :: es, e.2.Exact ∧ value e.2.write = some (e.2, [])) (hfuel : es.length < fuel) :
    readEntries value fuel (quote k ++ ':' :: v.write ++ writeEntries es) = some ((k, v) :: es, []) := by
  have hquote (k : String) (cs : List Char) :
      quote k ++ cs = '"' :: (k.toList.flatMap escape ++ '"' :: cs) := by
    simp [quote]
  have hcolon (v : Json) (more : List Char) : skipBlanks (':' :: v.write ++ more) = ':' :: (v.write ++ more) := rfl
  induction es generalizing k v fuel with
  | nil =>
    obtain ⟨fuel, rfl⟩ := Nat.exists_eq_add_of_lt hfuel
    obtain ⟨hexact, hread⟩ := hvalue (k, v) List.mem_cons_self
    have hv := hkeeps (writeEntries []) (apart_cons rfl) _ _ _ hread
    rw [List.append_assoc, hquote, readEntries, stringRest_quote]
    simp only [Option.bind_eq_bind, Option.bind_some, hcolon, skipBlanks_write hexact, hv]
    rfl
  | cons e es ih =>
    obtain ⟨l, w⟩ := e
    obtain ⟨fuel, rfl⟩ := Nat.exists_eq_add_of_lt hfuel
    obtain ⟨hexact, hread⟩ := hvalue (k, v) List.mem_cons_self
    have hv := hkeeps (writeEntries ((l, w) :: es)) (apart_cons rfl) _ _ _ hread
    have hmore : skipBlanks (writeEntries ((l, w) :: es)) =
        ',' :: (quote l ++ ':' :: w.write ++ writeEntries es) := rfl
    have hl : skipBlanks (quote l ++ ':' :: w.write ++ writeEntries es) =
        quote l ++ ':' :: w.write ++ writeEntries es := rfl
    have hrest : readEntries value (es.length + 1 + fuel) (quote l ++ ':' :: w.write ++ writeEntries es) =
        some ((l, w) :: es, []) :=
      ih (fun e he => hvalue e (List.mem_cons_of_mem _ he)) (by omega)
    rw [List.append_assoc, hquote, List.length_cons, readEntries, stringRest_quote]
    simp only [Option.bind_eq_bind, Option.bind_some, hcolon, skipBlanks_write hexact, hv, List.nil_append,
      hmore, hl, hrest]
    rfl

theorem length_le_writeItems (vs : List Json) : vs.length < (writeItems vs).length := by
  induction vs with
  | nil => simp [writeItems]
  | cons v vs ih =>
    simp only [writeItems, List.cons_append, List.length_cons, List.length_append]
    omega

theorem length_le_writeEntries (es : List (String × Json)) : es.length < (writeEntries es).length := by
  induction es with
  | nil => simp [writeEntries]
  | cons e es ih =>
    simp only [writeEntries, List.cons_append, List.length_cons, List.length_append]
    omega

mutual

theorem readValue_write : (v : Json) → v.Exact → ∀ depth, v.depth ≤ depth →
    readValue depth v.write = some (v, [])
  | .null, _, depth, _ => by simp [write, readValue]
  | .bool true, _, depth, _ => by simp [write, readValue]
  | .bool false, _, depth, _ => by simp [write, readValue]
  | .number n, hexact, depth, _ => by
    have hread := readNumber_write hexact
    obtain ⟨c, hhead, hc⟩ := head_of_readNumber hread
    obtain ⟨cs, hcs⟩ := List.head?_eq_some_iff.1 hhead
    rw [write, hcs, readValue_number hc, ← hcs, hread]
    rfl
  | .string s, _, depth, _ => by
    simp [write, quote, readValue, stringRest_quote s []]
  | .array [], _, depth + 1, _ => readValue_noItems rfl depth
  | .array (v :: vs), hexact, depth + 1, hdepth => by
    have hvalue := readValue_writeItems (v :: vs) hexact depth (Nat.le_of_succ_le_succ hdepth)
    obtain ⟨c, cs, hwrite, hblank, hc⟩ := head_write hexact.1
    have hskip : skipBlanks (v.write ++ writeItems vs) = c :: (cs ++ writeItems vs) := by
      rw [skipBlanks_write hexact.1, hwrite]
      rfl
    have hlength := length_le_writeItems vs
    have hitems := readItems_write (fun rest h => keeps_readValue h depth) hvalue
      (show vs.length < (cs ++ writeItems vs).length + 1 by rw [List.length_append]; omega)
    rw [hwrite, List.cons_append] at hitems
    rw [write, List.cons_append, readValue_items hskip hc, hitems]
    rfl
  | .object [], _, depth + 1, _ => readValue_noEntries rfl depth
  | .object ((k, v) :: es), hexact, depth + 1, hdepth => by
    have hvalue := readValue_writeEntries ((k, v) :: es) hexact depth (Nat.le_of_succ_le_succ hdepth)
    have hlength := length_le_writeEntries es
    have hentries := readEntries_write (fun rest h => keeps_readValue h depth) hvalue
      (show es.length < (k.toList.flatMap escape ++ ['"'] ++ ':' :: v.write ++ writeEntries es).length + 1 by
        simp only [List.length_append]
        omega)
    refine (readValue_entries (c := '"') rfl (by decide) depth).trans ?_
    exact congrArg _ hentries

theorem readValue_writeItems : (vs : List Json) → ExactItems vs → ∀ depth, depthItems vs ≤ depth →
    ∀ v ∈ vs, v.Exact ∧ readValue depth v.write = some (v, [])
  | [], _, _, _ => nofun
  | v :: vs, hexact, depth, hdepth => by
    rintro w (_ | ⟨_, hw⟩)
    · exact ⟨hexact.1, readValue_write v hexact.1 depth (Nat.le_trans (Nat.le_max_left ..) hdepth)⟩
    · exact readValue_writeItems vs hexact.2 depth (Nat.le_trans (Nat.le_max_right ..) hdepth) w hw

theorem readValue_writeEntries : (es : List (String × Json)) → ExactEntries es → ∀ depth,
    depthEntries es ≤ depth → ∀ e ∈ es, e.2.Exact ∧ readValue depth e.2.write = some (e.2, [])
  | [], _, _, _ => nofun
  | (k, v) :: es, hexact, depth, hdepth => by
    rintro e (_ | ⟨_, he⟩)
    · exact ⟨hexact.1, readValue_write v hexact.1 depth (Nat.le_trans (Nat.le_max_left ..) hdepth)⟩
    · exact readValue_writeEntries es hexact.2 depth (Nat.le_trans (Nat.le_max_right ..) hdepth) e he

end

/-- A value is written as one text that reads back, all of it. -/
theorem parseEntries?_write {v : Json} (hexact : v.Exact) (hdepth : v.depth ≤ maxDepth) :
    parseEntries? v.write = some v := by
  have hskip := skipBlanks_write hexact []
  rw [List.append_nil] at hskip
  rw [parseEntries?, hskip, readValue_write v hexact maxDepth hdepth]
  rfl

theorem parseEntries?_blank {cs blanks : List Char} {v : Json} (h : parseEntries? cs = some v)
    (hblank : ∀ c ∈ blanks, isBlank c = true) (hapart : Apart blanks) :
    parseEntries? (cs ++ blanks) = some v := by
  obtain ⟨⟨_, left⟩, hread, h⟩ := Option.bind_eq_some_iff.1 h
  obtain ⟨_, hguard, h⟩ := Option.bind_eq_some_iff.1 h
  cases h
  have hsome : skipBlanks cs ≠ [] := by
    intro hempty
    rw [hempty, readValue_nil] at hread
    cases hread
  have hend : left.dropWhile isBlank = [] := of_guard hguard
  have hend' : skipBlanks (left ++ blanks) = [] := by
    rw [skipBlanks, List.dropWhile_append, hend]
    exact List.dropWhile_eq_nil_iff.2 hblank
  rw [parseEntries?, skipBlanks_append hsome, keeps_readValue hapart maxDepth _ _ _ hread]
  change (guard (skipBlanks (left ++ blanks) = []) >>= fun _ => some v) = some v
  rw [guard, if_pos hend']
  rfl

mutual

theorem canonical_of_sorted : (v : Json) → v.Sorted → v.canonical = v
  | .null, _ | .bool _, _ | .number _, _ | .string _, _ => by simp [canonical]
  | .array items, h => by rw [canonical, canonicalItems_of_sorted items h]
  | .object entries, h => by
    rw [canonical, canonicalEntries_of_sorted entries h.2, Keyed.sort_of_increasing h.1]

theorem canonicalItems_of_sorted : (items : List Json) → SortedItems items → canonicalItems items = items
  | [], _ => rfl
  | v :: rest, h => by
    rw [canonicalItems, canonical_of_sorted v h.1, canonicalItems_of_sorted rest h.2]

theorem canonicalEntries_of_sorted : (entries : List (String × Json)) → SortedEntries entries →
    canonicalEntries entries = entries
  | [], _ => rfl
  | (k, v) :: rest, h => by
    rw [canonicalEntries, canonical_of_sorted v h.1, canonicalEntries_of_sorted rest h.2]

end

theorem printable_number (n : Number) : ∀ c ∈ n.write, 0x20 ≤ c.toNat := by
  intro c hc
  have hnumeral := isNumeral_of_mem_write hc
  simp only [isNumeral, Bool.or_eq_true, decide_eq_true_eq] at hnumeral
  rcases hnumeral with ((((hdigit | rfl) | rfl) | rfl) | rfl) | rfl
  · simp only [Char.isDigit, Bool.and_eq_true, decide_eq_true_eq] at hdigit
    exact Nat.le_trans (by decide) hdigit.1
  all_goals decide

mutual

/-- The text of a value holds no control characters, so it is one line. -/
theorem printable_write : (v : Json) → ∀ c ∈ v.write, 0x20 ≤ c.toNat
  | .null | .bool true | .bool false | .array [] | .object [] => by simp [write]
  | .number n => printable_number n
  | .string s => printable_quote s
  | .array (v :: rest) => by
    simpa [write, or_imp, forall_and] using ⟨printable_write v, printable_writeItems rest⟩
  | .object ((k, v) :: rest) => by
    simpa [write, or_imp, forall_and] using
      ⟨printable_quote k, printable_write v, printable_writeEntries rest⟩

theorem printable_writeItems : (items : List Json) → ∀ c ∈ writeItems items, 0x20 ≤ c.toNat
  | [] => by simp [writeItems]
  | v :: rest => by
    simpa [writeItems, or_imp, forall_and] using ⟨printable_write v, printable_writeItems rest⟩

theorem printable_writeEntries : (entries : List (String × Json)) →
    ∀ c ∈ writeEntries entries, 0x20 ≤ c.toNat
  | [] => by simp [writeEntries]
  | (k, v) :: rest => by
    simpa [writeEntries, or_imp, forall_and] using
      ⟨printable_quote k, printable_write v, printable_writeEntries rest⟩

end

end Json

end AppFleet
