import AppFleet.Toml.Text
import AppFleet.Toml.Writer
import Mathlib.Data.List.Infix
import Mathlib.Tactic.Common

/-! Strings read back in every form that suits them, whatever they hold, and the form that is chosen for
a string suits it. Between triple marks the last marks may belong to the string. -/

namespace AppFleet.Toml

variable {c mark : Char} {cs rest : List Char} {fuel quotes : Nat}

def runStep (mark : Char) : Nat × Nat → Char → Nat × Nat :=
  fun (best, now) c => if c = mark then (max best (now + 1), now + 1) else (best, 0)

theorem longestRun_eq (mark : Char) (cs : List Char) :
    longestRun mark cs = (cs.foldl (runStep mark) (0, 0)).1 := rfl

theorem runStep_bounds (mark : Char) {state : Nat × Nat} (h : state.2 ≤ state.1) (c : Char) :
    (runStep mark state c).2 ≤ (runStep mark state c).1 ∧ state.1 ≤ (runStep mark state c).1 := by
  by_cases hc : c = mark
  · simp only [runStep, if_pos hc]
    omega
  · simp [runStep, hc]

theorem foldl_runStep_bounds {state : Nat × Nat} (h : state.2 ≤ state.1) (cs : List Char) :
    (cs.foldl (runStep mark) state).2 ≤ (cs.foldl (runStep mark) state).1 ∧
      state.1 ≤ (cs.foldl (runStep mark) state).1 := by
  induction cs generalizing state with
  | nil => exact ⟨h, Nat.le_refl _⟩
  | cons c cs ih =>
    obtain ⟨hnow, hbest⟩ := runStep_bounds mark h c
    obtain ⟨hnow', hbest'⟩ := ih hnow
    exact ⟨hnow', hbest.trans hbest'⟩

theorem le_foldl_replicate {state : Nat × Nat} (h : state.2 ≤ state.1) (n : Nat) :
    state.2 + n ≤ ((List.replicate n mark).foldl (runStep mark) state).1 := by
  induction n generalizing state with
  | zero => exact h
  | succ n ih =>
    have hmore := ih (runStep_bounds mark h mark).1
    have hnow : (runStep mark state mark).2 = state.2 + 1 := by simp [runStep]
    rw [List.replicate_succ, List.foldl_cons]
    omega

theorem le_longestRun {n : Nat} (h : List.replicate n mark <:+: cs) : n ≤ longestRun mark cs := by
  obtain ⟨before, after, rfl⟩ := h
  let state := before.foldl (runStep mark) (0, 0)
  let passed := (List.replicate n mark).foldl (runStep mark) state
  have hbefore : state.2 ≤ state.1 := (foldl_runStep_bounds (Nat.le_refl 0) before).1
  have hpassed : passed.2 ≤ passed.1 := (foldl_runStep_bounds hbefore _).1
  rw [longestRun_eq, List.foldl_append, List.foldl_append]
  calc n ≤ state.2 + n := Nat.le_add_left ..
    _ ≤ passed.1 := le_foldl_replicate hbefore n
    _ ≤ _ := (foldl_runStep_bounds hpassed after).2

theorem not_mem_of_longestRun (h : longestRun mark cs = 0) : mark ∉ cs := by
  intro hmem
  have hone : List.replicate 1 mark <:+: cs := (List.singleton_infix_iff ..).2 hmem
  have := le_longestRun hone
  omega

theorem ne_of_class {p : Char → Bool} (h : p c = true) {d : Char} (hd : p d = false) : c ≠ d := by
  rintro rfl
  rw [h] at hd
  cases hd

theorem ne_of_isPlain (h : isPlain c = true) : c ≠ '\n' ∧ c ≠ '\r' := ⟨ne_of_class h rfl, ne_of_class h rfl⟩

/-- What follows a backslash is an escape for this character. -/
def Escapes (code : List Char) (c : Char) : Prop :=
  ∀ rest, escape? (code ++ rest) = some (c, rest) ∧ continuation? (code ++ rest) = none

theorem codePoint?_upper : ∀ n < 0x80,
    codePoint? ((Hex.ofNat 4 n).map Char.toUpper) = some (Char.ofNat n) := by decide

theorem escapes_code (h : c.toNat < 0x80) :
    Escapes ('u' :: (Hex.ofNat 4 c.toNat).map Char.toUpper) c := by
  have hcode := codePoint?_upper _ h
  rw [Char.ofNat_toNat] at hcode
  obtain ⟨p, q, r, s, hdigits⟩ : ∃ p q r s, (Hex.ofNat 4 c.toNat).map Char.toUpper = [p, q, r, s] :=
    ⟨_, _, _, _, rfl⟩
  rw [hdigits] at hcode ⊢
  exact fun rest => ⟨by simp [escape?, hcode], rfl⟩

theorem escapeControl_escapes (h : isControl c = true) :
    ∃ code, escapeControl c = '\\' :: code ∧ Escapes code c := by
  unfold escapeControl
  split
  · subst_vars
    exact ⟨['b'], rfl, fun _ => ⟨rfl, rfl⟩⟩
  split
  · subst_vars
    exact ⟨['t'], rfl, fun _ => ⟨rfl, rfl⟩⟩
  split
  · subst_vars
    exact ⟨['n'], rfl, fun _ => ⟨rfl, rfl⟩⟩
  split
  · subst_vars
    exact ⟨['f'], rfl, fun _ => ⟨rfl, rfl⟩⟩
  split
  · subst_vars
    exact ⟨['r'], rfl, fun _ => ⟨rfl, rfl⟩⟩
  · have hsmall : c.toNat < 0x80 := by
      simp only [isControl, Bool.or_eq_true, decide_eq_true_eq] at h
      rcases h with h | rfl
      · omega
      · decide
    exact ⟨_, rfl, escapes_code hsmall⟩

/-- How the next character of a string is written between double quotes. -/
inductive Written (allowed : Nat) (lines : Bool) (quotes : Nat) (c : Char) : Nat → List Char → Prop where
  | mark : c = '"' → quotes < allowed → Written allowed lines quotes c (quotes + 1) [c]
  | feed : c = '\n' → lines = true → Written allowed lines quotes c 0 [c]
  | escape {code : List Char} : Escapes code c → Written allowed lines quotes c 0 ('\\' :: code)
  | plain : isPlain c = true → c ≠ '"' → c ≠ '\\' → Written allowed lines quotes c 0 [c]

theorem Written.length_pos {allowed next : Nat} {lines : Bool} {own : List Char}
    (h : Written allowed lines quotes c next own) : 0 < own.length := by
  cases h <;> exact Nat.succ_pos _

theorem escapeBasic_cons (allowed : Nat) (lines : Bool) (quotes : Nat) (c : Char) (cs : List Char) :
    ∃ next own, Written allowed lines quotes c next own ∧
      escapeBasic allowed lines quotes (c :: cs) = own ++ escapeBasic allowed lines next cs := by
  rw [escapeBasic]
  split
  · subst_vars
    split
    · rename_i hallowed
      exact ⟨_, _, .mark rfl hallowed, rfl⟩
    · have hcode : Escapes ['"'] '"' := fun _ => ⟨rfl, rfl⟩
      exact ⟨_, _, .escape hcode, rfl⟩
  rename_i hquote
  split
  · subst_vars
    have hcode : Escapes ['\\'] '\\' := fun _ => ⟨rfl, rfl⟩
    exact ⟨_, _, .escape hcode, rfl⟩
  rename_i hescape
  split
  · rename_i hfeed
    exact ⟨_, _, .feed hfeed.1 hfeed.2, rfl⟩
  split
  · rename_i hcontrol
    obtain ⟨code, heq, hcode⟩ := escapeControl_escapes hcontrol
    exact ⟨_, _, .escape hcode, by rw [heq]⟩
  · rename_i hcontrol
    have hplain : isPlain c = true := by
      simp only [isControl, isPlain] at hcontrol ⊢
      grind
    exact ⟨_, _, .plain hplain hquote hescape, rfl⟩

/-- A quote stands for itself only where it is allowed, and then the next may not be. -/
theorem escapeBasic_eq_quote {allowed : Nat} {lines : Bool} {tail : List Char}
    (h : escapeBasic allowed lines quotes cs = '"' :: tail) : quotes < allowed ∧
      ∃ more, cs = '"' :: more ∧ tail = escapeBasic allowed lines (quotes + 1) more := by
  cases cs with
  | nil => cases h
  | cons c cs =>
    obtain ⟨next, own, hown, heq⟩ := escapeBasic_cons allowed lines quotes c cs
    rw [heq] at h
    cases hown with
    | mark hc hallowed =>
      subst hc
      exact ⟨hallowed, cs, rfl, (List.cons.inj h).2.symm⟩
    | feed hc =>
      subst hc
      cases h
    | escape => cases h
    | plain _ hquote => exact absurd (List.cons.inj h).1 hquote

theorem eq_nil_of_escapeBasic {allowed : Nat} {lines : Bool}
    (h : escapeBasic allowed lines quotes cs = []) : cs = [] := by
  cases cs with
  | nil => rfl
  | cons c cs =>
    obtain ⟨next, own, hown, heq⟩ := escapeBasic_cons allowed lines quotes c cs
    rw [heq] at h
    cases hown <;> cases h

theorem basic_cons_plain (h : isPlain c = true) (hquote : c ≠ '"') (hescape : c ≠ '\\') :
    basic (fuel + 1) (c :: cs) = (basic fuel cs).map fun (text, rest) => (c :: text, rest) := by
  simp [basic, h]

theorem basic_cons_escape {code : List Char} (h : Escapes code c) :
    basic (fuel + 1) ('\\' :: (code ++ cs)) =
      (basic fuel cs).map fun (text, rest) => (c :: text, rest) := by
  simp only [basic, (h cs).1, Option.bind_eq_bind, Option.bind_some]
  cases basic fuel cs <;> rfl

/-- On one line every quote is escaped, so the first that is not closes the string. -/
theorem basic_escape (h : (escapeBasic 0 false quotes cs).length < fuel) (rest : List Char) :
    basic fuel (escapeBasic 0 false quotes cs ++ '"' :: rest) = some (cs, rest) := by
  induction cs generalizing fuel quotes with
  | nil =>
    obtain ⟨fuel, rfl⟩ := Nat.exists_eq_add_one.2 h
    rfl
  | cons c cs ih =>
    obtain ⟨next, own, hown, heq⟩ := escapeBasic_cons 0 false quotes c cs
    rw [heq] at h ⊢
    obtain ⟨fuel, rfl⟩ := Nat.exists_eq_add_one.2 (Nat.zero_lt_of_lt h)
    have hfuel : (escapeBasic 0 false next cs).length < fuel := by
      have := hown.length_pos
      rw [List.length_append] at h
      omega
    cases hown with
    | mark _ hallowed => cases hallowed
    | feed _ hlines => cases hlines
    | escape hcode =>
      rw [List.cons_append, List.cons_append, List.append_assoc, basic_cons_escape hcode, ih hfuel]
      rfl
    | plain hplain hquote hescape =>
      rw [List.singleton_append, List.cons_append, basic_cons_plain hplain hquote hescape, ih hfuel]
      rfl

/-- Two marks in front of closing ones are closing ones, or do not stand alone. -/
theorem startsWith_pair_cases (h : [mark, mark] <+: cs ++ mark :: mark :: mark :: rest) :
    cs = [] ∨ cs = [mark] ∨ [mark, mark] <+: cs := by
  rcases cs with _ | ⟨c, _ | ⟨d, cs⟩⟩
  · exact .inl rfl
  · grind
  · grind

theorem basicLines_close (h : rest.head? ≠ some '"') {n : Nat} (hn : n ≤ 2) :
    basicLines (fuel + 1) (List.replicate n '"' ++ '"' :: '"' :: '"' :: rest) =
      some (List.replicate n '"', rest) := by
  match n, hn with
  | 0, _ | 1, _ => cases rest <;> simp_all [basicLines]
  | 2, _ => rfl

theorem basicLines_cons_quote (h : ¬ ['"', '"'] <+: cs) :
    basicLines (fuel + 1) ('"' :: cs) =
      (basicLines fuel cs).map fun (text, rest) => ('"' :: text, rest) := by
  have hplain : isPlain '"' = true := rfl
  rcases cs with _ | ⟨d, _ | ⟨e, cs⟩⟩
  · rfl
  · by_cases hd : d = '"' <;> simp [basicLines, hplain]
  · by_cases hd : d = '"'
    · have he : e ≠ '"' := by grind
      simp [basicLines, hplain, hd, he]
    · simp [basicLines, hplain, hd]

theorem basicLines_cons_plain (h : isPlain c = true) (hquote : c ≠ '"') (hescape : c ≠ '\\') :
    basicLines (fuel + 1) (c :: cs) =
      (basicLines fuel cs).map fun (text, rest) => (c :: text, rest) := by
  obtain ⟨hfeed, hreturn⟩ := ne_of_isPlain h
  simp [basicLines, h, hquote, hreturn]

theorem basicLines_cons_escape {code : List Char} (h : Escapes code c) :
    basicLines (fuel + 1) ('\\' :: (code ++ cs)) =
      (basicLines fuel cs).map fun (text, rest) => (c :: text, rest) := by
  simp only [basicLines, (h cs).1, (h cs).2, Option.bind_eq_bind, Option.bind_some]
  cases basicLines fuel cs <;> rfl

/-- Up to two quotes stand for themselves, also in front of the closing ones. -/
theorem basicLines_escape (h : (escapeBasic 2 true quotes cs).length < fuel) (hrest : rest.head? ≠ some '"') :
    basicLines fuel (escapeBasic 2 true quotes cs ++ '"' :: '"' :: '"' :: rest) = some (cs, rest) := by
  -- how a quote is written hangs on the ones before it, so their number varies too
  induction cs generalizing fuel quotes with
  | nil =>
    obtain ⟨fuel, rfl⟩ := Nat.exists_eq_add_one.2 h
    exact basicLines_close hrest (Nat.zero_le 2)
  | cons c cs ih =>
    obtain ⟨next, own, hown, heq⟩ := escapeBasic_cons 2 true quotes c cs
    rw [heq] at h ⊢
    obtain ⟨fuel, rfl⟩ := Nat.exists_eq_add_one.2 (Nat.zero_lt_of_lt h)
    have hfuel : (escapeBasic 2 true next cs).length < fuel := by
      have := hown.length_pos
      rw [List.length_append] at h
      omega
    cases hown with
    | mark hc hallowed =>
      subst hc
      by_cases hpair : ['"', '"'] <+: escapeBasic 2 true (quotes + 1) cs ++ '"' :: '"' :: '"' :: rest
      · -- the marks at the end of the string run into the closing ones
        rcases startsWith_pair_cases hpair with hnone | hone | ⟨tail, hmore⟩
        · obtain rfl := eq_nil_of_escapeBasic hnone
          exact basicLines_close (n := 1) hrest (by decide)
        · obtain ⟨-, more, rfl, hnone⟩ := escapeBasic_eq_quote hone
          obtain rfl := eq_nil_of_escapeBasic hnone.symm
          rw [hone]
          exact basicLines_close (n := 2) hrest (by decide)
        · obtain ⟨-, more, -, hmore⟩ := escapeBasic_eq_quote hmore.symm
          obtain ⟨hallowed, -⟩ := escapeBasic_eq_quote hmore.symm
          omega
      · rw [List.singleton_append, List.cons_append, basicLines_cons_quote hpair, ih hfuel]
        rfl
    | feed hc =>
      subst hc
      rw [List.singleton_append, List.cons_append, basicLines, ih hfuel]
      rfl
    | escape hcode =>
      rw [List.append_assoc, List.cons_append, basicLines_cons_escape hcode, ih hfuel]
      rfl
    | plain hplain hquote hescape =>
      rw [List.singleton_append, List.cons_append, basicLines_cons_plain hplain hquote hescape,
        ih hfuel]
      rfl

theorem literal_cons_plain (h : isPlain c = true) (hmark : c ≠ '\'') :
    literal (c :: cs) = (literal cs).map fun (text, rest) => (c :: text, rest) := by
  simp [literal, h]

theorem literal_append (h : ∀ c ∈ cs, isPlain c = true ∧ c ≠ '\'') (rest : List Char) :
    literal (cs ++ '\'' :: rest) = some (cs, rest) := by
  induction cs with
  | nil => rfl
  | cons c cs ih =>
    obtain ⟨hplain, hmark⟩ := h c List.mem_cons_self
    rw [List.cons_append, literal_cons_plain hplain hmark, ih fun c hc => h c (List.mem_cons_of_mem _ hc)]
    rfl

theorem literalLines_close (h : rest.head? ≠ some '\'') {n : Nat} (hn : n ≤ 2) :
    literalLines (List.replicate n '\'' ++ '\'' :: '\'' :: '\'' :: rest) =
      some (List.replicate n '\'', rest) := by
  match n, hn with
  | 0, _ | 1, _ => cases rest <;> simp_all [literalLines]
  | 2, _ => rfl

theorem literalLines_cons_mark (h : ¬ ['\'', '\''] <+: cs) :
    literalLines ('\'' :: cs) = (literalLines cs).map fun (text, rest) => ('\'' :: text, rest) := by
  have hplain : isPlain '\'' = true := rfl
  rcases cs with _ | ⟨d, _ | ⟨e, cs⟩⟩
  · rfl
  · by_cases hd : d = '\'' <;> simp [literalLines, hplain]
  · by_cases hd : d = '\''
    · have he : e ≠ '\'' := by grind
      simp [literalLines, hplain, hd, he]
    · simp [literalLines, hplain, hd]

theorem literalLines_cons_plain (h : isPlain c = true) (hmark : c ≠ '\'') :
    literalLines (c :: cs) = (literalLines cs).map fun (text, rest) => (c :: text, rest) := by
  obtain ⟨hfeed, hreturn⟩ := ne_of_isPlain h
  rw [literalLines.eq_6 c cs (by simp [hmark]) (by simp [hmark]) (by simp [hmark]) hfeed
    (by simp [hreturn]), if_pos h]

theorem literalLines_append (h : ∀ c ∈ cs, isPlain c = true ∨ c = '\n')
    (hrun : ¬ List.replicate 3 '\'' <:+: cs) (hrest : rest.head? ≠ some '\'') :
    literalLines (cs ++ '\'' :: '\'' :: '\'' :: rest) = some (cs, rest) := by
  induction cs with
  | nil => exact literalLines_close hrest (Nat.zero_le 2)
  | cons c cs ih =>
    have hread := ih (fun c hc => h c (List.mem_cons_of_mem _ hc))
      fun hin => hrun (hin.trans (List.suffix_cons c cs).isInfix)
    rw [List.cons_append]
    rcases h c List.mem_cons_self with hplain | rfl
    · by_cases hmark : c = '\''
      · subst hmark
        by_cases hpair : ['\'', '\''] <+: cs ++ '\'' :: '\'' :: '\'' :: rest
        · rcases startsWith_pair_cases hpair with rfl | rfl | hmore
          · exact literalLines_close (n := 1) hrest (by decide)
          · exact literalLines_close (n := 2) hrest (by decide)
          · exact absurd (List.cons_prefix_cons.2 ⟨rfl, hmore⟩).isInfix hrun
        · rw [literalLines_cons_mark hpair, hread]
          rfl
      · rw [literalLines_cons_plain hplain hmark, hread]
        rfl
    · rw [literalLines, hread]
      rfl

theorem not_startsWith_pair (h : cs.head? ≠ some mark) (hrest : rest.head? ≠ some mark) :
    ¬ [mark, mark] <+: cs ++ mark :: rest := by
  cases cs with
  | nil =>
    intro hpair
    obtain ⟨tail, hpair⟩ := (List.cons_prefix_cons.1 hpair).2
    exact hrest (by rw [← hpair]; rfl)
  | cons c cs => exact fun hpair => h (by rw [(List.cons_prefix_cons.1 hpair).1]; rfl)

theorem string_basic (h : ¬ ['"', '"'] <+: cs) :
    string ('"' :: cs) = (basic (cs.length + 1) cs).map fun (text, rest) => (String.ofList text, rest) := by
  unfold string
  split
  · rename_i heq
    exact absurd (by simp [(List.cons.inj heq).2]) h
  · rename_i heq
    cases heq
    rfl
  · rename_i heq
    cases heq
  · rename_i heq
    cases heq
  · rename_i hnot _ _
    exact absurd rfl (hnot cs)

theorem string_literal (h : ¬ ['\'', '\''] <+: cs) :
    string ('\'' :: cs) = (literal cs).map fun (text, rest) => (String.ofList text, rest) := by
  unfold string
  split
  · rename_i heq
    cases heq
  · rename_i heq
    cases heq
  · rename_i heq
    exact absurd (by simp [(List.cons.inj heq).2]) h
  · rename_i heq
    cases heq
    rfl
  · rename_i hnot
    exact absurd rfl (hnot cs)

theorem string_basicLines (cs : List Char) : string ('"' :: '"' :: '"' :: cs) =
    (basicLines (cs.length + 3) (dropNewline cs)).map fun (text, rest) => (String.ofList text, rest) := rfl

theorem string_literalLines (cs : List Char) : string ('\'' :: '\'' :: '\'' :: cs) =
    (literalLines (dropNewline cs)).map fun (text, rest) => (String.ofList text, rest) := rfl

theorem dropNewline_of_plain (h : isPlain c = true) (cs : List Char) : dropNewline (c :: cs) = c :: cs := by
  obtain ⟨hfeed, hreturn⟩ := ne_of_isPlain h
  simp [dropNewline, newline?, hfeed, hreturn]

theorem dropNewline_append {own : Bool} (hmark : isPlain mark = true)
    (h : own = false → ∀ c ∈ cs.head?, isPlain c = true) :
    dropNewline ((if own then ['\n'] else []) ++ (cs ++ mark :: rest)) = cs ++ mark :: rest := by
  cases own with
  | true => rfl
  | false =>
    cases cs with
    | nil => exact dropNewline_of_plain hmark rest
    | cons c cs => exact dropNewline_of_plain (h rfl c rfl) _

namespace Form

def Suits (cs : List Char) : Form → Prop
  | .basic | .basicLines => True
  | .literal => ∀ c ∈ cs, isPlain c = true ∧ c ≠ '\''
  | .literalLines => (∀ c ∈ cs, isPlain c = true ∨ c = '\n') ∧ ¬ List.replicate 3 '\'' <:+: cs

theorem choose_suits (cs : List Char) : (choose cs).Suits cs := by
  have hplain (h : (!cs.any needsCode) = true) : ∀ c ∈ cs, isPlain c = true ∨ c = '\n' := by
    intro c hc
    have hcode : needsCode c = false := by simp_all
    simp only [needsCode, isControl, isPlain] at hcode ⊢
    grind
  unfold choose
  dsimp only
  split
  · trivial
  split
  · rename_i hliteral
    simp only [Bool.and_eq_true, decide_eq_true_eq] at hliteral
    obtain ⟨⟨hcodes, hsingle⟩, hlines⟩ := hliteral
    intro c hc
    refine ⟨(hplain hcodes c hc).resolve_right ?_, ?_⟩
    · rintro rfl
      simp_all
    · rintro rfl
      exact not_mem_of_longestRun hsingle hc
  split
  · trivial
  split
  · rename_i hliteral
    simp only [Bool.and_eq_true, decide_eq_true_eq] at hliteral
    refine ⟨hplain hliteral.1, fun hrun => ?_⟩
    have := le_longestRun hrun
    omega
  split <;> trivial

end Form

theorem head_escapeBasic {allowed : Nat} {lines : Bool} (h : '\n' ∉ cs) :
    ∀ d ∈ (escapeBasic allowed lines quotes cs).head?, isPlain d = true := by
  cases cs with
  | nil => simp [escapeBasic]
  | cons c cs =>
    obtain ⟨next, own, hown, heq⟩ := escapeBasic_cons allowed lines quotes c cs
    rw [heq]
    rintro d hd
    cases hown with
    | mark hc =>
      cases hd
      subst hc
      rfl
    | feed hc => exact absurd (hc ▸ List.mem_cons_self) h
    | escape =>
      cases hd
      rfl
    | plain hplain =>
      cases hd
      exact hplain

open Form in
/-- A string reads back in any form that can hold it. -/
theorem string_form {form : Form} (h : form.Suits cs) (hquote : rest.head? ≠ some '"')
    (hmark : rest.head? ≠ some '\'') :
    string (form.delimiter ++ (if form.hasLines && cs.contains '\n' then ['\n'] else []) ++ form.body cs ++
      form.delimiter ++ rest) = some (String.ofList cs, rest) := by
  cases form with
  | basic =>
    have hhead : (escapeBasic 0 false 0 cs).head? ≠ some '"' := by
      intro hhead
      obtain ⟨tail, htail⟩ := List.head?_eq_some_iff.1 hhead
      cases (escapeBasic_eq_quote htail).1
    have htext : delimiter .basic ++ (if hasLines .basic && cs.contains '\n' then ['\n'] else []) ++
        body .basic cs ++ delimiter .basic ++ rest = '"' :: (escapeBasic 0 false 0 cs ++ '"' :: rest) := by
      simp [delimiter, hasLines, body]
    rw [htext, string_basic (not_startsWith_pair hhead hquote),
      basic_escape (by rw [List.length_append]; omega)]
    rfl
  | literal =>
    have hhead : cs.head? ≠ some '\'' := by
      intro hhead
      exact (h _ (List.mem_of_head? hhead)).2 rfl
    have htext : delimiter .literal ++ (if hasLines .literal && cs.contains '\n' then ['\n'] else []) ++
        body .literal cs ++ delimiter .literal ++ rest = '\'' :: (cs ++ '\'' :: rest) := by
      simp [delimiter, hasLines, body]
    rw [htext, string_literal (not_startsWith_pair hhead hmark), literal_append h]
    rfl
  | basicLines =>
    let own := cs.contains '\n'
    let text := (if own then ['\n'] else []) ++ (escapeBasic 2 true 0 cs ++ '"' :: '"' :: '"' :: rest)
    have htext : delimiter .basicLines ++ (if hasLines .basicLines && own then ['\n'] else []) ++
        body .basicLines cs ++ delimiter .basicLines ++ rest = '"' :: '"' :: '"' :: text := by
      simp [text, delimiter, hasLines, body]
    have hdrop : dropNewline text = escapeBasic 2 true 0 cs ++ '"' :: '"' :: '"' :: rest :=
      dropNewline_append rfl fun hown => head_escapeBasic (by simpa [own] using hown)
    rw [htext, string_basicLines, hdrop, basicLines_escape (by simp [text]; omega) hquote]
    rfl
  | literalLines =>
    let own := cs.contains '\n'
    let text := (if own then ['\n'] else []) ++ (cs ++ '\'' :: '\'' :: '\'' :: rest)
    have htext : delimiter .literalLines ++ (if hasLines .literalLines && own then ['\n'] else []) ++
        body .literalLines cs ++ delimiter .literalLines ++ rest = '\'' :: '\'' :: '\'' :: text := by
      simp [text, delimiter, hasLines, body]
    have hdrop : dropNewline text = cs ++ '\'' :: '\'' :: '\'' :: rest := by
      refine dropNewline_append rfl fun hown c hc => ?_
      have hmem := List.mem_of_head? hc
      refine (h.1 c hmem).resolve_right ?_
      rintro rfl
      simp [own, hmem] at hown
    rw [htext, string_literalLines, hdrop, literalLines_append h.1 h.2 hmark]
    rfl

theorem string_quote (s : String) (hquote : rest.head? ≠ some '"') (hmark : rest.head? ≠ some '\'') :
    string (quote s ++ rest) = some (s, rest) := by
  have hread := string_form (Form.choose_suits s.toList) hquote hmark
  rwa [String.ofList_toList] at hread

example : quote "it's \"so\"" = "\"\"\"it's \"so\"\"\"\"".toList := by decide +kernel

end AppFleet.Toml
