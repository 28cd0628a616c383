import AppFleet.Proofs.Toml.Values

/-! The lines of a document. A line with a bare key sets it in the table whose header is open, and a header
with a bare key opens a new table. -/

namespace AppFleet.Toml

variable {name : String} {text rest : List Char} {v : Value} {c : Char} {d d' d'' : Document} {fuel : Nat}

def Bare (name : String) : Prop := name.toList ≠ [] ∧ name.toList.all isBare = true

instance : Decidable (Bare name) := inferInstanceAs (Decidable (_ ∧ _))

theorem Bare.exists_cons (h : Bare name) : ∃ c cs, name.toList = c :: cs ∧ isBare c = true := by
  obtain ⟨hsome, hbare⟩ := h
  obtain ⟨c, cs, heq⟩ := List.exists_cons_of_ne_nil hsome
  exact ⟨c, cs, heq, List.all_eq_true.1 hbare c (heq ▸ List.mem_cons_self)⟩

theorem skipSpaces_cons (h : isSpace c = false) (cs : List Char) : skipSpaces (c :: cs) = c :: cs := by
  simp [skipSpaces, h]

theorem isSpace_of_isBare (h : isBare c = true) : isSpace c = false := by
  have hblank : c ≠ ' ' := ne_of_class h rfl
  have htab : c ≠ '\t' := ne_of_class h rfl
  simp [isSpace, hblank, htab]

theorem skipSpaces_bare (h : Bare name) (rest : List Char) :
    skipSpaces (name.toList ++ rest) = name.toList ++ rest := by
  obtain ⟨c, cs, heq, hc⟩ := h.exists_cons
  rw [heq, List.cons_append, skipSpaces_cons (isSpace_of_isBare hc)]

theorem keyPart_bare (h : Bare name) (hend : isBare c = false) (rest : List Char) :
    keyPart (name.toList ++ c :: rest) = some (name, c :: rest) := by
  have hbare := List.all_eq_true.1 h.2
  have hspan : (name.toList ++ c :: rest).span isBare = (name.toList, c :: rest) := by
    rw [List.span_eq_takeWhile_dropWhile, List.takeWhile_append_of_pos hbare,
      List.dropWhile_append_of_pos hbare, List.takeWhile_cons_of_neg (by simp [hend]),
      List.dropWhile_cons_of_neg (by simp [hend]), List.append_nil]
  obtain ⟨a, as, heq, ha⟩ := h.exists_cons
  have hquote : a ≠ '"' := ne_of_class ha rfl
  have hmark : a ≠ '\'' := ne_of_class ha rfl
  unfold keyPart
  split
  · rename_i htext
    rw [heq] at htext
    exact absurd (List.cons.inj htext).1 hquote
  · rename_i htext
    rw [heq] at htext
    exact absurd (List.cons.inj htext).1 hmark
  · rw [hspan]
    split
    · rename_i hnone
      exact absurd (Prod.mk.inj hnone).1 h.1
    · rename_i hsome
      cases hsome
      rw [String.ofList_toList]

theorem key_bare (h : Bare name) (hend : isBare c = false) {e : Char} {after : List Char}
    (hafter : skipSpaces (c :: rest) = e :: after) (hdot : e ≠ '.') :
    key (name.toList ++ c :: rest) = some ([name], e :: after) := by
  have hparts (fuel : Nat) : keyParts (fuel + 1) (name.toList ++ c :: rest) = some ([name], e :: after) := by
    simp [keyParts, skipSpaces_bare h, keyPart_bare h hend, hafter, hdot]
  exact hparts 78

def line (name : String) (text : List Char) : List Char := name.toList ++ [' ', '=', ' '] ++ text ++ ['\n']

def headerLine (name : String) : List Char := '[' :: name.toList ++ [']', '\n']

theorem keyValue_line (h : Bare name) (hdenotes : Denotes text v) (depth : Nat) (rest : List Char) :
    keyValue (value depth) (line name text ++ rest) = some (([name], v), '\n' :: rest) := by
  have hkey : key (name.toList ++ ' ' :: '=' :: ' ' :: (text ++ '\n' :: rest)) =
      some ([name], '=' :: ' ' :: (text ++ '\n' :: rest)) := key_bare h rfl rfl (by decide)
  have hspaces : skipSpaces (' ' :: (text ++ '\n' :: rest)) = text ++ '\n' :: rest := by
    cases text with
    | nil => rfl
    | cons c text => exact skipSpaces_cons (hdenotes.head c rfl) _
  have hline : line name text ++ rest = name.toList ++ ' ' :: '=' :: ' ' :: (text ++ '\n' :: rest) := by
    simp [line]
  simp [hline, keyValue, hkey, char, hspaces, hdenotes.reads]

theorem lineEnd?_feed (rest : List Char) : lineEnd? ('\n' :: rest) = some rest := rfl

theorem lineEnd?_cons (h : isSpace c = false) (hhash : c ≠ '#') (hfeed : c ≠ '\n') (hreturn : c ≠ '\r')
    (cs : List Char) : lineEnd? (c :: cs) = none := by
  simp [lineEnd?, skipSpaces_cons h, dropComment, hhash, newline?, hfeed, hreturn]

theorem readLines_line (h : Bare name) (hdenotes : Denotes text v) (hdefine : d.define [name] v = some d')
    (fuel : Nat) (rest : List Char) :
    readLines (fuel + 1) d (line name text ++ rest) = readLines fuel d' rest := by
  have hpair := keyValue_line h hdenotes (nestLimit - 1) rest
  obtain ⟨c, cs, heq, hc⟩ := h.exists_cons
  have hspace := isSpace_of_isBare hc
  have hend := lineEnd?_cons hspace (ne_of_class hc rfl) (ne_of_class hc rfl) (ne_of_class hc rfl)
  have hbracket : c ≠ '[' := ne_of_class hc rfl
  have hline : line name text ++ rest = c :: (cs ++ ' ' :: '=' :: ' ' :: (text ++ '\n' :: rest)) := by
    simp [line, heq]
  rw [hline] at hpair ⊢
  simp only [readLines, hend, skipSpaces_cons hspace]
  split
  · rename_i htext
    exact absurd (List.cons.inj htext).1 hbracket
  · rename_i htext
    exact absurd (List.cons.inj htext).1 hbracket
  · simp [hpair, hdefine, lineEnd?_feed]

theorem readLines_header (h : Bare name) (hopen : d.openWith Table.openTable [name] = some d')
    (fuel : Nat) (rest : List Char) :
    readLines (fuel + 1) d (headerLine name ++ rest) = readLines fuel d' rest := by
  have hkey : key (name.toList ++ ']' :: '\n' :: rest) = some ([name], ']' :: '\n' :: rest) :=
    key_bare h rfl rfl (by decide)
  have hline : headerLine name ++ rest = '[' :: (name.toList ++ ']' :: '\n' :: rest) := by simp [headerLine]
  obtain ⟨c, cs, heq, hc⟩ := h.exists_cons
  have hbracket : c ≠ '[' := ne_of_class hc rfl
  rw [hline]
  simp only [readLines, lineEnd?_cons (c := '[') rfl (by decide) (by decide) (by decide),
    skipSpaces_cons (c := '[') rfl]
  split
  · rename_i htext
    rw [heq] at htext
    exact absurd (List.cons.inj (List.cons.inj htext).2).1 hbracket
  · rename_i htext
    cases htext
    simp [hkey, char, hopen, lineEnd?_feed]
  · rename_i hnot
    exact absurd rfl (hnot _)

theorem readLines_blank (h : rest ≠ []) (d : Document) (fuel : Nat) :
    readLines (fuel + 1) d ('\n' :: rest) = readLines fuel d rest := by
  rw [readLines, lineEnd?_feed]
  cases rest with
  | nil => exact absurd rfl h
  | cons c rest => rfl

/-- The lines in front of what is left lead from one document to another. -/
def Document.Leads (d : Document) (cs : List Char) (d' : Document) (rest : List Char) : Prop :=
  ∀ fuel, cs.length < fuel → ∃ fuel', rest.length < fuel' ∧ readLines fuel d cs = readLines fuel' d' rest

namespace Document

theorem Leads.refl (d : Document) (cs : List Char) : d.Leads cs d cs := fun fuel h => ⟨fuel, h, rfl⟩

theorem Leads.trans {cs more : List Char} (h : d.Leads cs d' more) (h' : d'.Leads more d'' rest) :
    d.Leads cs d'' rest := by
  intro fuel hfuel
  obtain ⟨fuel', hfuel', heq⟩ := h fuel hfuel
  obtain ⟨fuel'', hfuel'', heq'⟩ := h' fuel' hfuel'
  exact ⟨fuel'', hfuel'', heq.trans heq'⟩

/-- One line is read in one step. -/
theorem Leads.of_step {own : List Char} (hown : own ≠ [])
    (h : ∀ fuel, readLines (fuel + 1) d (own ++ rest) = readLines fuel d' rest) :
    d.Leads (own ++ rest) d' rest := by
  intro fuel hfuel
  obtain ⟨fuel, rfl⟩ := Nat.exists_eq_add_one.2 (Nat.zero_lt_of_lt hfuel)
  have hlength := List.length_pos_iff.2 hown
  rw [List.length_append] at hfuel
  exact ⟨fuel, by omega, h fuel⟩

theorem Leads.readLines {cs : List Char} (h : d.Leads cs d' []) (hfuel : cs.length < fuel) :
    Toml.readLines fuel d cs = some d' := by
  obtain ⟨fuel', hfuel', heq⟩ := h fuel hfuel
  obtain ⟨fuel', rfl⟩ := Nat.exists_eq_add_one.2 hfuel'
  exact heq

/-- A document whose last table has been opened by a header. -/
def opened (parts : Table) (name : String) (entries : Table) : Document :=
  ⟨parts ++ [(name, .table .header entries)], [name]⟩

variable {parts entries : Table} {key : String}

theorem replace_last (h : parts.lookup key = none) (old new : Value) :
    Table.replace key new (parts ++ [(key, old)]) = parts ++ [(key, new)] := by
  induction parts with
  | nil => simp [Table.replace]
  | cons e parts ih =>
    obtain ⟨k, w⟩ := e
    have hne : k ≠ key := by
      rintro rfl
      simp at h
    rw [List.lookup_cons, beq_eq_false_iff_ne.2 hne.symm] at h
    simp [Table.replace, hne, ih h]

theorem define_opened (hname : parts.lookup name = none) (hkey : entries.lookup key = none) (v : Value) :
    (opened parts name entries).define [key] v = some (opened parts name (entries ++ [(key, v)])) := by
  have hfound : (parts ++ [(name, Value.table .header entries)]).lookup name = some (.table .header entries) := by
    simp [List.lookup_append, hname]
  have hput : Table.define [] key v .header entries = some (entries ++ [(key, v)]) := by
    simp [Table.define, Table.alter, Table.insertNew, hkey]
  simp [define, opened, Table.alter, hfound, hput, replace_last hname]

theorem openWith_opened (h : d.root.lookup name = none) :
    d.openWith Table.openTable [name] = some (opened d.root name []) := by
  simp [openWith, Table.alter, Table.openTable, h, opened]

theorem leads_line (hbare : Bare key) (hdenotes : Denotes text v) (hname : parts.lookup name = none)
    (hkey : entries.lookup key = none) (rest : List Char) :
    (opened parts name entries).Leads (line key text ++ rest) (opened parts name (entries ++ [(key, v)])) rest :=
  .of_step (by simp [line]) fun fuel => readLines_line hbare hdenotes (define_opened hname hkey v) fuel rest

theorem leads_header (hbare : Bare name) (h : d.root.lookup name = none) (rest : List Char) :
    d.Leads (headerLine name ++ rest) (opened d.root name []) rest :=
  .of_step (by simp [headerLine]) fun fuel => readLines_header hbare (openWith_opened h) fuel rest

theorem leads_blank (h : rest ≠ []) (d : Document) : d.Leads (['\n'] ++ rest) d rest :=
  .of_step (by simp) fun fuel => readLines_blank h d fuel

end Document

theorem parse?_of_leads {cs : List Char} (h : Document.empty.Leads cs d []) (hmark : cs.head? ≠ some '\ufeff') :
    parse? (String.ofList cs) = some d.root := by
  have hdrop : dropMark cs = cs := by
    cases cs with
    | nil => rfl
    | cons c cs => simp_all [dropMark]
  simp [parse?, hdrop, h.readLines (Nat.lt_succ_self _)]

end AppFleet.Toml
