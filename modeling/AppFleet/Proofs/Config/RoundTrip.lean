import AppFleet.Config.Text
import AppFleet.Proofs.Json.Record
import AppFleet.Proofs.Text.Encoding
import AppFleet.Proofs.Toml.Lines

/-! A configuration that is written reads back as it was, and it is not written only for a number that is
no integer of TOML or a path that is no text. -/

namespace AppFleet

theorem Path.text?_eq_some_iff {p : Path} {text : String} : p.text? = some text ↔ p = .ofText text := by
  constructor
  · intro h
    obtain ⟨bytes⟩ := p
    rw [ofText, Text.toUTF8_of_ofUtf8? h]
  · rintro rfl
    exact Text.ofUtf8?_toUTF8 text

theorem mapM_eq_none_iff {f : α → Option β} {as : List α} : as.mapM f = none ↔ ∃ a ∈ as, f a = none := by
  induction as with
  | nil => simp
  | cons a as ih =>
    rw [List.mapM_cons]
    cases hhead : f a with
    | none => simp [hhead]
    | some b => cases htail : as.mapM f <;> simp_all

namespace Config

namespace Setting

/-- TOML has integers of 64 bits with a sign, and strings are text. -/
def Writable : Setting → Prop
  | path p => ∃ text, p = .ofText text
  | count n => n.toNat ≤ 0x7fffffffffffffff
  | _ => True

theorem write?_eq_none_iff {s : Setting} : s.write? = none ↔ ¬ s.Writable := by
  cases s with
  | text s => simp [write?, Writable]
  | path p =>
    rw [write?, Option.map_eq_none_iff, Option.eq_none_iff_forall_ne_some, Writable, not_exists]
    exact forall_congr' fun text => not_congr Path.text?_eq_some_iff
  | count n =>
    have hsize : n.toNat < 0x8000000000000000 ↔ n.toNat ≤ 0x7fffffffffffffff := by omega
    simp [write?, Writable, hsize]
  | switch b => cases b <;> simp [write?, Writable]

def value : Setting → Toml.Value
  | text s => .string s
  | path p => .string (p.text?.getD "")
  | count n => .integer (Int64.ofInt n.toNat)
  | switch b => .boolean b

theorem denotes_value {s : Setting} {text : List Char} (h : s.write? = some text) :
    Toml.Denotes text s.value := by
  cases s with
  | text s =>
    cases h
    exact Toml.denotes_quote s
  | path p =>
    obtain ⟨t, ht, rfl⟩ := Option.map_eq_some_iff.1 h
    rw [value, ht]
    exact Toml.denotes_quote t
  | count n =>
    simp only [write?] at h
    split at h
    · rename_i hsize
      cases h
      exact Toml.denotes_toDigits hsize
    · cases h
  | switch b =>
    cases b <;> cases h
    · exact Toml.denotes_false
    · exact Toml.denotes_true

def json : Setting → Json
  | text s => .string s
  | path p => .string (p.text?.getD "")
  | count n => .ofNat n
  | switch b => .bool b

theorem toJson_value {s : Setting} (h : s.Writable) : s.value.toJson = s.json := by
  cases s with
  | count n =>
    have hsize : n.toNat ≤ 0x7fffffffffffffff := h
    have hback : (Int64.ofInt n.toNat).toInt = n.toNat := Int64.toInt_ofInt_of_le (by omega) (by omega)
    have hsign : 0 ≤ (Int64.ofInt n.toNat).toInt := by omega
    rw [value, Toml.Value.toJson, dif_pos hsign, hback, Int.toNat_natCast, UInt64.ofNat_toNat, json]
  | _ => rfl

end Setting

variable {part : String × List (String × Setting)} {parts : List (String × List (String × Setting))}

/-- A part whose keys need no quotes and of which no two are the same. -/
def Regular (name : String) (keys : List String) : Prop :=
  Toml.Bare name ∧ (∀ key ∈ keys, Toml.Bare key) ∧ keys.Nodup

instance {name : String} {keys : List String} : Decidable (Regular name keys) :=
  inferInstanceAs (Decidable (_ ∧ _ ∧ _))

def partTable (part : String × List (String × Setting)) : Toml.Table := part.2.map fun e => (e.1, e.2.value)

open Toml (Document)

theorem leads_settings {before own : Toml.Table} {name : String} (hname : before.lookup name = none)
    {entries : List (String × Setting)} (hbare : ∀ key ∈ entries.map (·.1), Toml.Bare key)
    (hapart : (own.map (·.1) ++ entries.map (·.1)).Nodup) {lines : List (List Char)}
    (h : entries.mapM writeSetting = some lines) (rest : List Char) :
    (Document.opened before name own).Leads (lines.flatten ++ rest)
      (.opened before name (own ++ entries.map fun e => (e.1, e.2.value))) rest := by
  induction entries generalizing own lines with
  | nil =>
    cases h
    simpa using Document.Leads.refl _ rest
  | cons e entries ih =>
    rw [List.mapM_cons] at h
    obtain ⟨line, hline, h⟩ := Option.bind_eq_some_iff.1 h
    obtain ⟨lines, hlines, h⟩ := Option.bind_eq_some_iff.1 h
    cases h
    obtain ⟨text, htext, rfl⟩ := Option.map_eq_some_iff.1 hline
    have hfresh : own.lookup e.1 = none := by
      refine Keyed.lookup_of_notMem fun hmem => ?_
      exact (List.nodup_append.1 hapart).2.2 _ hmem e.1 (by simp) rfl
    have hapart' : ((own ++ [(e.1, e.2.value)]).map (·.1) ++ entries.map (·.1)).Nodup := by
      simpa using hapart
    have hfirst := Document.leads_line (hbare e.1 (by simp)) (Setting.denotes_value htext) hname hfresh
      (lines.flatten ++ rest)
    have hmore := ih (fun key hkey => hbare key (List.mem_cons_of_mem _ hkey)) hapart' hlines
    rw [List.append_assoc] at hmore
    rw [List.flatten_cons, List.append_assoc]
    exact hfirst.trans hmore

theorem leads_part (hpart : Regular part.1 (part.2.map (·.1))) {d : Document}
    (hname : d.root.lookup part.1 = none) {text : List Char} (h : writePart part = some text)
    (rest : List Char) : d.Leads (text ++ rest) (.opened d.root part.1 (partTable part)) rest := by
  obtain ⟨lines, hlines, h⟩ := Option.bind_eq_some_iff.1 h
  cases h
  obtain ⟨hbare, hkeys, hapart⟩ := hpart
  have hapart : (([] : Toml.Table).map (·.1) ++ part.2.map (·.1)).Nodup := hapart
  have hheader := Document.leads_header hbare hname (lines.flatten ++ rest)
  have hsettings : (Document.opened d.root part.1 []).Leads (lines.flatten ++ rest)
      (.opened d.root part.1 (partTable part)) rest := leads_settings hname hkeys hapart hlines rest
  have htext : '[' :: part.1.toList ++ [']', '\n'] ++ lines.flatten ++ rest =
      Toml.headerLine part.1 ++ (lines.flatten ++ rest) := by
    rw [List.append_assoc]
    rfl
  rw [htext]
  exact hheader.trans hsettings

theorem head_of_writeParts {texts : List (List Char)} (h : parts.mapM writePart = some texts)
    (hsome : parts ≠ []) :
    (List.intercalate ['\n'] texts).head? = some '[' := by
  cases parts with
  | nil => exact absurd rfl hsome
  | cons part parts =>
    rw [List.mapM_cons] at h
    obtain ⟨text, htext, h⟩ := Option.bind_eq_some_iff.1 h
    obtain ⟨texts, -, h⟩ := Option.bind_eq_some_iff.1 h
    cases h
    obtain ⟨lines, -, htext⟩ := Option.bind_eq_some_iff.1 htext
    cases htext
    cases texts <;> simp

/-- The parts, with empty lines between them, lead to a document that holds their tables. -/
theorem leads_parts (hregular : ∀ part ∈ parts, Regular part.1 (part.2.map (·.1))) {d : Document}
    (hapart : (d.root.map (·.1) ++ parts.map (·.1)).Nodup) {texts : List (List Char)}
    (h : parts.mapM writePart = some texts) : ∃ d', d.Leads (List.intercalate ['\n'] texts) d' [] ∧
      d'.root = d.root ++ parts.map fun part => (part.1, .table .header (partTable part)) := by
  induction parts generalizing d texts with
  | nil =>
    cases h
    exact ⟨d, Document.Leads.refl _ _, (List.append_nil _).symm⟩
  | cons part parts ih =>
    rw [List.mapM_cons] at h
    obtain ⟨text, htext, h⟩ := Option.bind_eq_some_iff.1 h
    obtain ⟨texts, htexts, h⟩ := Option.bind_eq_some_iff.1 h
    cases h
    have hfresh : d.root.lookup part.1 = none := by
      refine Keyed.lookup_of_notMem fun hmem => ?_
      exact (List.nodup_append.1 hapart).2.2 _ hmem part.1 (by simp) rfl
    let opened := Document.opened d.root part.1 (partTable part)
    have hapart' : (opened.root.map (·.1) ++ parts.map (·.1)).Nodup := by
      simpa [opened, Document.opened] using hapart
    obtain ⟨d', hmore, hroot⟩ := ih (fun part hp => hregular part (List.mem_cons_of_mem _ hp)) hapart' htexts
    have hfirst := leads_part (hregular part List.mem_cons_self) hfresh htext
    refine ⟨d', ?_, ?_⟩
    · cases texts with
      | nil => simpa using (hfirst []).trans hmore
      | cons text' texts =>
        let rest := List.intercalate ['\n'] (text' :: texts)
        have hrest : rest ≠ [] := by
          intro hnil
          have hsome : parts ≠ [] := by
            rintro rfl
            cases htexts
          have hhead : rest.head? = some '[' := head_of_writeParts htexts hsome
          rw [hnil] at hhead
          cases hhead
        rw [List.intercalate_cons_cons, List.append_assoc]
        exact ((hfirst _).trans (Document.leads_blank hrest _)).trans hmore
    · rw [hroot]
      simp [opened, Document.opened]

theorem regular_settings (c : Config) : ∀ part ∈ c.settings, Regular part.1 (part.2.map (·.1)) := by
  let names (part : String × List (String × Setting)) : String × List String := (part.1, part.2.map (·.1))
  have hsame : c.settings.map names = default.settings.map names := rfl
  have hall : ∀ part ∈ default.settings.map names, Regular part.1 part.2 := by decide +kernel
  exact fun part hpart => hall (names part) (hsame ▸ List.mem_map_of_mem hpart)

theorem toJsonEntries_eq (entries : Toml.Table) :
    Toml.Value.toJsonEntries entries = entries.map fun e => (e.1, e.2.toJson) := by
  induction entries with
  | nil => rfl
  | cons e entries ih =>
    rw [Toml.Value.toJsonEntries, ih]
    rfl

def partJson (part : String × List (String × Setting)) : String × Json :=
  (part.1, .object (part.2.map fun e => (e.1, e.2.json)))

theorem plainChoice_json (s : Setting) : plainChoice s.json = s.json := by
  cases s <;> rfl

theorem plainPart_table (h : ∀ e ∈ part.2, e.2.Writable) :
    plainPart (part.1, (Toml.Value.table .header (partTable part)).toJson) = partJson part := by
  have hentry : ∀ e ∈ part.2, (e.1, plainChoice e.2.value.toJson) = (e.1, e.2.json) := fun e he => by
    rw [Setting.toJson_value (h e he), plainChoice_json]
  simp only [Toml.Value.toJson, toJsonEntries_eq, partTable, plainPart, List.map_map, partJson, Prod.mk.injEq,
    Json.object.injEq, true_and]
  exact List.map_congr_left hentry

theorem read_path {p : Path} (h : (Setting.path p).Writable) :
    Codec.path.read (Setting.path p).json = .ok p := by
  obtain ⟨text, rfl⟩ := h
  rw [Setting.json, Path.text?_eq_some_iff.2 rfl]
  rfl

theorem read_name (t : Transport) : Transport.codec.read (.string t.name) = .ok t := by
  cases t <;> rfl

section

open Fields

theorem read_daemon {d : DaemonConfig} (h : (Setting.path d.dataDir).Writable) :
    DaemonConfig.codec.read (.object [("node_id", .string d.nodeId),
      ("data_dir", (Setting.path d.dataDir).json), ("self_check_interval_secs", .ofNat d.selfCheckSecs),
      ("bus", .string d.bus.name), ("bus_addr", .string d.busAddr)]) = .ok d := by
  refine read_record_iff.2
    (readKeys_seq (readKeys_seq (readKeys_seq (readKeys_seq (readKeys_map _ ?_) ?_) ?_) ?_) ?_)
  · exact readKeys_withDefault rfl rfl
  · exact readKeys_withDefault rfl (read_path h)
  · exact readKeys_withDefault rfl rfl
  · exact readKeys_withDefault rfl (read_name d.bus)
  · exact readKeys_withDefault rfl rfl

theorem read_ledger (l : LedgerConfig) :
    LedgerConfig.codec.read (.object [("ttl_secs", .ofNat l.ttlSecs), ("sweep_interval_secs", .ofNat l.sweepSecs),
      ("stats_timeout_ms", .ofNat l.statsMs), ("identify_timeout_ms", .ofNat l.identifyMs)]) = .ok l := by
  refine read_record_iff.2 (readKeys_seq (readKeys_seq (readKeys_seq (readKeys_map _ ?_) ?_) ?_) ?_) <;>
    exact readKeys_withDefault rfl rfl

theorem read_health (h : HealthConfig) :
    HealthConfig.codec.read (.object [("query_timeout_ms", .ofNat h.queryMs)]) = .ok h :=
  read_record_iff.2 (readKeys_map _ (readKeys_withDefault rfl rfl))

theorem read_staging (s : StagingConfig) :
    StagingConfig.codec.read (.object [("max_retries", .ofNat s.maxRetries.toUInt64),
      ("retry_delay_ms", .ofNat s.retryMs), ("stage_timeout_secs", .ofNat s.stageSecs)]) = .ok s := by
  refine read_record_iff.2 (readKeys_seq (readKeys_seq (readKeys_map _ ?_) ?_) ?_)
  · exact readKeys_withDefault rfl (Codec.uint32_faithful s.maxRetries)
  · exact readKeys_withDefault rfl rfl
  · exact readKeys_withDefault rfl rfl

theorem read_autoscale (a : AutoscaleConfig) :
    AutoscaleConfig.codec.read (.object [("enabled", .bool a.enabled), ("cooldown_secs", .ofNat a.cooldownSecs)]) =
      .ok a := by
  refine read_record_iff.2 (readKeys_seq (readKeys_map _ ?_) ?_) <;> exact readKeys_withDefault rfl rfl

theorem read_parts {c : Config} (h : (Setting.path c.daemon.dataDir).Writable) :
    codec.read (.object (c.settings.map partJson)) = .ok c := by
  refine read_record_iff.2
    (readKeys_seq (readKeys_seq (readKeys_seq (readKeys_seq (readKeys_map _ ?_) ?_) ?_) ?_) ?_)
  · exact readKeys_withDefault rfl (read_daemon h)
  · exact readKeys_withDefault rfl (read_ledger c.ledger)
  · exact readKeys_withDefault rfl (read_health c.health)
  · exact readKeys_withDefault rfl (read_staging c.staging)
  · exact readKeys_withDefault rfl (read_autoscale c.autoscale)

end

def counts (c : Config) : List UInt64 :=
  [c.daemon.selfCheckSecs, c.ledger.ttlSecs, c.ledger.sweepSecs, c.ledger.statsMs, c.ledger.identifyMs,
    c.health.queryMs, c.staging.retryMs, c.staging.stageSecs, c.autoscale.cooldownSecs]

theorem writePart_eq_none_iff : writePart part = none ↔ ∃ e ∈ part.2, ¬ e.2.Writable := by
  have hlines : writePart part = none ↔ part.2.mapM writeSetting = none := by
    rw [writePart]
    cases part.2.mapM writeSetting <;> simp
  rw [hlines, mapM_eq_none_iff]
  refine exists_congr fun e => and_congr_right fun _ => ?_
  rw [writeSetting, Option.map_eq_none_iff, Setting.write?_eq_none_iff]

theorem render?_eq_none_iff {c : Config} :
    c.render? = none ↔ ¬ ∀ part ∈ c.settings, ∀ e ∈ part.2, e.2.Writable := by
  have hparts : c.render? = none ↔ c.settings.mapM writePart = none := by
    rw [render?]
    cases c.settings.mapM writePart <;> simp
  simp [hparts, mapM_eq_none_iff, writePart_eq_none_iff]

theorem writable_iff {c : Config} : (∀ part ∈ c.settings, ∀ e ∈ part.2, e.2.Writable) ↔
    (∀ n ∈ c.counts, n.toNat ≤ 0x7fffffffffffffff) ∧ ∃ text, c.daemon.dataDir = .ofText text := by
  have hretries : c.staging.maxRetries.toUInt64.toNat ≤ 0x7fffffffffffffff := by
    have := c.staging.maxRetries.toNat_lt
    rw [UInt32.toNat_toUInt64]
    omega
  simp only [settings, counts, Setting.Writable, List.forall_mem_cons, List.not_mem_nil, false_imp_iff,
    implies_true, and_true, true_and, hretries]
  tauto

theorem parse?_of_render {c : Config} {text : String} (h : c.render? = some text) : parse? text = some c := by
  have hwritable : ∀ part ∈ c.settings, ∀ e ∈ part.2, e.2.Writable := by
    refine not_not.1 fun hnot => ?_
    rw [render?_eq_none_iff.2 hnot] at h
    cases h
  have hdir : (Setting.path c.daemon.dataDir).Writable := (writable_iff.1 hwritable).2
  obtain ⟨texts, htexts, h⟩ := Option.bind_eq_some_iff.1 h
  cases h
  have hapart : ((Toml.Document.empty.root).map (·.1) ++ c.settings.map (·.1)).Nodup := by
    have hsame : c.settings.map (·.1) = default.settings.map (·.1) := rfl
    have hnames : (default.settings.map (·.1)).Nodup := by decide
    exact hsame ▸ hnames
  obtain ⟨d, hleads, hroot⟩ := leads_parts (regular_settings c) hapart htexts
  have hmark : (List.intercalate ['\n'] texts).head? ≠ some '\ufeff' := by
    rw [head_of_writeParts htexts (List.cons_ne_nil _ _)]
    decide
  have hjson : (Toml.Value.toJsonEntries d.root).map plainPart = c.settings.map partJson := by
    rw [hroot, toJsonEntries_eq]
    simp only [Toml.Document.empty, List.nil_append, List.map_map]
    exact List.map_congr_left fun part hpart => plainPart_table (hwritable part hpart)
  rw [parse?, Toml.parse?_of_leads hleads hmark]
  simp only [Option.bind_eq_bind, Option.bind_some, hjson, read_parts hdir]
  rfl

/-- What is written is read as the configuration that it was written for, and only two things are not
written: a number above the greatest integer of TOML, `2 ^ 63 - 1`, and a path that is no text. -/
theorem parse_render (c : Config) :
    (c.render? = none ↔ (∃ n ∈ c.counts, 0x7fffffffffffffff < n.toNat) ∨ ¬ ∃ text, c.daemon.dataDir = .ofText text) ∧
    ∀ text, c.render? = some text → parse? text = some c := by
  refine ⟨?_, fun text => parse?_of_render⟩
  rw [render?_eq_none_iff, writable_iff, not_and_or]
  simp

/-- Its texts are written in three different forms, and the last of them ends in quotes. -/
def quoted : Config :=
  { Config.default with
    daemon := ⟨"node \"1\"", .ofText "C:\\it's\x07", 9223372036854775807, .connect, "'''\n\"\"\"\""⟩ }

theorem parse_render_quoted : ∃ text, quoted.render? = some text ∧ parse? text = some quoted := by
  have hwritten : quoted.render?.isSome = true := by decide +kernel
  obtain ⟨text, htext⟩ := Option.isSome_iff_exists.1 hwritten
  exact ⟨text, htext, (parse_render quoted).2 text htext⟩

end Config

end AppFleet
