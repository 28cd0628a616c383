import AppFleet.Proofs.Bus.Lines
import AppFleet.Proofs.Json.RoundTrip
import AppFleet.Proofs.Text.Encoding

/-! What is written as frames reads back. A frame is one line, and a line that is no frame makes no
difference to the frames around it. -/

namespace AppFleet

namespace Text

variable {bytes ending : List UInt8}

/-- A line ends at a line feed, alone or after a carriage return. -/
theorem lines_line (hend : lines ending = [[]]) (hfeed : 0x0a ∉ bytes)
    (hreturn : bytes.getLast? = some 0x0d → ending.head? ≠ some 0x0a) : lines (bytes ++ ending) = [bytes] := by
  induction bytes with
  | nil => exact hend
  | cons b bytes ih =>
    simp only [List.mem_cons, not_or] at hfeed
    have hsingle : ∀ rest : List UInt8, b = 0x0d → bytes ++ ending = 0x0a :: rest → False := by
      rintro rest rfl heq
      cases bytes with
      | nil =>
        rw [List.nil_append] at heq
        exact hreturn rfl (by rw [heq]; rfl)
      | cons c bytes => exact hfeed.2 ((List.cons.inj heq).1 ▸ List.mem_cons_self)
    rw [List.cons_append, lines.eq_3 _ _ hsingle, if_neg (Ne.symm hfeed.1), ih hfeed.2]
    cases bytes with
    | nil => simp
    | cons c bytes => rwa [List.getLast?_cons_cons] at hreturn

theorem lineFeed_notMem_toUTF8 {s : String} (h : '\n' ∉ s.toList) : 0x0a ∉ s.toUTF8.toList := by
  rw [toUTF8_toList, List.mem_flatMap]
  rintro ⟨c, hc, hfeed⟩
  have hnat := toNat_of_mem_encode (by decide) hfeed
  obtain rfl : c = '\n' := Char.toNat_inj.1 hnat
  exact h hc

theorem getLast?_toUTF8 {s : String} (h : s.toUTF8.toList.getLast? = some 0x0d) :
    s.toList.getLast? = some '\r' := by
  rw [toUTF8_toList] at h
  rcases List.eq_nil_or_concat s.toList with hs | ⟨init, c, hs⟩
  · simp [hs] at h
  · rw [hs, List.concat_eq_append, List.flatMap_append, List.flatMap_singleton] at h
    have hmem : 0x0d ∈ String.utf8EncodeChar c := by
      have hne : String.utf8EncodeChar c ≠ [] := by
        rw [Ne, ← List.length_eq_zero_iff, String.length_utf8EncodeChar]
        exact Nat.ne_of_gt c.utf8Size_pos
      rw [List.getLast?_append, Option.or_eq_some_iff] at h
      rcases h with hlast | ⟨hnone, -⟩
      · exact List.mem_of_getLast? hlast
      · exact absurd (List.getLast?_eq_none_iff.1 hnone) hne
    have hnat := toNat_of_mem_encode (by decide) hmem
    obtain rfl : c = '\r' := Char.toNat_inj.1 hnat
    simp [hs]

theorem toUTF8_ofList_append (cs ds : List Char) : (String.ofList (cs ++ ds)).toUTF8.toList =
    (String.ofList cs).toUTF8.toList ++ ds.flatMap String.utf8EncodeChar := by
  simp only [toUTF8_toList, String.toList_ofList, List.flatMap_append]

theorem isBlank_return (cs : List Char) :
    isBlank (String.ofList (cs ++ ['\r'])) = isBlank (String.ofList cs) := by
  have hreturn : isBlankChar '\r' = true := by decide
  simp [isBlank, hreturn]

theorem whole_append_lineFeed (bytes : List UInt8) : Whole (bytes ++ [0x0a]) := by simp [Whole]

end Text

open Codec Fields

namespace Frame

theorem subjectField_reads : subjectField.Reads ["subject"] id :=
  reads_required "subject" string_faithful id

theorem envelopeFields_reads : envelopeFields.Reads ["subject", "payload", "reply_to"] id := by
  have hreply := option_faithful string_faithful nofun
  exact (((reads_required "subject" string_faithful Envelope.subject).map Envelope.mk).seq
    (reads_required "payload" (fun _ => rfl) Envelope.payload)).seq
    (reads_omitNone "reply_to" hreply Envelope.replyTo)

theorem codec_faithful : codec.Faithful := by
  intro f
  cases f with
  | subscribe s =>
    exact Variant.read_codec rfl (Variant.nodup_keys subjectField_reads (by decide) _ s)
      (Variant.readObject_of subjectField_reads (by decide) s)
  | unsubscribe s =>
    exact Variant.read_codec rfl (Variant.nodup_keys subjectField_reads (by decide) _ s)
      (Variant.readObject_of subjectField_reads (by decide) s)
  | publish e =>
    exact Variant.read_codec rfl (Variant.nodup_keys envelopeFields_reads (by decide) _ e)
      (Variant.readObject_of envelopeFields_reads (by decide) e)
  | message e =>
    exact Variant.read_codec rfl (Variant.nodup_keys envelopeFields_reads (by decide) _ e)
      (Variant.readObject_of envelopeFields_reads (by decide) e)

theorem entries_eq (f : Frame) : Variant.entries "op" variants f =
    match f with
    | subscribe s => [("op", .string "subscribe"), ("subject", .string s)]
    | unsubscribe s => [("op", .string "unsubscribe"), ("subject", .string s)]
    | publish e => ("op", .string "publish") :: envelopeFields.write e
    | message e => ("op", .string "message") :: envelopeFields.write e := by
  cases f <;> rfl

theorem envelopeFields_write (e : Envelope) : envelopeFields.write e =
    ("subject", .string e.subject) :: ("payload", e.payload) ::
      e.replyTo.elim [] fun reply => [("reply_to", .string reply)] := by
  obtain ⟨subject, payload, replyTo⟩ := e
  cases replyTo <;> rfl

def payload? : Frame → Option Json
  | publish e | message e => some e.payload
  | _ => none

/-- What a frame that travels carries: sorted objects, nested as deep as a reader goes, and doubles that
read back. -/
def Regular (f : Frame) : Prop := ∀ p ∈ f.payload?, p.Sorted ∧ p.depth < Json.maxDepth ∧ p.Exact

variable {f : Frame}

theorem regular_envelope {e : Envelope} (hsorted : e.payload.Sorted) (hdepth : e.payload.depth < Json.maxDepth)
    (hexact : e.payload.Exact) : Json.ExactEntries (envelopeFields.write e) ∧
      Json.depthEntries (envelopeFields.write e) < Json.maxDepth ∧
      Json.canonicalEntries (envelopeFields.write e) = envelopeFields.write e := by
  rw [envelopeFields_write]
  cases e.replyTo <;>
    simp [Json.ExactEntries, Json.Exact, Json.depthEntries, Json.depth, Json.canonicalEntries, Json.canonical,
      Json.canonical_of_sorted _ hsorted, hdepth, hexact]

theorem regular_entries (h : f.Regular) :
    (Json.object (Variant.entries "op" variants f)).Exact ∧
      (Json.object (Variant.entries "op" variants f)).depth ≤ Json.maxDepth ∧
      Json.canonicalEntries (Variant.entries "op" variants f) = Variant.entries "op" variants f := by
  rw [entries_eq]
  cases f with
  | subscribe s | unsubscribe s =>
    simp [Json.ExactEntries, Json.Exact, Json.depthEntries, Json.depth, Json.canonicalEntries, Json.canonical,
      Json.maxDepth]
  | publish e | message e =>
    obtain ⟨hsorted, hdepth, hexact⟩ := h e.payload rfl
    obtain ⟨hexact', hdepth', hcanonical⟩ := regular_envelope hsorted hdepth hexact
    refine ⟨⟨trivial, hexact'⟩, ?_, ?_⟩
    · simpa [Json.depth, Json.depthEntries] using Nat.succ_le_of_lt hdepth'
    · simp [Json.canonicalEntries, Json.canonical, hcanonical]

theorem unrepeated_entries (f : Frame) : Unrepeated f.keys (Variant.entries "op" variants f) := by
  have hkeys : ((Variant.entries "op" variants f).map (·.1)).Nodup := by
    rw [entries_eq]
    cases f with
    | subscribe s | unsubscribe s => exact Variant.nodup_keys subjectField_reads (by decide) _ s
    | publish e | message e => exact Variant.nodup_keys envelopeFields_reads (by decide) _ e
  intro key _
  have hcount := List.nodup_iff_count.1 hkeys key
  rw [List.count, List.countP_map, List.countP_eq_length_filter] at hcount
  exact hcount

theorem ofText?_write (h : f.Regular) :
    ofText? (Json.object (Variant.entries "op" variants f)).render = some f := by
  obtain ⟨hexact, hdepth, hcanonical⟩ := regular_entries h
  have hread : codec.read (Json.object (Variant.entries "op" variants f)).canonical = .ok f := by
    rw [Json.canonical, hcanonical]
    exact codec_faithful f
  simp only [ofText?, Json.render, String.toList_ofList, Json.parseEntries?_write hexact hdepth, Option.bind_eq_bind,
    Option.bind_some, hread]
  exact if_pos (unrepeated_entries f)

theorem readLines_text {s : String} : readLines [s.toUTF8.toList] =
    if Text.isBlank s then [] else [(ofText? s).elim .malformed .frame] := by
  simp only [readLines, Text.ofUtf8?_toUTF8]

/-- The text of a line is still no frame without a carriage return at its end. -/
theorem ofText?_of_return {cs : List Char} (h : ofText? (String.ofList (cs ++ ['\r'])) = none) :
    ofText? (String.ofList cs) = none := by
  cases hs : ofText? (String.ofList cs) with
  | none => rfl
  | some f =>
    obtain ⟨v, hv, hf⟩ := Option.bind_eq_some_iff.1 hs
    rw [String.toList_ofList] at hv
    have hv' : Json.parseEntries? (cs ++ ['\r']) = some v :=
      Json.parseEntries?_blank hv (List.forall_mem_singleton.2 rfl) (Json.apart_cons rfl)
    rw [ofText?, String.toList_ofList, hv'] at h
    exact absurd (h.symm.trans hf) nofun

end Frame

inductive Piece where
  | frame (f : Frame)
  /-- A line as it is, without its line feed. -/
  | line (text : String)

namespace Piece

def bytes : Piece → List UInt8
  | frame f => f.bytes
  | line text => text.toUTF8.toList ++ [0x0a]

def reading? : Piece → Option Frame.Reading
  | frame f => some (.frame f)
  | line text => if Text.isBlank text then none else some .malformed

def Regular : Piece → Prop
  | frame f => f.Regular
  | line text => '\n' ∉ text.toList ∧ (Text.isBlank text ∨ Frame.ofText? text = none)

theorem lines_bytes {p : Piece} (h : p.Regular) :
    ∃ s : String, Text.lines p.bytes = [s.toUTF8.toList] ∧ Text.Whole p.bytes ∧
      Frame.readLines [s.toUTF8.toList] = p.reading?.toList := by
  cases p with
  | frame f =>
    have hprintable := Json.printable_write (.object (Variant.entries "op" Frame.variants f))
    have hbytes : f.bytes =
        (Json.object (Variant.entries "op" Frame.variants f)).render.toUTF8.toList ++ [0x0a] :=
      Text.toUTF8_ofList_append _ ['\n']
    refine ⟨(Json.object (Variant.entries "op" Frame.variants f)).render, ?_, ?_, ?_⟩
    · rw [bytes, hbytes]
      refine Text.lines_line rfl (Text.lineFeed_notMem_toUTF8 ?_) fun hreturn => ?_
      · rw [Json.render, String.toList_ofList]
        exact fun hfeed => absurd (hprintable _ hfeed) (by decide)
      · have hlast := Text.getLast?_toUTF8 hreturn
        rw [Json.render, String.toList_ofList] at hlast
        exact absurd (hprintable _ (List.mem_of_getLast? hlast)) (by decide)
    · rw [bytes, hbytes]
      exact Text.whole_append_lineFeed _
    · have hbrace : Text.isBlankChar '{' = false := by decide
      have hblank : ¬ Text.isBlank (Json.object (Variant.entries "op" Frame.variants f)).render = true := by
        rw [Frame.entries_eq]
        cases f <;> simp [Text.isBlank, Json.render, Json.write, hbrace]
      rw [Frame.readLines_text, if_neg hblank, Frame.ofText?_write h]
      rfl
  | line text =>
    obtain ⟨hfeed, htext⟩ := h
    by_cases hreturn : text.toList.getLast? = some '\r'
    · -- the reader takes the carriage return for a part of the line's end
      obtain ⟨cs, hcs⟩ := List.getLast?_eq_some_iff.1 hreturn
      obtain rfl : text = String.ofList (cs ++ ['\r']) := by
        rw [← hcs, String.ofList_toList]
      have hbytes : (String.ofList (cs ++ ['\r'])).toUTF8.toList = (String.ofList cs).toUTF8.toList ++ [0x0d] :=
        Text.toUTF8_ofList_append cs ['\r']
      refine ⟨String.ofList cs, ?_, Text.whole_append_lineFeed _, ?_⟩
      · rw [bytes, hbytes, List.append_assoc]
        refine Text.lines_line rfl (Text.lineFeed_notMem_toUTF8 ?_) nofun
        simpa using hfeed
      · rw [Frame.readLines_text, reading?, Text.isBlank_return]
        rw [Text.isBlank_return] at htext
        split
        · rfl
        · rename_i hblank
          rw [Frame.ofText?_of_return (htext.resolve_left hblank)]
          rfl
    · refine ⟨text, Text.lines_line rfl (Text.lineFeed_notMem_toUTF8 hfeed) ?_,
        Text.whole_append_lineFeed _, ?_⟩
      · exact fun hlast => absurd (Text.getLast?_toUTF8 hlast) hreturn
      · rw [Frame.readLines_text, reading?]
        split
        · rfl
        · rename_i hblank
          rw [htext.resolve_left hblank]
          rfl

end Piece

namespace Frame

theorem reads_written {pieces : List Piece} (h : ∀ p ∈ pieces, p.Regular) :
    readAll (pieces.flatMap Piece.bytes) = pieces.filterMap Piece.reading? ∧
      (Text.lines (pieces.flatMap Piece.bytes)).length = pieces.length := by
  induction pieces with
  | nil => exact ⟨rfl, rfl⟩
  | cons p pieces ih =>
    obtain ⟨s, hlines, hwhole, hread⟩ := Piece.lines_bytes (h p List.mem_cons_self)
    obtain ⟨ihread, ihlines⟩ := ih fun q hq => h q (List.mem_cons_of_mem _ hq)
    have hfirst : readAll p.bytes = p.reading?.toList := by rw [readAll, hlines, hread]
    have htext : .notText ∉ p.reading?.toList := by
      cases p with
      | frame f => simp [Piece.reading?]
      | line text => by_cases hblank : Text.isBlank text <;> simp [Piece.reading?, hblank]
    constructor
    · rw [List.flatMap_cons, readAll_append hwhole, hfirst, if_neg htext, ihread, List.filterMap_cons]
      cases p.reading? <;> rfl
    · rw [List.flatMap_cons, Text.lines_append hwhole, hlines, List.singleton_append, List.length_cons, ihlines]
      rfl

def noisy : List Piece := [
  .line " \t\r",
  .frame (.publish ⟨"app\nupdated", .object [
    ("cpu", .number (.double 1.5)), ("log", .array [.string "\"\\\x07\r\n"])], some "_INBOX.7"⟩),
  .line "\x7b\"op\":\"subscribe\"\x7d\r",
  .frame (.subscribe "node.start"),
  .line ""]

theorem reads_written_noisy : (∀ p ∈ noisy, p.Regular) ∧
    readAll (noisy.flatMap Piece.bytes) = noisy.filterMap Piece.reading? := by
  have hfloat : Json.readNumber (Decimal.ofFloat 1.5) = some (.double 1.5, []) := by decide +kernel
  have hregular : ∀ p ∈ noisy, p.Regular := by
    intro p hp
    simp only [noisy, List.mem_cons, List.not_mem_nil, or_false] at hp
    rcases hp with rfl | rfl | rfl | rfl | rfl
    · exact ⟨by decide, .inl (by decide)⟩
    · rintro payload ⟨⟩
      refine ⟨?_, by decide, ?_⟩
      · have hkeys : "cpu" < "log" := by decide +kernel
        exact ⟨List.pairwise_pair.2 hkeys, trivial, ⟨trivial, trivial⟩, trivial⟩
      · simp [Json.Exact, Json.ExactEntries, Json.ExactItems, Json.Number.Exact, hfloat]
    · exact ⟨by decide, .inr (by decide +kernel)⟩
    · exact nofun
    · exact ⟨by decide, .inl (by decide)⟩
  exact ⟨hregular, (reads_written hregular).1⟩

end Frame

end AppFleet
