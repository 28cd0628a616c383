import AppFleet.Proofs.Bus.Served
import Mathlib.Data.List.Induction

/-! The bytes of a peer and the lines in them. However the bytes are cut into pieces, and whatever other
peers do in between, the lines of a peer take effect in the order in which it sent them. -/

namespace AppFleet

namespace Text

variable {xs ys : List UInt8}

def Whole (xs : List UInt8) : Prop := ∀ b ∈ xs.getLast?, b = 0x0a

theorem whole_nil : Whole [] := by simp [Whole]

theorem Whole.of_cons {b : UInt8} (h : Whole (b :: xs)) : Whole xs := by
  intro c hc
  cases xs with
  | nil => simp at hc
  | cons d xs => exact h c (by rwa [List.getLast?_cons_cons])

theorem Whole.append (hxs : Whole xs) (hys : Whole ys) : Whole (xs ++ ys) := by
  intro b hb
  rw [List.getLast?_append, Option.mem_def, Option.or_eq_some_iff] at hb
  rcases hb with hb | ⟨-, hb⟩
  · exact hys b hb
  · exact hxs b hb

theorem eq_nil_of_lines (h : lines xs = []) : xs = [] := by
  fun_induction lines xs <;> simp_all

/-- A line that has ended is told apart from what follows it. -/
theorem lines_append (h : Whole xs) (ys : List UInt8) : lines (xs ++ ys) = lines xs ++ lines ys := by
  fun_induction lines xs with
  | case1 => rfl
  | case2 rest ih => exact congrArg ([] :: ·) (ih h.of_cons.of_cons)
  | case3 rest hsingle ih =>
    have hsingle' : ∀ rest' : List UInt8, (0x0a : UInt8) = 0x0d → rest ++ ys = 0x0a :: rest' → False := by
      intro _ heq
      cases heq
    rw [List.cons_append, lines.eq_3 _ _ hsingle', if_pos rfl, ih h.of_cons]
    rfl
  | case4 b rest hsingle hb hnone ih =>
    obtain rfl := eq_nil_of_lines hnone
    exact absurd (h b rfl) hb
  | case5 b rest hsingle hb line more hlines ih =>
    -- a carriage return at the end of the first part would have begun a line
    have hsingle' : ∀ rest' : List UInt8, b = 0x0d → rest ++ ys = 0x0a :: rest' → False := by
      intro rest' hreturn heq
      cases rest with
      | nil => simp [lines] at hlines
      | cons c rest =>
        obtain ⟨rfl, -⟩ := List.cons.inj heq
        exact hsingle rest hreturn rfl
    rw [List.cons_append, lines.eq_3 _ _ hsingle', if_neg hb, ih h.of_cons, hlines]
    rfl

theorem ended_eq (hxs : Whole xs) (hys : 0x0a ∉ ys) : ended (xs ++ ys) = (xs, ys) := by
  have hwhole : xs.reverse.takeWhile (· ≠ 0x0a) = [] := by
    rcases List.eq_nil_or_concat xs with rfl | ⟨init, b, rfl⟩
    · rfl
    · have hb : b = 0x0a := hxs b (by simp)
      simp [hb]
  have hbegun : (xs ++ ys).reverse.takeWhile (· ≠ 0x0a) = ys.reverse := by
    rw [List.reverse_append, List.takeWhile_append_of_pos, hwhole, List.append_nil]
    intro b hb
    have hne : b ≠ 0x0a := by
      rintro rfl
      exact hys (List.mem_reverse.1 hb)
    exact decide_eq_true hne
  rw [ended, hbegun, List.length_reverse, List.length_append, Nat.add_sub_cancel]
  simp

theorem ended_spec (xs : List UInt8) : Whole (ended xs).1 ∧ 0x0a ∉ (ended xs).2 := by
  induction xs using List.reverseRecOn with
  | nil => exact ⟨whole_nil, by simp [ended]⟩
  | append_singleton xs b ih =>
    obtain ⟨hwhole, hbegun⟩ := ih
    by_cases hb : b = 0x0a
    · have hall : Whole (xs ++ [b]) := by simp [Whole, hb]
      have heq : ended (xs ++ [b] ++ []) = (xs ++ [b], []) := ended_eq hall List.not_mem_nil
      rw [List.append_nil] at heq
      rw [heq]
      exact ⟨hall, List.not_mem_nil⟩
    · have hmore : 0x0a ∉ (ended xs).2 ++ [b] := by simp [hbegun, Ne.symm hb]
      have heq := ended_eq hwhole hmore
      rw [← List.append_assoc, ended_fst_append_snd] at heq
      rw [heq]
      exact ⟨hwhole, hmore⟩

theorem ended_append (xs ys : List UInt8) : ended (xs ++ ys) =
    ((ended xs).1 ++ (ended ((ended xs).2 ++ ys)).1, (ended ((ended xs).2 ++ ys)).2) := by
  obtain ⟨hwhole, -⟩ := ended_spec xs
  obtain ⟨hwhole', hbegun⟩ := ended_spec ((ended xs).2 ++ ys)
  rw [← ended_eq (hwhole.append hwhole') hbegun, List.append_assoc, ended_fst_append_snd, ← List.append_assoc,
    ended_fst_append_snd]

end Text

namespace Frame

theorem readLines_append (xs ys : List (List UInt8)) : readLines (xs ++ ys) =
    readLines xs ++ if .notText ∈ readLines xs then [] else readLines ys := by
  induction xs with
  | nil => simp [readLines]
  | cons line xs ih =>
    cases hline : Text.ofUtf8? line with
    | none => simp [readLines, hline]
    | some text =>
      by_cases hblank : Text.isBlank text = true
      · simpa [readLines, hline, hblank] using ih
      · cases hframe : ofText? text <;> simp [readLines, hline, hblank, hframe, ih]

theorem readAll_append {xs : List UInt8} (h : Text.Whole xs) (ys : List UInt8) : readAll (xs ++ ys) =
    readAll xs ++ if .notText ∈ readAll xs then [] else readAll ys := by
  rw [readAll, Text.lines_append h, readLines_append]
  rfl

end Frame

namespace Peer

variable {p : Peer} {b : Bus} {rs : List Frame.Reading}

theorem readAll_of_closed (h : p.isOpen = false) (b : Bus) (rs : List Frame.Reading) :
    p.readAll b rs = (p, b) := by
  induction rs with
  | nil => rfl
  | cons r rs ih => simpa [readAll, h] using ih

theorem readAll_cons (h : p.isOpen = true) (b : Bus) (r : Frame.Reading) (rs : List Frame.Reading) :
    p.readAll b (r :: rs) = (p.read b r).1.readAll (p.read b r).2 rs := by
  have hread : (if p.isOpen then p.read b r else (p, b)) = p.read b r := if_pos h
  exact congrArg (fun q : Peer × Bus => q.1.readAll q.2 rs) hread

theorem read_unread (h : r ≠ .notText) (p : Peer) (b : Bus) :
    (p.read b r).1.isOpen = p.isOpen ∧ (p.read b r).1.unread = p.unread := by
  cases r with
  | frame frame =>
    cases frame with
    | subscribe subject =>
      simp only [read, handle, subscribe]
      split <;> exact ⟨rfl, rfl⟩
    | unsubscribe subject =>
      simp only [read, handle, unsubscribe]
      split <;> exact ⟨rfl, rfl⟩
    | publish e | message e => exact ⟨rfl, rfl⟩
  | malformed => exact ⟨rfl, rfl⟩
  | notText => exact absurd rfl h

/-- Lines leave a connection open, unless one of them is not text. -/
theorem isOpen_readAll (h : p.isOpen = true) (b : Bus) (hrs : .notText ∉ rs) :
    (p.readAll b rs).1.isOpen = true ∧ (p.readAll b rs).1.unread = p.unread := by
  induction rs generalizing p b with
  | nil => exact ⟨h, rfl⟩
  | cons r rs ih =>
    simp only [List.mem_cons, not_or] at hrs
    obtain ⟨hopen, hunread⟩ := read_unread (Ne.symm hrs.1) p b
    obtain ⟨hopen', hunread'⟩ := ih (hopen.trans h) _ hrs.2
    rw [readAll_cons h]
    exact ⟨hopen', hunread'.trans hunread⟩

/-- Once a line was not text, the connection is over and done with. -/
theorem closed_readAll (h : p.isOpen = true) (b : Bus) (hrs : .notText ∈ rs) :
    (p.readAll b rs).1.isOpen = false ∧
      (p.readAll b rs).1.close (p.readAll b rs).2 = p.readAll b rs := by
  induction rs generalizing p b with
  | nil => simp at hrs
  | cons r rs ih =>
    rw [readAll_cons h]
    by_cases hr : r = .notText
    · subst hr
      have hclosed : (p.read b .notText).1.isOpen = false := rfl
      rw [readAll_of_closed hclosed]
      exact ⟨rfl, rfl⟩
    · obtain ⟨hopen, -⟩ := read_unread hr p b
      exact ih (hopen.trans h) _ (List.mem_of_ne_of_mem (Ne.symm hr) hrs)

end Peer

namespace Server

variable {s : Server} {k : Nat} {p : Peer} {es : List Event}

/-- Two things that happen with a peer in turn; the second does not if the first ended the
connection. -/
theorem withPeer_withPeer (s : Server) (k : Nat) (go go' : Peer → Bus → Peer × Bus) :
    (s.withPeer k go).withPeer k go' = s.withPeer k fun p b =>
      if (go p b).1.isOpen then go' (go p b).1 (go p b).2 else go p b := by
  rcases s.open_or_not k with ⟨p, hp, hopen⟩ | hnone
  · have hlt := (List.getElem?_eq_some_iff.1 hp).1
    rw [withPeer_of_open hp hopen, withPeer_of_open hp hopen]
    have hp' : (s.peers.set k (go p s.bus).1)[k]? = some (go p s.bus).1 := List.getElem?_set_self hlt
    by_cases hopen' : (go p s.bus).1.isOpen = true
    · rw [withPeer_of_open hp' hopen', if_pos hopen']
      simp [List.set_set]
    · rw [withPeer_of_not_open, if_neg hopen']
      intro q hq
      obtain rfl := Option.some.inj (hp'.symm.trans hq)
      simpa using hopen'
  · rw [withPeer_of_not_open hnone, withPeer_of_not_open hnone, withPeer_of_not_open hnone]

theorem withPeer_congr {go go' : Peer → Bus → Peer × Bus}
    (h : ∀ p, s.peers[k]? = some p → p.isOpen = true → go p s.bus = go' p s.bus) :
    s.withPeer k go = s.withPeer k go' := by
  rcases s.open_or_not k with ⟨p, hp, hopen⟩ | hnone
  · rw [withPeer_of_open hp hopen, withPeer_of_open hp hopen, h p hp hopen]
  · rw [withPeer_of_not_open hnone, withPeer_of_not_open hnone]

def lineActs (k : Nat) (rs : List Frame.Reading) : List Act := rs.map fun r => .peer k (.line r)

theorem through_lineActs (s : Server) (k : Nat) (rs : List Frame.Reading) :
    s.through (lineActs k rs) = s.withPeer k (·.readAll · rs) := by
  induction rs generalizing s with
  | nil =>
    rcases s.open_or_not k with ⟨p, hp, hopen⟩ | hnone
    · rw [withPeer_of_open hp hopen]
      obtain ⟨hlt, rfl⟩ := List.getElem?_eq_some_iff.1 hp
      have hset : s.peers.set k s.peers[k] = s.peers := List.set_getElem_self hlt
      simp [lineActs, Peer.readAll, hset]
    · rw [withPeer_of_not_open hnone]
      rfl
  | cons r rs ih =>
    change (s.withPeer k (·.act · (.line r))).through (lineActs k rs) = _
    rw [ih, withPeer_withPeer]
    refine withPeer_congr fun p hp hopen => ?_
    rw [Peer.readAll_cons hopen]
    by_cases hopen' : (p.read s.bus r).1.isOpen = true
    · exact if_pos hopen'
    · rw [Peer.readAll_of_closed (Bool.eq_false_iff.2 hopen')]
      exact if_neg hopen'

def parts (s : Server) : Event → List Act
  | .connect => [.connect]
  | .receive k bytes =>
    match s.peers[k]? with
    | some p =>
      if p.isOpen then
        .peer k (.keep (Text.ended (p.unread ++ bytes)).2) ::
          lineActs k (Frame.readAll (Text.ended (p.unread ++ bytes)).1)
      else []
    | none => []
  | .hangUp k =>
    match s.peers[k]? with
    | some p => if p.isOpen then lineActs k (Frame.readAll p.unread) ++ [.peer k .leave] else []
    | none => []
  | .forward k subject => [.peer k (.forward subject)]
  | .deliver e => [.within (.deliver e)]
  | .shutdown => (List.range s.peers.length).map (.peer · .leave) ++ [.shut]

theorem parts_of_not_open (h : ∀ p, s.peers[k]? = some p → p.isOpen = false) :
    (∀ bytes, s.parts (.receive k bytes) = []) ∧ s.parts (.hangUp k) = [] := by
  cases hp : s.peers[k]? with
  | none => simp [parts, hp]
  | some p => simp [parts, hp, h p hp]

theorem step_eq_through (s : Server) (e : Event) : s.step e = s.through (s.parts e) := by
  cases e with
  | receive k bytes =>
    rcases s.open_or_not k with ⟨p, hp, hopen⟩ | hnone
    · simp only [step, parts, hp, hopen, if_true]
      rw [through_cons, through_lineActs]
      change _ = (s.withPeer k (·.act · (.keep _))).withPeer k _
      rw [withPeer_withPeer]
      refine withPeer_congr fun q hq hopen' => ?_
      obtain rfl := Option.some.inj (hp.symm.trans hq)
      exact (if_pos hopen').symm
    · rw [(parts_of_not_open hnone).1, step, withPeer_of_not_open hnone]
      rfl
  | hangUp k =>
    rcases s.open_or_not k with ⟨p, hp, hopen⟩ | hnone
    · simp only [step, parts, hp, hopen, if_true]
      rw [through_append, through_lineActs]
      change _ = (s.withPeer k _).withPeer k (·.act · .leave)
      rw [withPeer_withPeer]
      refine withPeer_congr fun q hq _ => ?_
      obtain rfl := Option.some.inj (hp.symm.trans hq)
      by_cases htext : .notText ∈ Frame.readAll p.unread
      · obtain ⟨hclosed, hdone⟩ := Peer.closed_readAll hopen s.bus htext
        rw [if_neg (by simp [hclosed])]
        exact hdone
      · rw [if_pos (Peer.isOpen_readAll hopen s.bus htext).1]
        rfl
    · rw [(parts_of_not_open hnone).2, step, withPeer_of_not_open hnone]
      rfl
  | shutdown =>
    rw [step, parts, through_append, withPeers]
    simp only [through, List.foldl_map]
    rfl
  | connect | forward k subject | deliver e => rfl

def steps (s : Server) (es : List Event) : Server := es.foldl step s

def script (s : Server) : List Event → List Act
  | [] => []
  | e :: es => s.parts e ++ (s.step e).script es

@[simp] theorem steps_cons (s : Server) (e : Event) (es : List Event) :
    s.steps (e :: es) = (s.step e).steps es := rfl

theorem steps_eq_through (s : Server) (es : List Event) : s.steps es = s.through (s.script es) := by
  induction es generalizing s with
  | nil => rfl
  | cons e es ih => rw [steps_cons, ih, script, through_append, ← step_eq_through]

theorem script_append (s : Server) (es es' : List Event) :
    s.script (es ++ es') = s.script es ++ (s.steps es).script es' := by
  induction es generalizing s with
  | nil => rfl
  | cons e es ih => simp [script, ih]

def Act.line? (k : Nat) : Act → Option Frame.Reading
  | .peer j (.line r) => if j = k then some r else none
  | _ => none

/-- The lines of a peer that took effect, in that order. -/
def linesOf (k : Nat) (acts : List Act) : List Frame.Reading := acts.filterMap (Act.line? k)

def bytesOf (k : Nat) : List Event → List UInt8
  | [] => []
  | .receive j bytes :: es => (if j = k then bytes else []) ++ bytesOf k es
  | _ :: es => bytesOf k es

theorem linesOf_append (k : Nat) (acts acts' : List Act) :
    linesOf k (acts ++ acts') = linesOf k acts ++ linesOf k acts' :=
  List.filterMap_append

theorem linesOf_lineActs_self (k : Nat) (rs : List Frame.Reading) : linesOf k (lineActs k rs) = rs := by
  simp [linesOf, lineActs, List.filterMap_map, Function.comp_def, Act.line?]

theorem linesOf_lineActs_of_ne {j : Nat} (h : j ≠ k) (rs : List Frame.Reading) :
    linesOf k (lineActs j rs) = [] := by
  simp [linesOf, lineActs, Act.line?, h]

theorem closed_through (hp : s.peers[k]? = some p) (hclosed : p.isOpen = false) (acts : List Act) :
    (s.through acts).peers[k]? = some p := by
  induction acts generalizing s with
  | nil => exact hp
  | cons a acts ih =>
    have hgoOn : s.goOn k p a = p := by
      cases a with
      | peer j b => simp [goOn, hclosed]
      | _ => rfl
    have hact := getElem?_act hp a
    rw [hgoOn] at hact
    exact ih hact

def linesIn (k : Nat) (p : Peer) : Event → List Frame.Reading
  | .receive j bytes =>
    if j = k ∧ p.isOpen then Frame.readAll (Text.ended (p.unread ++ bytes)).1 else []
  | .hangUp j => if j = k ∧ p.isOpen then Frame.readAll p.unread else []
  | _ => []

theorem linesOf_parts (hp : s.peers[k]? = some p) (e : Event) : linesOf k (s.parts e) = linesIn k p e := by
  have hother {j : Nat} (hj : j ≠ k) (a : Peer.Act) : Act.line? k (.peer j a) = none := by
    cases a <;> simp [Act.line?, hj]
  cases e with
  | receive j bytes =>
    by_cases hj : j = k
    · subst hj
      cases hopen : p.isOpen with
      | false => simp [parts, linesIn, hp, hopen, linesOf]
      | true =>
        simp only [parts, linesIn, hp, hopen, if_true, and_self]
        exact linesOf_lineActs_self j _
    · simp only [parts, linesIn, hj, false_and, if_false]
      split
      · split
        · exact linesOf_lineActs_of_ne hj _
        · rfl
      · rfl
  | hangUp j =>
    by_cases hj : j = k
    · subst hj
      cases hopen : p.isOpen with
      | false => simp [parts, linesIn, hp, hopen, linesOf]
      | true =>
        simp only [parts, linesIn, hp, hopen, if_true, and_self, linesOf_append, linesOf_lineActs_self]
        exact List.append_nil _
    · simp only [parts, linesIn, hj, false_and, if_false]
      split
      · split
        · rw [linesOf_append, linesOf_lineActs_of_ne hj, List.nil_append]
          exact List.filterMap_cons_none (hother hj _)
        · rfl
      · rfl
  | shutdown =>
    simp [parts, linesIn, linesOf, Act.line?]
  | connect | forward j subject | deliver e => rfl

theorem linesOf_script_of_closed (hp : s.peers[k]? = some p) (hclosed : p.isOpen = false)
    (es : List Event) : linesOf k (s.script es) = [] := by
  induction es generalizing s with
  | nil => rfl
  | cons e es ih =>
    have hp' : (s.step e).peers[k]? = some p := by
      rw [step_eq_through]
      exact closed_through hp hclosed _
    rw [script, linesOf_append, ih hp', linesOf_parts hp]
    cases e <;> simp [linesIn, hclosed]

/-- Other events leave the connection and what was put aside of its bytes as they are. -/
theorem kept_step {e : Event} (hp : s.peers[k]? = some p) (hreceive : ∀ bytes, e ≠ .receive k bytes)
    (hhangUp : e ≠ .hangUp k) (hshutdown : e ≠ .shutdown) :
    ∃ p', (s.step e).peers[k]? = some p' ∧ p'.isOpen = p.isOpen ∧ p'.unread = p.unread := by
  cases e with
  | connect =>
    refine ⟨p, ?_, rfl, rfl⟩
    simp only [step]
    split
    · exact (List.getElem?_append_left (List.getElem?_eq_some_iff.1 hp).1).trans hp
    · exact hp
  | receive j bytes =>
    have hj : j ≠ k := by
      rintro rfl
      exact hreceive bytes rfl
    exact ⟨p, (getElem?_withPeer_of_ne hj s _).trans hp, rfl, rfl⟩
  | hangUp j =>
    have hj : j ≠ k := by
      rintro rfl
      exact hhangUp rfl
    exact ⟨p, (getElem?_withPeer_of_ne hj s _).trans hp, rfl, rfl⟩
  | forward j subject =>
    have hact := getElem?_act hp (.peer j (.forward subject))
    refine ⟨_, hact, ?_⟩
    simp only [goOn]
    split
    · simp only [Peer.act, Peer.forward]
      split <;> exact ⟨rfl, rfl⟩
    · exact ⟨rfl, rfl⟩
  | deliver e => exact ⟨p, hp, rfl, rfl⟩
  | shutdown => exact absurd rfl hshutdown

/-- The lines of a connection that have taken effect are the lines that have ended among all its
bytes so far, in order, up to one that is no text; and the rest is put aside. -/
theorem lines_so_far (hp : s.peers[k]? = some p) (hopen : p.isOpen = true) (hbegun : 0x0a ∉ p.unread)
    (hhangUp : .hangUp k ∉ es) (hshutdown : .shutdown ∉ es) :
    linesOf k (s.script es) = Frame.readAll (Text.ended (p.unread ++ bytesOf k es)).1 ∧
    ∃ p', (s.steps es).peers[k]? = some p' ∧
      (.notText ∈ Frame.readAll (Text.ended (p.unread ++ bytesOf k es)).1 → p'.isOpen = false) ∧
      (.notText ∉ Frame.readAll (Text.ended (p.unread ++ bytesOf k es)).1 →
        p'.isOpen = true ∧ p'.unread = (Text.ended (p.unread ++ bytesOf k es)).2) := by
  induction es generalizing s p with
  | nil =>
    have hended : Text.ended (p.unread ++ bytesOf k []) = ([], p.unread) := by
      rw [bytesOf, List.append_nil]
      exact Text.ended_eq Text.whole_nil hbegun
    rw [hended]
    exact ⟨rfl, p, hp, nofun, fun _ => ⟨hopen, rfl⟩⟩
  | cons e es ih =>
    simp only [List.mem_cons, not_or] at hhangUp hshutdown
    rw [script, linesOf_append, linesOf_parts hp, steps_cons]
    by_cases he : ∃ bytes, e = .receive k bytes
    · obtain ⟨bytes, rfl⟩ := he
      have hbytes : bytesOf k (.receive k bytes :: es) = bytes ++ bytesOf k es := by
        simp [bytesOf]
      obtain ⟨hwhole, hbegun'⟩ := Text.ended_spec (p.unread ++ bytes)
      rw [hbytes, ← List.append_assoc, Text.ended_append, Frame.readAll_append hwhole, linesIn,
        if_pos ⟨rfl, hopen⟩]
      have hstep : (s.step (.receive k bytes)).peers[k]? = some (p.receive s.bus bytes).1 :=
        getElem?_withPeer hp hopen _
      by_cases htext : .notText ∈ Frame.readAll (Text.ended (p.unread ++ bytes)).1
      · have hclosed : (p.receive s.bus bytes).1.isOpen = false :=
          (Peer.closed_readAll (p := { p with unread := (Text.ended (p.unread ++ bytes)).2 }) hopen s.bus htext).1
        rw [linesOf_script_of_closed hstep hclosed, if_pos htext, List.append_nil]
        refine ⟨rfl, _, ?_, fun _ => hclosed, fun hnot => absurd htext hnot⟩
        rw [steps_eq_through]
        exact closed_through hstep hclosed _
      · obtain ⟨hopen', hunread⟩ : (p.receive s.bus bytes).1.isOpen = true ∧
            (p.receive s.bus bytes).1.unread = (Text.ended (p.unread ++ bytes)).2 :=
          Peer.isOpen_readAll (p := { p with unread := (Text.ended (p.unread ++ bytes)).2 }) hopen s.bus htext
        have hrest := ih hstep hopen' (by rwa [hunread]) hhangUp.2 hshutdown.2
        rw [hunread] at hrest
        rw [if_neg htext, hrest.1]
        simpa [htext] using hrest.2
    · have hreceive (bytes : List UInt8) : e ≠ .receive k bytes := fun h => he ⟨bytes, h⟩
      obtain ⟨p', hp', hopen', hunread'⟩ :=
        kept_step hp hreceive (Ne.symm hhangUp.1) (Ne.symm hshutdown.1)
      have hbytes : bytesOf k (e :: es) = bytesOf k es := by
        cases e with
        | receive j bytes =>
          have hj : j ≠ k := by
            rintro rfl
            exact hreceive bytes rfl
          simp [bytesOf, hj]
        | _ => rfl
      have hnone : linesIn k p e = [] := by
        cases e with
        | receive j bytes => exact if_neg fun hj => hreceive bytes (by rw [hj.1])
        | hangUp j => exact if_neg fun hj => hhangUp.1 (by rw [hj.1])
        | _ => rfl
      have hrest := ih hp' (hopen'.trans hopen) (by rwa [hunread']) hhangUp.2 hshutdown.2
      rw [hunread'] at hrest
      rw [hbytes, hnone]
      exact hrest

/-- The lines of a connection from its beginning to its end are those of all its bytes, the last of
which need not have ended. -/
theorem lines_in_order (hp : s.peers[k]? = some p) (hopen : p.isOpen = true) (hbegun : 0x0a ∉ p.unread)
    (hhangUp : .hangUp k ∉ es) (hshutdown : .shutdown ∉ es) :
    linesOf k (s.script (es ++ [.hangUp k])) = Frame.readAll (p.unread ++ bytesOf k es) := by
  obtain ⟨hlines, p', hp', hclosed, hopened⟩ := lines_so_far hp hopen hbegun hhangUp hshutdown
  obtain ⟨hwhole, -⟩ := Text.ended_spec (p.unread ++ bytesOf k es)
  have hlast : linesOf k ((s.steps es).script [.hangUp k]) = linesIn k p' (.hangUp k) := by
    rw [script, linesOf_append, linesOf_parts hp']
    exact List.append_nil _
  rw [script_append, linesOf_append, hlines, hlast, linesIn]
  conv_rhs => rw [← Text.ended_fst_append_snd (p.unread ++ bytesOf k es), Frame.readAll_append hwhole]
  congr 1
  by_cases htext : .notText ∈ Frame.readAll (Text.ended (p.unread ++ bytesOf k es)).1
  · simp [htext, hclosed htext]
  · simp [htext, hopened htext]

/-- From the line that subscribes a peer to a subject to what ends that, the peer is queued the messages
on the subject, each once, in order and with their reply subjects: all of them but those that still wait
for the forwarder, which only has to go on. At all other times it is queued none. And the server is such
a run, in which the lines of a connection are those of its bytes, in order. -/
theorem forwards_in_order (past : List Act) {k : Nat} {p : Peer}
    (hp : ((start .empty).through past).peers[k]? = some p) (t : String) :
    let s := (start .empty).through past
    (p.isOpen = true → p.forwarder? t = none → ∀ during, (∀ a ∈ during, ¬a.Ends k t) →
      .within (.forget t) ∉ during →
      let s' := s.act (.peer k (.line (.frame (.subscribe t))))
      let sent := Bus.heard t (s'.log during)
      ∃ p' queued waiting, (s'.through during).peers[k]? = some p' ∧
        p'.queuedOn t = p.queuedOn t ++ queued ∧ queued ++ waiting = sent ∧
        (s'.through during).bus.find? s.bus.nextId = some ⟨s.bus.nextId, t, waiting⟩ ∧
        (.within .close ∉ during → sent = Bus.sentOn t (s'.log during)) ∧
        ∃ p'', ((s'.through during).through
            (List.replicate waiting.length (.peer k (.forward t)))).peers[k]? = some p'' ∧
          p''.queuedOn t = p.queuedOn t ++ sent) ∧
    (p.forwarder? t = none → ∀ during, .peer k (.line (.frame (.subscribe t))) ∉ during →
      ∃ p', (s.through during).peers[k]? = some p' ∧ p'.queuedOn t = p.queuedOn t) ∧
    (∀ a : Act, a.Ends k t → ∃ p', (s.act a).peers[k]? = some p' ∧ p'.forwarder? t = none ∧
      p'.queuedOn t = p.queuedOn t) ∧
    (∀ es, s.steps es = s.through (s.script es)) ∧
    ∀ es, s.isOpen = true → .hangUp s.peers.length ∉ es → .shutdown ∉ es →
      linesOf s.peers.length ((s.step .connect).script es) =
        Frame.readAll (Text.ended (bytesOf s.peers.length es)).1 ∧
      linesOf s.peers.length ((s.step .connect).script (es ++ [.hangUp s.peers.length])) =
        Frame.readAll (bytesOf s.peers.length es) := by
  intro s
  have hs : s.Orderly := orderly_start.through past
  refine ⟨?_, ?_, ?_, s.steps_eq_through, ?_⟩
  · intro hopen hnone during hduring hforget s' sent
    have hs' : s'.Orderly := hs.act _
    obtain ⟨p₁, hp₁, hopen₁, hf, hqueued, hstands, hregistered⟩ := hs.subscribe_act hp hopen hnone
    obtain ⟨p', hp', hopen', hf', hdrop, hqueued'⟩ := hs'.subscribed_through hp₁ hopen₁ hf hduring
    obtain ⟨waiting, hstands', hread, -⟩ := hstands.after (s'.log during) hdrop
      fun hmem => hforget (within_of_mem_log (.inr rfl) hmem)
    rw [← bus_through] at hstands'
    rw [if_pos hregistered] at hread
    obtain ⟨p'', hp'', hqueued''⟩ := (hs'.through during).caughtUp hp' hopen' hf' hstands'
    refine ⟨p', _, waiting, hp', by rw [hqueued', hqueued], hread, hstands'.found, ?_, p'', hp'', ?_⟩
    · intro hclose
      exact Bus.heard_of_not_close fun hmem => hclose (within_of_mem_log (t := t) (.inl rfl) hmem)
    · rw [hqueued'', hqueued', hqueued, List.append_assoc]
      exact congrArg _ hread
  · intro hnone during hduring
    exact hs.unsubscribed_through hp hnone hduring
  · intro a ha
    exact ⟨_, getElem?_act hp a, hs.ends_act hp ha⟩
  · intro es hopen hhangUp hshutdown
    have hconnected : (s.step .connect).peers[s.peers.length]? = some .connected := by
      simp [step, hopen]
    have hnone : (0x0a : UInt8) ∉ Peer.connected.unread := List.not_mem_nil
    exact ⟨(lines_so_far hconnected rfl hnone hhangUp hshutdown).1,
      lines_in_order hconnected rfl hnone hhangUp hshutdown⟩

def subscribedTwice : List Act :=
  [.within (.deliver ⟨"app.updated", .null, some "_INBOX.7"⟩),
    .peer 0 (.line (.frame (.subscribe "app.updated"))), .peer 0 (.line .malformed),
    .peer 1 (.line (.frame (.publish ⟨"app.updated", .bool true, none⟩))),
    .peer 0 (.forward "app.updated"), .peer 1 .leave]

theorem forwards_in_order_updated :
    ∃ p' queued waiting, ((start .empty).through
        (.connect :: .connect :: .peer 0 (.line (.frame (.subscribe "app.updated"))) ::
          subscribedTwice)).peers[0]? = some p' ∧
      p'.queuedOn "app.updated" = queued ∧
      queued ++ waiting = [⟨"app.updated", .null, some "_INBOX.7"⟩, ⟨"app.updated", .bool true, none⟩] := by
  have hconnected : ((start .empty).through [.connect, .connect]).peers[0]? = some .connected := rfl
  obtain ⟨hperiod, -⟩ := forwards_in_order [.connect, .connect] hconnected "app.updated"
  obtain ⟨p', queued, waiting, hp', hqueued, hsent, -⟩ := hperiod rfl rfl subscribedTwice
    (by simp [subscribedTwice, Act.Ends, Peer.Act.Stops]) (by simp [subscribedTwice])
  exact ⟨p', queued, waiting, hp', hqueued, hsent⟩

end Server

end AppFleet
