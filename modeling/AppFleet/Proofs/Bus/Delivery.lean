import AppFleet.Proofs.Bus.Log
import Mathlib.Algebra.GroupWithZero.Nat
import Mathlib.Data.List.Induction
import Mathlib.Data.List.TakeWhile

/-! What a subscription is handed. Whatever else goes on on the bus, what was read from a subscription and
what still waits for it are the messages on its subject since it was made, until the bus closes; and a
subject has as many subscriptions as were made on it and neither dropped nor let go since. -/

namespace AppFleet.Bus

def Move.on? (subject : String) : Move → Option Envelope
  | deliver e => if e.subject = subject then some e else none
  | _ => none

def sentOn (subject : String) (ms : List Move) : List Envelope := ms.filterMap (Move.on? subject)

def heard (subject : String) : List Move → List Envelope
  | [] => []
  | m :: ms => if m = .close then [] else (m.on? subject).toList ++ heard subject ms

def Move.reads (id : Nat) (b : Bus) : Move → List Envelope
  | take other most => if other = id then (b.take id most).1 else []
  | _ => []

def read (id : Nat) (b : Bus) : List Move → List Envelope
  | [] => []
  | m :: ms => m.reads id b ++ read id (m.perform b) ms

variable {b : Bus} {s : Subscription} {subject : String} {id : Nat} {m : Move} {ms ms' : List Move}

theorem sentOn_cons (subject : String) (m : Move) (ms : List Move) :
    sentOn subject (m :: ms) = (m.on? subject).toList ++ sentOn subject ms := by
  cases h : m.on? subject <;> simp [sentOn, h]

theorem heard_of_not_close (h : .close ∉ ms) : heard subject ms = sentOn subject ms := by
  induction ms with
  | nil => rfl
  | cons m ms ih =>
    simp only [List.mem_cons, not_or] at h
    rw [heard, if_neg (Ne.symm h.1), ih h.2, sentOn_cons]

theorem heard_isPrefix (subject : String) (ms : List Move) : heard subject ms <+: sentOn subject ms := by
  induction ms with
  | nil => exact List.prefix_refl _
  | cons m ms ih =>
    rw [heard, sentOn_cons]
    split
    · exact List.nil_prefix
    · exact List.prefix_append_right_inj _ |>.2 ih

theorem heard_concat (subject : String) (ms : List Move) (m : Move) : heard subject (ms ++ [m]) =
    heard subject ms ++ if .close ∈ ms then [] else (m.on? subject).toList := by
  induction ms with
  | nil =>
    by_cases hm : m = .close
    · subst hm
      rfl
    · simp [heard, hm]
  | cons m' ms ih =>
    rw [List.cons_append, heard, heard, ih]
    by_cases hm : m' = .close
    · simp [hm]
    · simp [hm, Ne.symm hm]

theorem read_append (id : Nat) (b : Bus) (ms ms' : List Move) :
    read id b (ms ++ ms') = read id b ms ++ read id (b.after ms) ms' := by
  induction ms generalizing b with
  | nil => rfl
  | cons m ms ih => simp [read, ih]

theorem read_concat (id : Nat) (b : Bus) (ms : List Move) (m : Move) :
    read id b (ms ++ [m]) = read id b ms ++ m.reads id (b.after ms) := by
  simp [read_append, read]

theorem read_eq_nil (h : ∀ most, .take id most ∉ ms) : read id b ms = [] := by
  induction ms generalizing b with
  | nil => rfl
  | cons m ms ih =>
    have hreads : m.reads id b = [] := by
      cases m with
      | take other most =>
        have hne : other ≠ id := by
          rintro rfl
          exact h most (List.mem_cons_self ..)
        exact if_neg hne
      | _ => rfl
    rw [read, hreads, ih fun most hmem => h most (List.mem_cons_of_mem _ hmem)]
    rfl

/-- A subscription that was not dropped, and is in the table under its subject only. -/
structure Stands (b : Bus) (s : Subscription) : Prop where
  found : b.find? s.id = some s
  only : ∀ t, t ≠ s.subject → s.id ∉ b.registered t
  own : ∀ e ∈ s.waiting, e.subject = s.subject
  id_lt : s.id < b.nextId

/-- Ids that are still to come are nowhere to be found. -/
def Fresh (b : Bus) : Prop := ∀ id, b.nextId ≤ id → b.find? id = none ∧ ∀ t, id ∉ b.registered t

theorem fresh_empty : Fresh .empty := fun _ _ => ⟨rfl, fun _ => List.not_mem_nil⟩

theorem Fresh.perform (h : Fresh b) (m : Move) : Fresh (m.perform b) := by
  intro id hid
  rw [nextId_perform] at hid
  have hnew : ∀ t, m = .subscribe t → id ≠ b.nextId := by
    rintro t rfl
    exact Nat.ne_of_gt hid
  obtain ⟨hfind, hregistered⟩ := h id (Nat.le_of_add_right_le hid)
  refine ⟨find?_perform_eq_none hfind hnew, fun t ht => ?_⟩
  rcases mem_registered_of_perform ht with hmem | ⟨hm, heq⟩
  · exact hregistered t hmem
  · exact hnew t hm heq

theorem Fresh.after (h : Fresh b) (ms : List Move) : Fresh (b.after ms) := by
  induction ms generalizing b with
  | nil => exact h
  | cons m ms ih => exact ih (h.perform m)

theorem Fresh.stands (h : Fresh b) (subject : String) :
    Stands (b.subscribe subject).2 ⟨b.nextId, subject, []⟩ := by
  obtain ⟨hfind, hregistered⟩ := h b.nextId (Nat.le_refl _)
  refine ⟨find?_subscribe_self hfind subject, fun t ht => ?_, by simp, Nat.lt_succ_self _⟩
  rw [registered_subscribe_of_ne ht]
  exact hregistered t

/-- One move hands a subscription the message on its subject, as long as it is in the table, and takes
from the front what is read. -/
theorem Stands.reads_append (h : Stands b s) (m : Move) : m.reads s.id b ++ (m.handed b s).waiting =
    s.waiting ++ if s.id ∈ b.registered s.subject then (m.on? s.subject).toList else [] := by
  cases m with
  | deliver e =>
    by_cases he : e.subject = s.subject
    · by_cases hmem : s.id ∈ b.registered s.subject <;>
        simp [Move.reads, Move.handed, Move.on?, Subscription.receive, he, hmem]
    · simp [Move.reads, Move.handed, Move.on?, he, h.only _ he]
  | take other most =>
    by_cases ho : s.id = other
    · subst ho
      simp [Move.reads, Move.handed, Move.on?, take_fst h.found]
    · simp [Move.reads, Move.handed, Move.on?, ho, Ne.symm ho]
  | _ => simp [Move.reads, Move.handed, Move.on?]

theorem handed_eq (b : Bus) (s : Subscription) (m : Move) :
    m.handed b s = { s with waiting := (m.handed b s).waiting } := by
  cases m with
  | deliver e | take other most =>
    simp only [Move.handed]
    split <;> rfl
  | _ => rfl

theorem subject_of_mem_on? {e : Envelope} (h : e ∈ (m.on? subject).toList) : e.subject = subject := by
  cases m with
  | deliver e' =>
    simp only [Move.on?] at h
    split at h
    · rename_i he
      rw [← he, List.mem_singleton.1 h]
    · simp at h
  | _ => simp [Move.on?] at h

theorem Stands.perform (h : Stands b s) (hdrop : m ≠ .drop s.id) :
    Stands (m.perform b) { s with waiting := (m.handed b s).waiting } := by
  refine ⟨?_, fun t ht hmem => ?_, fun e he => ?_, ?_⟩
  · change (m.perform b).find? s.id = _
    rw [← handed_eq]
    exact find?_perform h.found h.id_lt hdrop
  · rcases mem_registered_of_perform hmem with hmem | ⟨-, heq⟩
    · exact h.only t ht hmem
    · exact Nat.ne_of_lt h.id_lt heq
  · have hmem : e ∈ m.reads s.id b ++ (m.handed b s).waiting := List.mem_append_right _ he
    rw [h.reads_append m] at hmem
    rcases List.mem_append.1 hmem with hmem | hmem
    · exact h.own e hmem
    · split at hmem
      · exact subject_of_mem_on? hmem
      · simp at hmem
  · exact Nat.lt_of_lt_of_le h.id_lt (nextId_perform b m ▸ Nat.le_add_right _ _)

theorem Stands.lasts (h : Stands b s) (hdrop : .drop s.id ∉ ms) :
    ∃ waiting, Stands (b.after ms) { s with waiting } := by
  induction ms generalizing b s with
  | nil => exact ⟨s.waiting, h⟩
  | cons m ms ih =>
    simp only [List.mem_cons, not_or] at hdrop
    have hperform := h.perform (Ne.symm hdrop.1)
    exact ih (s := { s with waiting := (m.handed b s).waiting }) hperform hdrop.2

theorem Stands.mem_perform_iff (h : Stands b s) (hforget : m ≠ .forget s.subject) :
    s.id ∈ (m.perform b).registered s.subject ↔ s.id ∈ b.registered s.subject ∧ m ≠ .close := by
  constructor
  · intro hmem
    rcases mem_registered_of_perform hmem with hbefore | ⟨-, heq⟩
    · refine ⟨hbefore, ?_⟩
      rintro rfl
      simp [Move.perform] at hmem
    · exact absurd heq (Nat.ne_of_lt h.id_lt)
  · rintro ⟨hmem, hclose⟩
    exact mem_registered_perform hmem (isHeld_iff.2 ⟨s, h.found⟩) hforget hclose

/-- Until it is dropped, a subscription that is in the table is handed all that is sent on its subject
before the bus closes, once and in order. -/
theorem Stands.after (h : Stands b s) (ms : List Move) (hdrop : .drop s.id ∉ ms)
    (hforget : .forget s.subject ∉ ms) :
    ∃ waiting, Stands (b.after ms) { s with waiting } ∧
      read s.id b ms ++ waiting =
        s.waiting ++ (if s.id ∈ b.registered s.subject then heard s.subject ms else []) ∧
      (s.id ∈ (b.after ms).registered s.subject ↔ s.id ∈ b.registered s.subject ∧ .close ∉ ms) := by
  induction ms using List.reverseRecOn with
  | nil => exact ⟨s.waiting, h, by simp [read, heard], by simp⟩
  | append_singleton ms m ih =>
    simp only [List.mem_append, List.mem_singleton, not_or] at hdrop hforget
    obtain ⟨waiting, hstands, hread, hopen⟩ := ih hdrop.1 hforget.1
    have hread' := hstands.reads_append m
    have hopen' := hstands.mem_perform_iff (Ne.symm hforget.2)
    refine ⟨_, by rw [after_concat]; exact hstands.perform (Ne.symm hdrop.2), ?_, ?_⟩
    · rw [read_concat, List.append_assoc, hread', ← List.append_assoc, hread, heard_concat,
        List.append_assoc]
      congr 1
      by_cases hregistered : s.id ∈ b.registered s.subject <;>
        by_cases hclose : Move.close ∈ ms <;> simp [hopen, hregistered, hclose]
    · rw [after_concat, List.mem_append, List.mem_singleton, not_or, hopen', hopen, and_assoc]
      exact and_congr_right fun _ => and_congr_right fun _ => ne_comm

/-- Nothing is read from a subscription that was dropped. -/
theorem read_of_not_found (hfind : b.find? id = none) (hlt : id < b.nextId) (ms : List Move) :
    read id b ms = [] ∧ (b.after ms).find? id = none := by
  induction ms generalizing b with
  | nil => exact ⟨rfl, hfind⟩
  | cons m ms ih =>
    have hnone := find?_perform_eq_none hfind fun t (_ : m = .subscribe t) => Nat.ne_of_lt hlt
    have hlt' : id < (m.perform b).nextId := by
      rw [nextId_perform]
      omega
    have hreads : m.reads id b = [] := by
      cases m with
      | take other most => simp [Move.reads, Bus.take, hfind]
      | _ => rfl
    obtain ⟨hread, hafter⟩ := ih hnone hlt'
    exact ⟨by rw [read, hreads, hread]; rfl, hafter⟩

def untilDropped (id : Nat) (ms : List Move) : List Move := ms.takeWhile (· ≠ .drop id)

theorem drop_not_mem_untilDropped : .drop id ∉ untilDropped id ms := by
  intro h
  simpa using List.mem_takeWhile_imp h

theorem read_untilDropped (hlt : id < b.nextId) (ms : List Move) :
    read id b ms = read id b (untilDropped id ms) := by
  induction ms generalizing b with
  | nil => rfl
  | cons m ms ih =>
    by_cases hm : m = .drop id
    · subst hm
      have hrest := (read_of_not_found (b := b.drop id) (find?_drop_self b id) hlt ms).1
      simpa [read, untilDropped, Move.reads, Move.perform] using hrest
    · have hlt' : id < (m.perform b).nextId := by
        rw [nextId_perform]
        omega
      simp only [untilDropped, List.takeWhile_cons, hm, ne_eq, not_false_eq_true, decide_true, if_true,
        read, ih hlt']

/-- The subscriptions on a subject that still get its messages. -/
def listeners (b : Bus) (subject : String) : List Nat := (b.registered subject).filter b.isHeld

theorem count_eq (b : Bus) (subject : String) : b.count subject = (b.listeners subject).length :=
  List.countP_eq_length_filter

/-- The subscriptions that some moves make on a subject and neither drop nor let go afterwards. -/
def present (subject : String) (next : Nat) : List Move → List Nat
  | [] => []
  | .subscribe t :: ms =>
    (if t = subject ∧ .drop next ∉ ms ∧ .forget subject ∉ ms ∧ .close ∉ ms then [next] else []) ++
      present subject (next + 1) ms
  | _ :: ms => present subject next ms

def Move.revise (subject : String) (next : Nat) (ids : List Nat) : Move → List Nat
  | subscribe t => if t = subject then ids ++ [next] else ids
  | drop id => ids.filter (· ≠ id)
  | forget t => if t = subject then [] else ids
  | close => []
  | _ => ids

theorem present_concat (subject : String) (next : Nat) (ms : List Move) (m : Move) :
    present subject next (ms ++ [m]) =
      m.revise subject (next + (ms.map Move.made).sum) (present subject next ms) := by
  induction ms generalizing next with
  | nil => cases m <;> simp [present, Move.revise]
  | cons m' ms ih =>
    cases m' with
    | subscribe t' =>
      rw [List.cons_append, present, present, ih]
      simp only [List.mem_append, List.mem_singleton, not_or]
      cases m with
      | subscribe t =>
        by_cases ht : t = subject <;> simp [Move.revise, Move.made, ht, Nat.add_assoc]
      | drop id =>
        rw [Move.revise, Move.revise, List.filter_append]
        congr 1
        by_cases hid : id = next
        · subst hid
          split <;> split <;> simp_all
        · split <;> split <;> simp_all [Ne.symm hid]
      | forget t =>
        by_cases ht : t = subject
        · subst ht
          simp [Move.revise]
        · simp [Move.revise, ht, Ne.symm ht]
      | _ => simp [Move.revise]
    | _ => simpa [present, Move.made] using ih next

theorem nextId_after (b : Bus) (ms : List Move) :
    (b.after ms).nextId = b.nextId + (ms.map Move.made).sum := by
  induction ms generalizing b with
  | nil => rfl
  | cons m ms ih =>
    rw [after_cons, ih, nextId_perform, List.map_cons, List.sum_cons]
    omega

theorem isHeld_perform (hlt : id < b.nextId) (hdrop : m ≠ .drop id) :
    (m.perform b).isHeld id = b.isHeld id := by
  rw [Bool.eq_iff_iff, isHeld_iff, isHeld_iff]
  constructor
  · rintro ⟨s, hs⟩
    by_contra hnone
    have hfind := Option.eq_none_iff_forall_ne_some.2 fun s hs => hnone ⟨s, hs⟩
    rw [find?_perform_eq_none hfind fun _ _ => Nat.ne_of_lt hlt] at hs
    cases hs
  · rintro ⟨s, hs⟩
    exact ⟨_, find?_perform hs hlt hdrop⟩

theorem listeners_perform (h : Fresh b) (subject : String) (m : Move) :
    (m.perform b).listeners subject = m.revise subject b.nextId (b.listeners subject) := by
  have hlt (id : Nat) (hid : id ∈ b.registered subject) : id < b.nextId := by
    by_contra hge
    exact (h id (Nat.le_of_not_lt hge)).2 subject hid
  have hheld (hdrop : ∀ id, m ≠ .drop id) :
      (b.registered subject).filter (m.perform b).isHeld = b.listeners subject :=
    List.filter_congr fun id hid => isHeld_perform (hlt id hid) (hdrop id)
  cases m with
  | subscribe t =>
    have hold := hheld (by simp)
    by_cases ht : t = subject
    · subst ht
      have hnew : (Move.perform b (.subscribe t)).isHeld b.nextId = true :=
        isHeld_iff.2 ⟨_, find?_subscribe_self (h b.nextId (Nat.le_refl _)).1 t⟩
      rw [listeners, Move.perform, registered_subscribe_self, List.filter_append]
      change (b.registered t).filter (Move.perform b (.subscribe t)).isHeld ++
        [b.nextId].filter (Move.perform b (.subscribe t)).isHeld = _
      simp [hold, hnew, Move.revise]
    · rw [listeners, Move.perform, registered_subscribe_of_ne (Ne.symm ht)]
      rw [Move.revise, if_neg ht]
      exact hold
  | drop id =>
    rw [Move.revise, listeners, listeners, List.filter_filter]
    refine List.filter_congr fun other hother => ?_
    by_cases hid : other = id
    · subst hid
      simp [Move.perform, isHeld_eq]
    · simp [Move.perform, isHeld_eq, find?_drop_of_ne hid, hid]
  | deliver e =>
    have hold := hheld (by simp)
    by_cases he : subject = e.subject
    · subst he
      have hstruck : (Move.perform b (.deliver e)).registered e.subject = b.listeners e.subject :=
        registered_deliver_self b e
      rw [listeners, hstruck, listeners, List.filter_filter]
      refine List.filter_congr fun id hid => ?_
      rw [isHeld_perform (m := .deliver e) (hlt id hid) (by simp), Bool.and_self]
    · rw [listeners, Move.perform, registered_deliver_of_ne he]
      exact hold
  | take other most => exact hheld (by simp)
  | openInbox => rfl
  | forget t =>
    by_cases ht : t = subject
    · subst ht
      simp [listeners, Move.perform, Move.revise]
    · rw [listeners, Move.perform, registered_forget_of_ne (Ne.symm ht)]
      rw [Move.revise, if_neg ht]
      exact hheld (by simp)
  | close => rfl

/-- A subject has as many subscriptions as were made on it and neither dropped nor let go since. -/
theorem listeners_after (subject : String) (ms : List Move) :
    (Bus.empty.after ms).listeners subject = present subject 0 ms := by
  induction ms using List.reverseRecOn with
  | nil => rfl
  | append_singleton ms m ih =>
    rw [after_concat, listeners_perform (fresh_empty.after ms), ih, present_concat, nextId_after]
    rfl

theorem Stands.mem_registered_iff (h : Stands b s) (hdrop : .drop s.id ∉ ms) :
    s.id ∈ (b.after ms).registered s.subject ↔
      s.id ∈ b.registered s.subject ∧ .close ∉ ms ∧ .forget s.subject ∉ ms := by
  induction ms using List.reverseRecOn with
  | nil => simp
  | append_singleton ms m ih =>
    simp only [List.mem_append, List.mem_singleton, not_or] at hdrop ⊢
    obtain ⟨waiting, hstands⟩ := h.lasts hdrop.1
    rw [after_concat]
    by_cases hm : m = .forget s.subject
    · subst hm
      simp [Move.perform]
    · rw [hstands.mem_perform_iff hm, ih hdrop.1]
      have hforget : .forget s.subject ≠ m := Ne.symm hm
      have hclose : m ≠ .close ↔ .close ≠ m := ne_comm
      tauto

/-- A subscription that is in the table ends when it is dropped or let go, or when the bus closes. -/
theorem Stands.isEnded_iff (h : Stands b s) (hmem : s.id ∈ b.registered s.subject) (ms : List Move) :
    (b.after ms).isEnded s.id = true ↔
      .drop s.id ∈ ms ∨ .close ∈ ms ∨ .forget s.subject ∈ ms := by
  by_cases hdrop : .drop s.id ∈ ms
  · obtain ⟨before, rest, rfl⟩ := List.append_of_mem hdrop
    have hlt : s.id < ((b.after before).drop s.id).nextId :=
      Nat.lt_of_lt_of_le h.id_lt ((nextId_after b before).symm ▸ Nat.le_add_right _ _)
    have hnone := (read_of_not_found (find?_drop_self _ s.id) hlt rest).2
    rw [after_append, after_cons]
    change isEnded (((b.after before).drop s.id).after rest) s.id = true ↔ _
    simp [isEnded, hnone]
  · obtain ⟨waiting, hstands⟩ := h.lasts hdrop
    have hfound : (b.after ms).find? s.id = some { s with waiting } := hstands.found
    have hregistered := h.mem_registered_iff hdrop
    simp only [isEnded, hfound, Option.any_some, Bool.not_eq_true', decide_eq_false_iff_not,
      hregistered, hmem, hdrop, true_and, false_or]
    tauto

end AppFleet.Bus
