import AppFleet.Bus.Basic
import AppFleet.Proofs.Ledger.Keys

/-! What is done with a bus, as a log of single moves, and what each move leaves of a subscription and of
the table. -/

namespace AppFleet

namespace Bus

inductive Move where
  | subscribe (subject : String)
  | drop (id : Nat)
  | deliver (e : Envelope)
  | take (id most : Nat)
  | openInbox
  | forget (subject : String)
  | close
deriving DecidableEq

def Move.perform (b : Bus) : Move → Bus
  | subscribe subject => (b.subscribe subject).2
  | drop id => b.drop id
  | deliver e => b.deliver e
  | take id most => (b.take id most).2
  | openInbox => b.openInbox.2
  | forget subject => b.forget subject
  | close => b.close

def after (b : Bus) (ms : List Move) : Bus := ms.foldl Move.perform b

variable {b : Bus} {id : Nat} {s : Subscription} {subject t : String} {e : Envelope}

@[simp] theorem after_nil (b : Bus) : b.after [] = b := rfl

@[simp] theorem after_cons (b : Bus) (m : Move) (ms : List Move) :
    b.after (m :: ms) = (m.perform b).after ms := rfl

theorem after_append (b : Bus) (ms ms' : List Move) : b.after (ms ++ ms') = (b.after ms).after ms' :=
  List.foldl_append

@[simp] theorem after_concat (b : Bus) (ms : List Move) (m : Move) :
    b.after (ms ++ [m]) = m.perform (b.after ms) := by
  simp [after]

theorem isHeld_eq (b : Bus) (id : Nat) : b.isHeld id = (b.find? id).isSome := by
  rw [isHeld, find?, Bool.eq_iff_iff]
  simp

theorem isHeld_iff : b.isHeld id = true ↔ ∃ s, b.find? id = some s := by
  rw [isHeld_eq, Option.isSome_iff_exists]

theorem id_of_find? (h : b.find? id = some s) : s.id = id := by
  simpa using List.find?_some h

theorem find?_map {f : Subscription → Subscription} (hf : ∀ s, (f s).id = s.id) (b : Bus) (id : Nat) :
    (b.subscriptions.map f).find? (·.id = id) = (b.find? id).map f := by
  rw [List.find?_map]
  congr 2
  funext s
  simp [hf]

theorem find?_deliver (b : Bus) (e : Envelope) (id : Nat) : (b.deliver e).find? id =
    (b.find? id).map fun s => if id ∈ b.registered e.subject then s.receive e else s := by
  unfold deliver registered
  cases hids : b.table.get? e.subject with
  | none => simp
  | some ids =>
    have hkeeps : ∀ s : Subscription,
        (if s.id ∈ ids.filter b.isHeld then s.receive e else s).id = s.id := by
      intro s
      split <;> rfl
    change (b.subscriptions.map _).find? _ = _
    rw [find?_map hkeeps]
    cases hs : b.find? id with
    | none => rfl
    | some s => simp [id_of_find? hs, isHeld_iff.2 ⟨s, hs⟩]

theorem registered_deliver_self (b : Bus) (e : Envelope) :
    (b.deliver e).registered e.subject = (b.registered e.subject).filter b.isHeld := by
  unfold deliver registered
  cases hids : b.table.get? e.subject with
  | none => simp [hids]
  | some ids =>
    dsimp only
    split
    · rename_i hempty
      simp [List.isEmpty_iff.1 hempty]
    · simp

theorem registered_deliver_of_ne (h : t ≠ e.subject) : (b.deliver e).registered t = b.registered t := by
  unfold deliver registered
  cases hids : b.table.get? e.subject with
  | none => rfl
  | some ids =>
    dsimp only
    split
    · rw [Table.get?_erase_of_ne _ h]
    · rw [Table.get?_put_of_ne _ _ h]

@[simp] theorem nextId_deliver (b : Bus) (e : Envelope) : (b.deliver e).nextId = b.nextId := by
  unfold deliver
  split <;> rfl

@[simp] theorem nextInbox_deliver (b : Bus) (e : Envelope) : (b.deliver e).nextInbox = b.nextInbox := by
  unfold deliver
  split <;> rfl

theorem find?_subscribe_of_ne (h : id ≠ b.nextId) : (b.subscribe subject).2.find? id = b.find? id := by
  simp [subscribe, find?, List.find?_append, Ne.symm h]

theorem find?_subscribe_self (h : b.find? b.nextId = none) (subject : String) :
    (b.subscribe subject).2.find? b.nextId = some ⟨b.nextId, subject, []⟩ := by
  have hnone : b.subscriptions.find? (·.id = b.nextId) = none := h
  simp [subscribe, find?, List.find?_append, hnone]

@[simp] theorem registered_subscribe_self (b : Bus) (subject : String) :
    (b.subscribe subject).2.registered subject = b.registered subject ++ [b.nextId] := by
  simp [subscribe, registered]

theorem registered_subscribe_of_ne (h : t ≠ subject) :
    (b.subscribe subject).2.registered t = b.registered t := by
  unfold subscribe registered
  rw [Table.get?_put_of_ne _ _ h]

theorem find?_drop_of_ne {other : Nat} (h : id ≠ other) : (b.drop other).find? id = b.find? id := by
  simp only [drop, find?, List.find?_filter]
  congr 1
  funext s
  grind

@[simp] theorem find?_drop_self (b : Bus) (id : Nat) : (b.drop id).find? id = none := by
  simp [drop, find?]

theorem find?_take (b : Bus) (other most id : Nat) : (b.take other most).2.find? id =
    (b.find? id).map fun s => if id = other then { s with waiting := s.waiting.drop most } else s := by
  have hkeeps : ∀ s : Subscription,
      (if s.id = other then { s with waiting := s.waiting.drop most } else s).id = s.id := by
    intro s
    split <;> rfl
  change (b.subscriptions.map _).find? _ = _
  rw [find?_map hkeeps]
  cases hs : b.find? id with
  | none => rfl
  | some s => simp [id_of_find? hs]

theorem take_fst (h : b.find? id = some s) (most : Nat) : (b.take id most).1 = s.waiting.take most := by
  simp [take, h]

@[simp] theorem registered_forget_self (b : Bus) (subject : String) :
    (b.forget subject).registered subject = [] := by
  simp [forget, registered]

theorem registered_forget_of_ne (h : t ≠ subject) : (b.forget subject).registered t = b.registered t := by
  unfold forget registered
  rw [Table.get?_erase_of_ne _ h]

@[simp] theorem registered_close (b : Bus) (t : String) : b.close.registered t = [] := rfl

def Move.made : Move → Nat
  | subscribe _ => 1
  | _ => 0

theorem nextId_perform (b : Bus) (m : Move) : (m.perform b).nextId = b.nextId + m.made := by
  cases m with
  | deliver e => exact nextId_deliver b e
  | _ => rfl

def Move.handed (b : Bus) (s : Subscription) : Move → Subscription
  | deliver e => if s.id ∈ b.registered e.subject then s.receive e else s
  | take other most => if s.id = other then { s with waiting := s.waiting.drop most } else s
  | _ => s

variable {m : Move}

theorem find?_perform (h : b.find? id = some s) (hlt : id < b.nextId) (hdrop : m ≠ .drop id) :
    (m.perform b).find? id = some (m.handed b s) := by
  cases m with
  | subscribe subject => exact (find?_subscribe_of_ne (Nat.ne_of_lt hlt)).trans h
  | drop other =>
    have hne : id ≠ other := by
      rintro rfl
      exact hdrop rfl
    exact (find?_drop_of_ne hne).trans h
  | deliver e => simp [Move.perform, find?_deliver, h, Move.handed, id_of_find? h]
  | take other most => simp [Move.perform, find?_take, h, Move.handed, id_of_find? h]
  | openInbox | forget subject | close => exact h

theorem find?_perform_eq_none (h : b.find? id = none) (hnew : ∀ t, m = .subscribe t → id ≠ b.nextId) :
    (m.perform b).find? id = none := by
  cases m with
  | subscribe subject => exact (find?_subscribe_of_ne (hnew subject rfl)).trans h
  | drop other =>
    by_cases ho : id = other
    · subst ho
      exact find?_drop_self b id
    · exact (find?_drop_of_ne ho).trans h
  | deliver e => simp [Move.perform, find?_deliver, h]
  | take other most => simp [Move.perform, find?_take, h]
  | openInbox | forget subject | close => exact h

/-- Nobody gets into the table but by a new subscription. -/
theorem mem_registered_of_perform (h : id ∈ (m.perform b).registered t) :
    id ∈ b.registered t ∨ m = .subscribe t ∧ id = b.nextId := by
  cases m with
  | subscribe subject =>
    by_cases ht : t = subject
    · subst ht
      simpa [Move.perform] using h
    · rw [Move.perform, registered_subscribe_of_ne ht] at h
      exact .inl h
  | deliver e =>
    by_cases ht : t = e.subject
    · subst ht
      rw [Move.perform, registered_deliver_self] at h
      exact .inl (List.mem_filter.1 h).1
    · rw [Move.perform, registered_deliver_of_ne ht] at h
      exact .inl h
  | forget subject =>
    by_cases ht : t = subject
    · subst ht
      simp [Move.perform] at h
    · rw [Move.perform, registered_forget_of_ne ht] at h
      exact .inl h
  | close => simp [Move.perform] at h
  | drop other | take other most | openInbox => exact .inl h

theorem registered_after_eq_nil {ms : List Move} (h : b.registered t = []) (hms : .subscribe t ∉ ms) :
    (b.after ms).registered t = [] := by
  induction ms generalizing b with
  | nil => exact h
  | cons m ms ih =>
    refine ih (List.eq_nil_iff_forall_not_mem.2 fun id hid => ?_) fun hmem => hms (.tail _ hmem)
    rcases mem_registered_of_perform hid with hid | ⟨rfl, -⟩
    · simp [h] at hid
    · exact hms (.head _)

/-- Who is in the table stays there until it is dropped or let go. -/
theorem mem_registered_perform (h : id ∈ b.registered t) (hheld : b.isHeld id = true)
    (hforget : m ≠ .forget t) (hclose : m ≠ .close) : id ∈ (m.perform b).registered t := by
  cases m with
  | subscribe subject =>
    by_cases ht : t = subject
    · subst ht
      simp [Move.perform, h]
    · rwa [Move.perform, registered_subscribe_of_ne ht]
  | deliver e =>
    by_cases ht : t = e.subject
    · subst ht
      rw [Move.perform, registered_deliver_self]
      exact List.mem_filter.2 ⟨h, hheld⟩
    · rwa [Move.perform, registered_deliver_of_ne ht]
  | forget subject =>
    have hne : t ≠ subject := by
      rintro rfl
      exact hforget rfl
    rwa [Move.perform, registered_forget_of_ne hne]
  | close => exact absurd rfl hclose
  | drop other | take other most | openInbox => exact h

end Bus

end AppFleet
