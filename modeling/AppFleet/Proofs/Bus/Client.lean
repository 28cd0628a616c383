import AppFleet.Bus.Remote
import AppFleet.Proofs.Bus.Delivery

/-! A client of a bus that another process serves. Its calls and its reader go on when they like. -/

namespace AppFleet

inductive Joining where
  /-- It listens to what comes in. -/
  | listening (subject : String) (id : Nat)
  /-- It was the first to look, so it is up to it to ask the server. -/
  | asking (subject : String) (id : Nat)
  | finished (subject : String) (id : Nat) (outcome : Except BusError Nat)

namespace Joining

def subject : Joining → String
  | listening subject _ | asking subject _ | finished subject _ _ => subject

def id : Joining → Nat
  | listening _ id | asking _ id | finished _ id _ => id

def HasLooked : Joining → Prop
  | listening .. => False
  | _ => True

/-- One turn, up to where the call waits again. -/
def turn (r : Remote) : Joining → Joining × Remote
  | listening subject id =>
    if subject ∈ r.forwarded then (finished subject id (.ok id), r)
    else (asking subject id, { r with forwarded := r.forwarded ++ [subject] })
  | asking subject id =>
    match r.send (.subscribe subject) with
    | (.ok (), r) => (finished subject id (.ok id), r)
    | (.error e, r) => (finished subject id (.error e), r.drop id)
  | finished subject id outcome => (finished subject id outcome, r)

def moves (r : Remote) : Joining → List Bus.Move
  | asking _ id => if r.isClosed then [.drop id] else []
  | _ => []

theorem turn_asking (r : Remote) (subject : String) (id : Nat) :
    (asking subject id).turn r =
      if r.isClosed then (finished subject id (.error .closed), r.drop id)
      else (finished subject id (.ok id), { r with sent := r.sent ++ [.subscribe subject] }) := by
  cases h : r.isClosed <;> simp [turn, Remote.send, h]

@[simp] theorem subject_turn (call : Joining) (r : Remote) : (call.turn r).1.subject = call.subject := by
  cases call with
  | listening | asking =>
    simp only [turn]
    split <;> rfl
  | finished => rfl

@[simp] theorem id_turn (call : Joining) (r : Remote) : (call.turn r).1.id = call.id := by
  cases call with
  | listening | asking =>
    simp only [turn]
    split <;> rfl
  | finished => rfl

theorem hasLooked_turn (call : Joining) (r : Remote) : (call.turn r).1.HasLooked := by
  cases call with
  | listening | asking =>
    simp only [turn]
    split <;> trivial
  | finished => trivial

theorem turn_bus (call : Joining) (r : Remote) : (call.turn r).2.bus = r.bus.after (call.moves r) := by
  cases call with
  | listening =>
    simp only [turn]
    split <;> rfl
  | asking =>
    simp only [turn_asking, moves]
    split <;> rfl
  | finished => rfl

theorem turn_isClosed (call : Joining) (r : Remote) : (call.turn r).2.isClosed = r.isClosed := by
  cases call with
  | listening =>
    simp only [turn]
    split <;> rfl
  | asking =>
    simp only [turn_asking]
    split <;> rfl
  | finished => rfl

theorem turn_forwarded (call : Joining) (r : Remote) (t : String) :
    t ∈ (call.turn r).2.forwarded ↔ t ∈ r.forwarded ∨ call.subject = t ∧ ¬ call.HasLooked := by
  cases call with
  | listening subject id =>
    simp only [turn, HasLooked, not_false_eq_true, and_true]
    split
    · constructor
      · exact .inl
      · rintro (h | rfl)
        · exact h
        · assumption
    · simp [Joining.subject, eq_comm]
  | asking =>
    simp only [turn_asking, HasLooked, not_true_eq_false, and_false, or_false]
    split <;> rfl
  | finished => simp [turn, HasLooked]

end Joining

structure Client where
  remote : Remote
  /-- The reader has told all that wait for messages that there will be no more. -/
  hasEnded : Bool
  /-- The calls to subscribe, in the order in which they began to listen. -/
  calls : List Joining

namespace Client

def start : Client := ⟨.connected, false, []⟩

inductive Event where
  /-- A call begins, and listens. -/
  | subscribe (subject : String)
  /-- A call goes on. -/
  | turn (k : Nat)
  | take (id most : Nat)
  | drop (id : Nat)
  /-- A request listens on a reply subject of its own. -/
  | listen
  /-- A request lets its reply subject go. -/
  | forget (subject : String)
  | send (f : Frame)
  /-- The server sends a message. -/
  | deliver (e : Envelope)
  /-- The reader or the writer finds that the connection has ended. -/
  | stopSending
  /-- The reader lets all that listen go. -/
  | close

/-- One step. The reader stops with the connection, and lets go after that. -/
def step (c : Client) : Event → Client
  | .subscribe subject =>
    let (id, bus) := c.remote.bus.subscribe subject
    { c with remote := { c.remote with bus }, calls := c.calls ++ [.listening subject id] }
  | .turn k =>
    match c.calls[k]? with
    | some call =>
      let (call, remote) := call.turn c.remote
      { c with remote, calls := c.calls.set k call }
    | none => c
  | .take id most => { c with remote := { c.remote with bus := (c.remote.bus.take id most).2 } }
  | .drop id => { c with remote := c.remote.drop id }
  | .listen => { c with remote := { c.remote with bus := (Exchange.listen c.remote.bus).2 } }
  | .forget subject => { c with remote := { c.remote with bus := c.remote.bus.forget subject } }
  | .send f => { c with remote := (c.remote.send f).2 }
  | .deliver e => if c.hasEnded then c else { c with remote := c.remote.read (.frame (.message e)) }
  | .stopSending => { c with remote := c.remote.stopSending }
  | .close =>
    if c.remote.isClosed && !c.hasEnded then
      { c with remote := { c.remote with bus := c.remote.bus.close }, hasEnded := true }
    else c

def after (c : Client) (es : List Event) : Client := es.foldl step c

variable {c : Client} {e : Event} {es : List Event} {k : Nat} {call : Joining}

def moves (c : Client) : Event → List Bus.Move
  | .subscribe subject => [.subscribe subject]
  | .turn k => (c.calls[k]?.map (·.moves c.remote)).getD []
  | .take id most => [.take id most]
  | .drop id => [.drop id]
  | .listen => [.openInbox, .subscribe (Subject.inbox c.remote.bus.nextInbox)]
  | .forget subject => [.forget subject]
  | .deliver e => if c.hasEnded then [] else [.deliver e]
  | .close => if c.remote.isClosed && !c.hasEnded then [.close] else []
  | .send _ | .stopSending => []

def log (c : Client) : List Event → List Bus.Move
  | [] => []
  | e :: es => c.moves e ++ (c.step e).log es

def proceed (c : Client) (k : Nat) (call : Joining) : Event → Joining
  | .turn j => if j = k then (call.turn c.remote).1 else call
  | _ => call

@[simp] theorem after_nil (c : Client) : c.after [] = c := rfl

@[simp] theorem after_cons (c : Client) (e : Event) (es : List Event) :
    c.after (e :: es) = (c.step e).after es := rfl

theorem after_append (c : Client) (es es' : List Event) :
    c.after (es ++ es') = (c.after es).after es' :=
  List.foldl_append

theorem bus_step (c : Client) (e : Event) :
    (c.step e).remote.bus = c.remote.bus.after (c.moves e) := by
  cases e with
  | turn k =>
    simp only [step, moves]
    cases c.calls[k]? with
    | none => rfl
    | some call => exact call.turn_bus c.remote
  | deliver e | close =>
    simp only [step, moves]
    split <;> rfl
  | send f =>
    simp only [step, moves, Remote.send]
    split <;> rfl
  | _ => rfl

theorem bus_after (c : Client) (es : List Event) :
    (c.after es).remote.bus = c.remote.bus.after (c.log es) := by
  induction es generalizing c with
  | nil => rfl
  | cons e es ih => rw [after_cons, ih, bus_step, log, Bus.after_append]

theorem getElem?_step (h : c.calls[k]? = some call) (e : Event) :
    (c.step e).calls[k]? = some (c.proceed k call e) := by
  cases e with
  | subscribe subject =>
    exact (List.getElem?_append_left (List.getElem?_eq_some_iff.1 h).1).trans h
  | turn j =>
    simp only [step, proceed]
    by_cases hj : j = k
    · subst hj
      rw [h, if_pos rfl]
      exact List.getElem?_set_self (List.getElem?_eq_some_iff.1 h).1
    · cases c.calls[j]? with
      | none => simpa [hj] using h
      | some _ => simpa [hj, List.getElem?_set_ne hj] using h
  | deliver e | close =>
    simp only [step]
    split <;> exact h
  | _ => exact h

theorem getElem?_of_step (h : (c.step e).calls[k]? = some call) :
    (∃ call', c.calls[k]? = some call' ∧ call = c.proceed k call' e) ∨
      ∃ subject, e = .subscribe subject ∧ k = c.calls.length ∧
        call = .listening subject c.remote.bus.nextId := by
  cases hk : c.calls[k]? with
  | some call' =>
    rw [getElem?_step hk] at h
    exact .inl ⟨call', rfl, (Option.some.inj h).symm⟩
  | none =>
    have hle := List.getElem?_eq_none_iff.1 hk
    have hlt := (List.getElem?_eq_some_iff.1 h).1
    cases e with
    | subscribe subject =>
      have hlt' : k < c.calls.length + 1 := by simpa [step] using hlt
      obtain rfl : k = c.calls.length := by omega
      exact .inr ⟨subject, rfl, rfl, by simpa [step, Bus.subscribe] using h.symm⟩
    | turn j =>
      simp only [step] at hlt
      split at hlt
      · rw [List.length_set] at hlt
        omega
      · omega
    | deliver e | close =>
      simp only [step] at hlt
      split at hlt <;> exact absurd hlt (Nat.not_lt.2 hle)
    | _ => exact absurd hlt (Nat.not_lt.2 hle)

/-- What a client keeps. A subject counts as asked for once a call on it has looked. -/
structure Sound (c : Client) : Prop where
  fresh : c.remote.bus.Fresh
  id_lt : ∀ (k : Nat) (call : Joining), c.calls[k]? = some call → call.id < c.remote.bus.nextId
  apart : ∀ (j k : Nat) (call call' : Joining), c.calls[j]? = some call → c.calls[k]? = some call' →
    call.id = call'.id → j = k
  forwarded : ∀ t, t ∈ c.remote.forwarded ↔
    ∃ (k : Nat) (call : Joining), c.calls[k]? = some call ∧ call.subject = t ∧ call.HasLooked
  closed : c.hasEnded → c.remote.isClosed

theorem sound_start : Sound start :=
  ⟨Bus.fresh_empty, nofun, nofun, by simp [start, Remote.connected], nofun⟩

@[simp] theorem id_proceed (c : Client) (k : Nat) (call : Joining) (e : Event) :
    (c.proceed k call e).id = call.id := by
  cases e with
  | turn j =>
    simp only [proceed]
    split <;> simp
  | _ => rfl

@[simp] theorem subject_proceed (c : Client) (k : Nat) (call : Joining) (e : Event) :
    (c.proceed k call e).subject = call.subject := by
  cases e with
  | turn j =>
    simp only [proceed]
    split <;> simp
  | _ => rfl

theorem hasLooked_proceed : (c.proceed k call e).HasLooked ↔ call.HasLooked ∨ e = .turn k := by
  cases e with
  | turn j =>
    simp only [proceed]
    split
    · rename_i hj
      simp [hj, Joining.hasLooked_turn]
    · rename_i hj
      simp [hj]
  | _ => simp [proceed]

/-- A subject is noted when a call on it looks. -/
theorem forwarded_step (c : Client) (e : Event) (t : String) : t ∈ (c.step e).remote.forwarded ↔
    t ∈ c.remote.forwarded ∨ ∃ k call, e = .turn k ∧ c.calls[k]? = some call ∧ call.subject = t ∧
      ¬ call.HasLooked := by
  cases e with
  | turn k =>
    simp only [step]
    cases hk : c.calls[k]? with
    | none => simp [hk]
    | some call => simp [Joining.turn_forwarded, hk]
  | deliver e | close =>
    simp only [step]
    split <;> simp [Remote.read]
  | send f =>
    simp only [step, Remote.send]
    split <;> simp
  | _ => simp [step, Remote.drop, Remote.stopSending]

theorem hasEnded_step : (c.step e).hasEnded ↔ c.hasEnded ∨ e = .close ∧ c.remote.isClosed := by
  cases e with
  | turn k =>
    simp only [step]
    cases c.calls[k]? <;> simp
  | deliver e =>
    simp only [step]
    split <;> simp
  | close =>
    simp only [step, Bool.and_eq_true, Bool.not_eq_true']
    split <;> grind
  | _ => simp [step]

theorem after_subscribe (c : Client) (subject : String) :
    let c' := c.after [.subscribe subject, .turn c.calls.length, .turn c.calls.length]
    c'.remote = (c.remote.subscribe subject).2 ∧
      c'.calls = c.calls ++ [.finished subject c.remote.bus.nextId (c.remote.subscribe subject).1] := by
  by_cases hmem : subject ∈ c.remote.forwarded
  · simp [step, Remote.subscribe, Bus.subscribe, Joining.turn, hmem]
  · cases hclosed : c.remote.isClosed <;>
      simp [step, Remote.subscribe, Bus.subscribe, Joining.turn, Remote.send, Remote.drop, hmem, hclosed]

theorem after_hangUp (h : c.hasEnded = false) :
    (c.after [.stopSending, .close]).remote = c.remote.hangUp := by
  simp [step, h, Remote.hangUp, Remote.stopSending]

theorem after_startRequest (c : Client) (now : Nat) (horizon : Horizon) (q : Request) :
    (c.remote.startRequest now horizon q).2 = (c.after (.listen ::
      if c.remote.isClosed then [.drop c.remote.bus.nextId]
      else .send (.subscribe (Subject.inbox c.remote.bus.nextInbox)) :: .send (.publish
        ⟨q.subject, q.payload, some (Subject.inbox c.remote.bus.nextInbox)⟩) ::
          if q.timeoutMs ≤ horizon.ms then [] else [.drop c.remote.bus.nextId])).remote := by
  cases hclosed : c.remote.isClosed <;> by_cases hreach : q.timeoutMs ≤ horizon.ms <;>
    simp [step, Remote.startRequest, Exchange.listen, Exchange.await?, Remote.send, Remote.drop,
      hclosed, hreach, Bus.openInbox, Bus.subscribe]

theorem after_poll (c : Client) (x : Exchange) (now : Nat) :
    ∃ most, (c.remote.poll x now).2.2 = (c.after (.take x.subscription most ::
      if (c.remote.poll x now).1.isSome then
        [.drop x.subscription, .forget x.inbox, .send (.unsubscribe x.inbox)]
      else [])).remote := by
  refine ⟨x.wanted (((c.remote.bus.find? x.subscription).map (·.waiting.length)).getD 0), ?_⟩
  cases hfinished : (x.collect c.remote.bus).1.outcome? (x.collect c.remote.bus).2 now with
  | none =>
    have hpoll : x.poll c.remote.bus now =
        (none, (x.collect c.remote.bus).1, (x.collect c.remote.bus).2) := by
      simp only [Exchange.poll, hfinished]
    simp only [Remote.poll, hpoll]
    rfl
  | some replies =>
    have hpoll : x.poll c.remote.bus now = (some replies, (x.collect c.remote.bus).1,
        (x.collect c.remote.bus).1.finish (x.collect c.remote.bus).2) := by
      simp only [Exchange.poll, hfinished]
    simp only [Remote.poll, hpoll]
    rfl

theorem isClosed_step (h : c.remote.isClosed) (e : Event) : (c.step e).remote.isClosed := by
  cases e with
  | turn k =>
    simp only [step]
    cases c.calls[k]? with
    | none => exact h
    | some call => exact (call.turn_isClosed c.remote).trans h
  | deliver e | close =>
    simp only [step]
    split <;> exact h
  | send f => simp [step, Remote.send, h]
  | stopSending => rfl
  | _ => exact h

theorem nextId_le_step (c : Client) (e : Event) :
    c.remote.bus.nextId ≤ (c.step e).remote.bus.nextId := by
  rw [bus_step, Bus.nextId_after]
  exact Nat.le_add_right _ _

theorem Sound.step (h : Sound c) (e : Event) : Sound (c.step e) := by
  refine ⟨bus_step c e ▸ h.fresh.after _, fun k call hcall => ?_, fun j k call call' hcall hcall' heq => ?_,
    fun t => ?_, fun hended => ?_⟩
  · rcases getElem?_of_step hcall with ⟨old, hold, rfl⟩ | ⟨subject, rfl, -, rfl⟩
    · rw [id_proceed]
      exact Nat.lt_of_lt_of_le (h.id_lt k old hold) (nextId_le_step c e)
    · exact Nat.lt_succ_self _
  · rcases getElem?_of_step hcall with ⟨old, hold, rfl⟩ | ⟨subject, rfl, rfl, rfl⟩ <;>
      rcases getElem?_of_step hcall' with ⟨old', hold', rfl⟩ | ⟨subject', hsubject, rfl, rfl⟩
    · exact h.apart j k old old' hold hold' (by simpa using heq)
    · rw [id_proceed] at heq
      exact absurd heq (Nat.ne_of_lt (h.id_lt j old hold))
    · exact absurd heq.symm (Nat.ne_of_lt (h.id_lt k _ hold'))
    · rfl
  · rw [forwarded_step, h.forwarded]
    constructor
    · rintro (⟨k, call, hcall, rfl, hlooked⟩ | ⟨k, call, rfl, hcall, rfl, -⟩)
      · exact ⟨k, _, getElem?_step hcall e, subject_proceed .., hasLooked_proceed.2 (.inl hlooked)⟩
      · exact ⟨k, _, getElem?_step hcall _, subject_proceed .., hasLooked_proceed.2 (.inr rfl)⟩
    · rintro ⟨k, call, hcall, rfl, hlooked⟩
      rcases getElem?_of_step hcall with ⟨old, hold, rfl⟩ | ⟨subject, -, -, rfl⟩
      · rw [subject_proceed]
        by_cases hbefore : old.HasLooked
        · exact .inl ⟨k, old, hold, rfl, hbefore⟩
        · have hturn := (hasLooked_proceed.1 hlooked).resolve_left hbefore
          exact .inr ⟨k, old, hturn, hold, rfl, hbefore⟩
      · exact hlooked.elim
  · refine isClosed_step ?_ e
    rcases hasEnded_step.1 hended with hended | ⟨-, hclosed⟩
    · exact h.closed hended
    · exact hclosed

theorem Sound.after (h : Sound c) (es : List Event) : Sound (c.after es) := by
  induction es generalizing c with
  | nil => exact h
  | cons e es ih => exact ih (h.step e)

theorem hasEnded_after (h : c.hasEnded) (es : List Event) : (c.after es).hasEnded := by
  induction es generalizing c with
  | nil => exact h
  | cons e es ih => exact ih (hasEnded_step.2 (.inl h))

/-- The reader lets go once, when the connection ends. -/
theorem close_mem_log : .close ∈ c.log es ↔ ¬ c.hasEnded ∧ (c.after es).hasEnded := by
  induction es generalizing c with
  | nil => simp [log]
  | cons e es ih =>
    have hmoves : .close ∈ c.moves e ↔ ¬ c.hasEnded ∧ (c.step e).hasEnded := by
      rw [hasEnded_step]
      cases e with
      | turn k =>
        simp only [moves]
        cases c.calls[k]? with
        | none => simp
        | some call => cases call <;> simp [Joining.moves]
      | deliver e =>
        simp only [moves]
        split <;> simp
      | close =>
        simp only [moves]
        split <;> grind
      | _ => simp [moves]
    rw [log, List.mem_append, hmoves, ih, after_cons]
    have hstays : (c.step e).hasEnded → ((c.step e).after es).hasEnded := fun h => hasEnded_after h es
    have hkept : c.hasEnded → (c.step e).hasEnded := fun h => hasEnded_step.2 (.inl h)
    tauto

theorem forget_mem_log {t : String} : .forget t ∈ c.log es ↔ .forget t ∈ es := by
  induction es generalizing c with
  | nil => simp [log]
  | cons e es ih =>
    have hmoves : .forget t ∈ c.moves e ↔ .forget t = e := by
      cases e with
      | turn k =>
        simp only [moves]
        cases c.calls[k]? with
        | none => simp
        | some call => cases call <;> simp [Joining.moves]
      | deliver e | close =>
        simp only [moves]
        split <;> simp
      | _ => simp [moves]
    rw [log, List.mem_append, hmoves, ih, List.mem_cons]

theorem drop_mem_moves {id : Nat} : .drop id ∈ c.moves e ↔ e = .drop id ∨
    ∃ k subject, e = .turn k ∧ c.calls[k]? = some (.asking subject id) ∧ c.remote.isClosed := by
  cases e with
  | turn k =>
    simp only [moves]
    cases hk : c.calls[k]? with
    | none => simp [hk]
    | some call => cases call <;> simp [Joining.moves, hk, and_comm, @eq_comm _ id]
  | deliver e | close =>
    simp only [moves]
    split <;> simp
  | drop other => simp [moves, @eq_comm _ id]
  | _ => simp [moves]

theorem finished_after {subject : String} {id : Nat} {outcome : Except BusError Nat}
    (h : c.calls[k]? = some (.finished subject id outcome)) (es : List Event) :
    (c.after es).calls[k]? = some (.finished subject id outcome) := by
  induction es generalizing c with
  | nil => exact h
  | cons e es ih =>
    refine ih ((getElem?_step h e).trans ?_)
    cases e <;> simp [proceed, Joining.turn]

theorem drop_mem_log {id : Nat} (h : .drop id ∈ es) : .drop id ∈ c.log es := by
  induction es generalizing c with
  | nil => simp at h
  | cons e es ih =>
    rcases List.mem_cons.1 h with rfl | h
    · exact List.mem_append_left _ (drop_mem_moves.2 (.inl rfl))
    · exact List.mem_append_right _ (ih h)

/-- What a call listens with is dropped by whom it was handed to, or by the call when it fails. -/
theorem dropped_of_mem_log (h : Sound c) (hcall : c.calls[k]? = some call)
    (hdrop : .drop call.id ∈ c.log es) : .drop call.id ∈ es ∨
      (c.after es).calls[k]? = some (.finished call.subject call.id (.error .closed)) := by
  induction es generalizing c call with
  | nil => simp [log] at hdrop
  | cons e es ih =>
    rcases List.mem_append.1 hdrop with hmoves | hlater
    · rcases drop_mem_moves.1 hmoves with rfl | ⟨j, subject, rfl, hasking, hclosed⟩
      · exact .inl (List.mem_cons_self ..)
      · obtain rfl := h.apart k j _ _ hcall hasking rfl
        have hsubject : call.subject = subject :=
          congrArg Joining.subject (Option.some.inj (hcall.symm.trans hasking))
        rw [hsubject]
        refine .inr (finished_after ((getElem?_step hasking _).trans ?_) es)
        simp [proceed, Joining.turn_asking, hclosed]
    · have hnext := getElem?_step hcall e
      rw [← id_proceed c k call e] at hlater
      rcases ih (h.step e) hnext hlater with hmem | hfinished
      · rw [id_proceed] at hmem
        exact .inl (List.mem_cons_of_mem _ hmem)
      · rw [id_proceed, subject_proceed] at hfinished
        exact .inr hfinished

/-- A call that asks the server once sending is over fails. -/
theorem outcome_of_asking {subject : String} {id : Nat} {outcome : Except BusError Nat}
    (h : c.calls[k]? = some (.asking subject id)) (hclosed : c.remote.isClosed)
    (hfinished : (c.after es).calls[k]? = some (.finished subject id outcome)) : outcome = .error .closed := by
  induction es generalizing c with
  | nil => cases h.symm.trans hfinished
  | cons e es ih =>
    have hnext := getElem?_step h e
    by_cases hturn : e = .turn k
    · subst hturn
      simp only [proceed, if_true, Joining.turn_asking, hclosed] at hnext
      cases (finished_after hnext es).symm.trans hfinished
      rfl
    · have hsame : c.proceed k (.asking subject id) e = .asking subject id := by
        cases e <;> simp_all [proceed]
      rw [hsame] at hnext
      exact ih hnext (isClosed_step hclosed e) hfinished

/-- What listens on a subject has ended once it was dropped or let go, or once the connection ended
after it began to listen. -/
theorem Sound.isEnded_iff (h : Sound c) (subject : String) (es : List Event) :
    let joined := c.step (.subscribe subject)
    (joined.after es).remote.bus.isEnded c.remote.bus.nextId ↔
      .drop c.remote.bus.nextId ∈ joined.log es ∨
        (¬ c.hasEnded ∧ (joined.after es).hasEnded) ∨ .forget subject ∈ es := by
  have hstands := h.fresh.stands subject
  have hmem : c.remote.bus.nextId ∈ (c.remote.bus.subscribe subject).2.registered subject := by simp
  intro joined
  have hlog := hstands.isEnded_iff hmem (joined.log es)
  rw [close_mem_log, forget_mem_log] at hlog
  rw [bus_after]
  exact hlog

/-- A call that looks is done if the server was asked for its subject before, and goes on to ask if
not. -/
theorem looks {subject : String} {id : Nat} (h : c.calls[k]? = some (.listening subject id)) :
    (c.step (.turn k)).calls[k]? = some (if subject ∈ c.remote.forwarded then .finished subject id (.ok id)
      else .asking subject id) := by
  rw [getElem?_step h]
  simp only [proceed, if_true, Joining.turn]
  split <;> rfl

/-- The first call on a subject that looks finds that the server was not asked for it. -/
theorem Sound.notMem_forwarded_iff (h : Sound c) (subject : String) : subject ∉ c.remote.forwarded ↔
    ∀ call ∈ c.calls, call.subject = subject → ¬ call.HasLooked := by
  rw [h.forwarded]
  constructor
  · intro hnone call hcall hsubject hlooked
    obtain ⟨k, hk⟩ := List.getElem?_of_mem hcall
    exact hnone ⟨k, call, hk, hsubject, hlooked⟩
  · rintro hall ⟨k, call, hcall, hsubject, hlooked⟩
    exact hall call (List.mem_of_getElem? hcall) hsubject hlooked

/-- A subscription ends with the connection, or the call for it fails, exactly if it listened before
the end or was the first on its subject to look, or else was dropped or let go otherwise. -/
theorem ends_or_fails_iff {before mid rest : List Event} {subject : String}
    {outcome : Except BusError Nat} :
    let c₀ := start.after before
    let k := c₀.calls.length
    let id := c₀.remote.bus.nextId
    let c₁ := (c₀.step (.subscribe subject)).after mid
    let c := (c₁.step (.turn k)).after rest
    c₁.calls[k]? = some (.listening subject id) →
    c.calls[k]? = some (.finished subject id outcome) → c.hasEnded →
    ((outcome = .error .closed ∨ c.remote.bus.isEnded id) ↔
      ¬ c₀.hasEnded ∨ (∀ call ∈ c₁.calls, call.subject = subject → ¬ call.HasLooked) ∨
        .drop id ∈ mid ++ rest ∨ .forget subject ∈ mid ++ rest) := by
  intro c₀ k id c₁ c hlistening hfinished hended
  have hsound₀ : Sound c₀ := sound_start.after before
  have hsound : Sound (c₀.step (.subscribe subject)) := hsound₀.step _
  have hsound₁ : Sound c₁ := hsound.after mid
  have hrun : c = (c₀.step (.subscribe subject)).after (mid ++ .turn k :: rest) := by
    rw [after_append, after_cons]
  have hjoined : (c₀.step (.subscribe subject)).calls[k]? = some (.listening subject id) := by
    simp [step, Bus.subscribe, k, id]
  have hfails : outcome = .error .closed → subject ∉ c₁.remote.forwarded := by
    rintro rfl hmem
    have hlooks := looks hlistening
    rw [if_pos hmem] at hlooks
    cases (finished_after hlooks rest).symm.trans hfinished
  have hended' := hsound₀.isEnded_iff subject (mid ++ .turn k :: rest)
  dsimp only at hended'
  rw [← hrun] at hended'
  rw [← hsound₁.notMem_forwarded_iff, hended']
  constructor
  · rintro (hfailed | hdrop | ⟨hbefore, -⟩ | hforget)
    · exact .inr (.inl (hfails hfailed))
    · rcases dropped_of_mem_log hsound hjoined hdrop with hdrop | hfailed
      · exact .inr (.inr (.inl (by simpa [Joining.id] using hdrop)))
      · rw [← hrun] at hfailed
        cases hfailed.symm.trans hfinished
        exact .inr (.inl (hfails rfl))
    · exact .inl hbefore
    · exact .inr (.inr (.inr (by simpa using hforget)))
  · rintro (hbefore | hnew | hdrop | hforget)
    · exact .inr (.inr (.inl ⟨hbefore, hended⟩))
    -- after the end the server cannot be asked and the call fails; before it, the end is heard
    · by_cases hbefore : c₀.hasEnded
      · have hclosed : (c₁.step (.turn k)).remote.isClosed :=
          isClosed_step (hsound₁.closed (hasEnded_after (hasEnded_step.2 (.inl hbefore)) mid)) _
        have hlooks := looks hlistening
        rw [if_neg hnew] at hlooks
        exact .inl (outcome_of_asking hlooks hclosed hfinished)
      · exact .inr (.inr (.inl ⟨hbefore, hended⟩))
    · exact .inr (.inl (drop_mem_log (by simpa using hdrop)))
    · exact .inr (.inr (.inr (by simpa using hforget)))

def resubscribed : List Event :=
  [.subscribe "node.start", .turn 0, .turn 0, .stopSending, .close, .subscribe "node.start", .turn 1]

/-- The subscription from before has ended, and the other one never will. -/
theorem ends_or_fails_iff_resubscribed :
    (start.after resubscribed).remote.bus.isEnded 0 ∧
      ¬ (start.after resubscribed).remote.bus.isEnded 1 := by
  constructor
  · have hiff := @ends_or_fails_iff [] []
      [.turn 0, .stopSending, .close, .subscribe "node.start", .turn 1] "node.start" (.ok 0) rfl rfl rfl
    exact (hiff.2 (.inl nofun)).resolve_left nofun
  · have hiff := @ends_or_fails_iff
      [.subscribe "node.start", .turn 0, .turn 0, .stopSending, .close] [] [] "node.start" (.ok 1)
      rfl rfl rfl
    intro hended
    rcases hiff.1 (.inr hended) with hbefore | hfirst | hdrop | hforget
    · exact hbefore rfl
    · exact hfirst (.finished "node.start" 0 (.ok 0)) (List.Mem.head _) rfl trivial
    · simp at hdrop
    · simp at hforget

theorem waits_for_ever : ¬ ∀ (es : List Event) (k : Nat) (subject : String) (id : Nat)
    (outcome : Except BusError Nat), (start.after es).hasEnded →
    (start.after es).calls[k]? = some (.finished subject id outcome) →
    outcome = .error .closed ∨ (start.after es).remote.bus.isEnded id := by
  intro h
  rcases h resubscribed 1 "node.start" 1 (.ok 1) rfl rfl with hfailed | hended
  · cases hfailed
  · revert hended
    decide

end Client

end AppFleet
