import AppFleet.Bus.Request
import AppFleet.Proofs.Bus.Delivery

/-! Any number of subscribers and requests on one bus, each of which goes on when it likes. A request goes
on from one wait to the next: it gets a reply subject, listens there, asks, collects whenever it is woken,
stops listening, and lets its reply subject go. One with a deadline out of reach panics when it has
asked. -/

namespace AppFleet

/-- How far a request has come. -/
inductive Inquiry where
  /-- Nobody listens on its reply subject yet. -/
  | named (r : Request) (inbox : String)
  | listening (r : Request) (inbox : String) (id : Nat)
  | collecting (x : Exchange)
  /-- It has stopped listening. -/
  | leaving (x : Exchange) (replies : Replies)
  | finished (x : Exchange) (replies : Replies)
  | panicked (r : Request) (inbox : String) (id : Nat)

namespace Inquiry

def inbox : Inquiry → String
  | named _ inbox | listening _ inbox _ | panicked _ inbox _ => inbox
  | collecting x | leaving x _ | finished x _ => x.inbox

def expected : Inquiry → Option Nat
  | named r _ | listening r _ _ | panicked r _ _ => r.expected
  | collecting x | leaving x _ | finished x _ => x.expected

def subscription? : Inquiry → Option Nat
  | listening _ _ id => some id
  | collecting x => some x.subscription
  | _ => none

def replies? : Inquiry → Option Replies
  | leaving _ replies | finished _ replies => some replies
  | _ => none

/-- One turn, up to where it waits again. -/
def turn (now : Nat) (horizon : Horizon) (b : Bus) : Inquiry → Inquiry × Bus
  | named r inbox =>
    let (id, b) := b.subscribe inbox
    (listening r inbox id, b)
  | listening r inbox id =>
    match Exchange.ask b now horizon r inbox id with
    | (some x, b) => (collecting x, b)
    | (none, b) => (panicked r inbox id, b)
  | collecting x =>
    let (x, b) := x.collect b
    match x.outcome? b now with
    | some replies => (leaving x replies, b.drop x.subscription)
    | none => (collecting x, b)
  | leaving x replies => (finished x replies, b.forget x.inbox)
  | finished x replies => (finished x replies, b)
  | panicked r inbox id => (panicked r inbox id, b)

def moves (now : Nat) (horizon : Horizon) (b : Bus) : Inquiry → List Bus.Move
  | named _ inbox => [.subscribe inbox]
  | listening r inbox id =>
    .deliver ⟨r.subject, r.payload, some inbox⟩ ::
      if r.timeoutMs ≤ horizon.ms then [] else [.drop id]
  | collecting x =>
    .take x.subscription (x.wanted (((b.find? x.subscription).map (·.waiting.length)).getD 0)) ::
      if ((x.collect b).1.outcome? (x.collect b).2 now).isSome then [.drop x.subscription] else []
  | leaving x _ => [.forget x.inbox]
  | finished _ _ | panicked _ _ _ => []

/-- What a request may do with the bus, and when. -/
inductive Makes : Inquiry → Bus.Move → Prop where
  | subscribes {r : Request} {inbox : String} : Makes (named r inbox) (.subscribe inbox)
  | asks {r : Request} {inbox : String} {id : Nat} :
      Makes (listening r inbox id) (.deliver ⟨r.subject, r.payload, some inbox⟩)
  | givesUp {r : Request} {inbox : String} {id : Nat} : Makes (listening r inbox id) (.drop id)
  | reads {x : Exchange} {most : Nat} : Makes (collecting x) (.take x.subscription most)
  | drops {x : Exchange} : Makes (collecting x) (.drop x.subscription)
  | forgets {x : Exchange} {replies : Replies} : Makes (leaving x replies) (.forget x.inbox)

variable {q : Inquiry} {x : Exchange} {now : Nat} {horizon : Horizon} {b : Bus}
  {m : Bus.Move}

theorem makes_of_mem (h : m ∈ q.moves now horizon b) : q.Makes m := by
  cases q with
  | named r inbox =>
    obtain rfl := List.mem_singleton.1 h
    exact .subscribes
  | listening r inbox id =>
    rcases List.mem_cons.1 h with rfl | h
    · exact .asks
    · split at h
      · simp at h
      · obtain rfl := List.mem_singleton.1 h
        exact .givesUp
  | collecting x =>
    rcases List.mem_cons.1 h with rfl | h
    · exact .reads
    · split at h
      · obtain rfl := List.mem_singleton.1 h
        exact .drops
      · simp at h
  | leaving x replies =>
    obtain rfl := List.mem_singleton.1 h
    exact .forgets
  | finished x replies | panicked r inbox id => simp [moves] at h

theorem ask_eq (b : Bus) (now : Nat) (horizon : Horizon) (r : Request) (inbox : String) (id : Nat) :
    Exchange.ask b now horizon r inbox id = if r.timeoutMs ≤ horizon.ms then
      (some ⟨inbox, id, r.expected, now + r.timeoutMs, []⟩, b.deliver ⟨r.subject, r.payload, some inbox⟩)
    else (none, (b.deliver ⟨r.subject, r.payload, some inbox⟩).drop id) := by
  by_cases h : r.timeoutMs ≤ horizon.ms <;> simp [Exchange.ask, Exchange.await?, h]

theorem turn_listening (b : Bus) (now : Nat) (horizon : Horizon) (r : Request) (inbox : String)
    (id : Nat) : (listening r inbox id).turn now horizon b = if r.timeoutMs ≤ horizon.ms then
      (collecting ⟨inbox, id, r.expected, now + r.timeoutMs, []⟩,
        b.deliver ⟨r.subject, r.payload, some inbox⟩)
    else (panicked r inbox id, (b.deliver ⟨r.subject, r.payload, some inbox⟩).drop id) := by
  by_cases h : r.timeoutMs ≤ horizon.ms <;> simp [turn, ask_eq, h]

theorem turn_turn_named (now : Nat) (horizon : Horizon) (b : Bus) (r : Request) :
    let (q, b') := (named r b.openInbox.1).turn now horizon b.openInbox.2
    match Exchange.start b now horizon r with
    | (some x, b'') => q.turn now horizon b' = (collecting x, b'')
    | (none, b'') => ∃ inbox id, q.turn now horizon b' = (panicked r inbox id, b'') := by
  by_cases h : r.timeoutMs ≤ horizon.ms <;> simp [turn, Exchange.start, Exchange.listen, ask_eq, h]

/-- Polling is a turn, and one more if that was the last time. -/
theorem turn_collecting (now : Nat) (horizon : Horizon) (b : Bus) (x : Exchange) :
    let (q, b') := (collecting x).turn now horizon b
    match x.poll b now with
    | (some replies, x', b'') =>
      q = leaving x' replies ∧ q.turn now horizon b' = (finished x' replies, b'')
    | (none, x', b'') => (q, b') = (collecting x', b'') := by
  simp only [turn, Exchange.poll]
  cases (x.collect b).1.outcome? (x.collect b).2 now <;> simp [Exchange.finish]

theorem turn_snd (q : Inquiry) (now : Nat) (horizon : Horizon) (b : Bus) :
    (q.turn now horizon b).2 = b.after (q.moves now horizon b) := by
  cases q with
  | listening r inbox id =>
    simp only [turn_listening, moves]
    split <;> rfl
  | collecting x =>
    simp only [turn, moves]
    cases (x.collect b).1.outcome? (x.collect b).2 now <;> rfl
  | _ => rfl

@[simp] theorem inbox_turn (q : Inquiry) (now : Nat) (horizon : Horizon) (b : Bus) :
    (q.turn now horizon b).1.inbox = q.inbox := by
  cases q with
  | listening r inbox id =>
    simp only [turn_listening]
    split <;> rfl
  | collecting x =>
    simp only [turn]
    cases (x.collect b).1.outcome? (x.collect b).2 now <;> rfl
  | _ => rfl

theorem expected_turn (q : Inquiry) (now : Nat) (horizon : Horizon) (b : Bus) :
    (q.turn now horizon b).1.expected = q.expected := by
  cases q with
  | listening r inbox id =>
    simp only [turn_listening]
    split <;> rfl
  | collecting x =>
    simp only [turn]
    cases (x.collect b).1.outcome? (x.collect b).2 now <;> rfl
  | _ => rfl

theorem nextInbox_turn (q : Inquiry) (now : Nat) (horizon : Horizon) (b : Bus) :
    (q.turn now horizon b).2.nextInbox = b.nextInbox := by
  cases q with
  | listening r inbox id =>
    simp only [turn_listening]
    split <;> exact Bus.nextInbox_deliver _ _
  | collecting x =>
    simp only [turn]
    cases (x.collect b).1.outcome? (x.collect b).2 now <;> rfl
  | _ => rfl

end Inquiry

structure Traffic where
  now : Nat
  horizon : Horizon
  bus : Bus
  inquiries : List Inquiry

namespace Traffic

def empty : Traffic := ⟨0, .full, .empty, []⟩

inductive Event where
  | subscribe (subject : String)
  | drop (id : Nat)
  /-- Publishing is delivering a message that has no reply subject. -/
  | deliver (e : Envelope)
  | take (id most : Nat)
  | close
  | wait (ms : Nat)
  | setHorizon (h : Horizon)
  | request (r : Request)
  | turn (k : Nat)

variable {s : Traffic} {e : Event} {es : List Event} {k : Nat} {q : Inquiry} {m : Bus.Move}

def isOwned (s : Traffic) (id : Nat) : Bool := s.inquiries.any (·.subscription? = some id)

/-- One step. Nobody drops or reads what is a request's own. -/
def step (s : Traffic) : Event → Traffic
  | .subscribe subject => { s with bus := (s.bus.subscribe subject).2 }
  | .drop id => if s.isOwned id then s else { s with bus := s.bus.drop id }
  | .deliver e => { s with bus := s.bus.deliver e }
  | .take id most => if s.isOwned id then s else { s with bus := (s.bus.take id most).2 }
  | .close => { s with bus := s.bus.close }
  | .wait ms => { s with now := s.now + ms }
  | .setHorizon horizon => { s with horizon }
  | .request r =>
    let (inbox, bus) := s.bus.openInbox
    { s with bus, inquiries := s.inquiries ++ [.named r inbox] }
  | .turn k =>
    match s.inquiries[k]? with
    | some q =>
      let (q, bus) := q.turn s.now s.horizon s.bus
      { s with bus, inquiries := s.inquiries.set k q }
    | none => s

def moves (s : Traffic) : Event → List Bus.Move
  | .subscribe subject => [.subscribe subject]
  | .drop id => if s.isOwned id then [] else [.drop id]
  | .deliver e => [.deliver e]
  | .take id most => if s.isOwned id then [] else [.take id most]
  | .close => [.close]
  | .wait _ | .setHorizon _ => []
  | .request _ => [.openInbox]
  | .turn k => (s.inquiries[k]?.map (·.moves s.now s.horizon s.bus)).getD []

inductive Makes (s : Traffic) : Event → Bus.Move → Prop where
  | subscribes {t : String} : Makes s (.subscribe t) (.subscribe t)
  | drops {id : Nat} : s.isOwned id = false → Makes s (.drop id) (.drop id)
  | delivers {e : Envelope} : Makes s (.deliver e) (.deliver e)
  | takes {id most : Nat} : s.isOwned id = false → Makes s (.take id most) (.take id most)
  | closes : Makes s .close .close
  | names {r : Request} : Makes s (.request r) .openInbox
  | turns {k : Nat} {q : Inquiry} {m : Bus.Move} :
      s.inquiries[k]? = some q → q.Makes m → Makes s (.turn k) m

theorem makes_of_mem (h : m ∈ s.moves e) : s.Makes e m := by
  cases e with
  | drop id | take id most =>
    simp only [moves] at h
    split at h
    · simp at h
    · rename_i hfree
      obtain rfl := List.mem_singleton.1 h
      constructor
      simpa using hfree
  | turn k =>
    simp only [moves] at h
    cases hk : s.inquiries[k]? with
    | none => simp [hk] at h
    | some q =>
      rw [hk] at h
      exact .turns hk (Inquiry.makes_of_mem h)
  | wait ms | setHorizon h => simp [moves] at h
  | subscribe t | deliver e | close | request r =>
    obtain rfl := List.mem_singleton.1 h
    constructor

def after (s : Traffic) (es : List Event) : Traffic := es.foldl step s

def log (s : Traffic) : List Event → List Bus.Move
  | [] => []
  | e :: es => s.moves e ++ (s.step e).log es

def proceed (s : Traffic) (k : Nat) (q : Inquiry) : Event → Inquiry
  | .turn j => if j = k then (q.turn s.now s.horizon s.bus).1 else q
  | _ => q

@[simp] theorem after_nil (s : Traffic) : s.after [] = s := rfl

@[simp] theorem after_cons (s : Traffic) (e : Event) (es : List Event) :
    s.after (e :: es) = (s.step e).after es := rfl

theorem after_append (s : Traffic) (es es' : List Event) :
    s.after (es ++ es') = (s.after es).after es' :=
  List.foldl_append

@[simp] theorem after_concat (s : Traffic) (es : List Event) (e : Event) :
    s.after (es ++ [e]) = (s.after es).step e := by
  simp [after]

theorem log_append (s : Traffic) (es es' : List Event) :
    s.log (es ++ es') = s.log es ++ (s.after es).log es' := by
  induction es generalizing s with
  | nil => rfl
  | cons e es ih => simp [log, ih]

theorem bus_step (s : Traffic) (e : Event) : (s.step e).bus = s.bus.after (s.moves e) := by
  cases e with
  | drop id | take id most =>
    simp only [step, moves]
    split <;> rfl
  | turn k =>
    simp only [step, moves]
    cases s.inquiries[k]? with
    | none => rfl
    | some q => exact q.turn_snd s.now s.horizon s.bus
  | _ => rfl

theorem bus_after (s : Traffic) (es : List Event) : (s.after es).bus = s.bus.after (s.log es) := by
  induction es generalizing s with
  | nil => rfl
  | cons e es ih => rw [after_cons, ih, bus_step, log, Bus.after_append]

theorem getElem?_step (h : s.inquiries[k]? = some q) (e : Event) :
    (s.step e).inquiries[k]? = some (s.proceed k q e) := by
  cases e with
  | drop id | take id most =>
    simp only [step]
    split <;> exact h
  | request r =>
    have hlt := (List.getElem?_eq_some_iff.1 h).1
    exact (List.getElem?_append_left hlt).trans h
  | turn j =>
    simp only [step, proceed]
    by_cases hj : j = k
    · subst hj
      have hlt := (List.getElem?_eq_some_iff.1 h).1
      rw [h, if_pos rfl]
      exact List.getElem?_set_self hlt
    · cases s.inquiries[j]? with
      | none => simpa [hj] using h
      | some _ => simpa [hj, List.getElem?_set_ne hj] using h
  | _ => exact h

theorem getElem?_of_step (h : (s.step e).inquiries[k]? = some q) :
    (∃ q', s.inquiries[k]? = some q' ∧ q = s.proceed k q' e) ∨
      ∃ r, e = .request r ∧ k = s.inquiries.length ∧ q = .named r (Subject.inbox s.bus.nextInbox) := by
  cases hk : s.inquiries[k]? with
  | some q' =>
    rw [getElem?_step hk] at h
    exact .inl ⟨q', rfl, (Option.some.inj h).symm⟩
  | none =>
    have hle := List.getElem?_eq_none_iff.1 hk
    cases e with
    | drop id | take id most =>
      simp only [step] at h
      split at h <;> exact absurd (h.symm.trans hk) (Option.some_ne_none _)
    | request r =>
      obtain ⟨hlt, hq⟩ := List.getElem?_eq_some_iff.1 h
      have hlt' : k < s.inquiries.length + 1 := by simpa [step, Bus.openInbox] using hlt
      obtain rfl : k = s.inquiries.length := by omega
      refine .inr ⟨r, rfl, rfl, ?_⟩
      simpa [step, Bus.openInbox] using hq.symm
    | turn j =>
      simp only [step] at h
      split at h
      · have hlt := (List.getElem?_eq_some_iff.1 h).1
        rw [List.length_set] at hlt
        omega
      · exact absurd (h.symm.trans hk) (Option.some_ne_none _)
    | _ => exact absurd (h.symm.trans hk) (Option.some_ne_none _)

structure Numbered (s : Traffic) : Prop where
  nextInbox : s.bus.nextInbox = s.inquiries.length
  inbox : ∀ k q, s.inquiries[k]? = some q → q.inbox = Subject.inbox k

theorem nextInbox_step (h : s.bus.nextInbox = s.inquiries.length) (e : Event) :
    (s.step e).bus.nextInbox = (s.step e).inquiries.length := by
  cases e with
  | drop id | take id most =>
    simp only [step]
    split <;> exact h
  | deliver e => exact (Bus.nextInbox_deliver _ _).trans h
  | request r => simp [step, Bus.openInbox, h]
  | turn k =>
    simp only [step]
    split
    · simpa [Inquiry.nextInbox_turn] using h
    · exact h
  | _ => exact h

theorem inbox_proceed (s : Traffic) (k : Nat) (q : Inquiry) (e : Event) :
    (s.proceed k q e).inbox = q.inbox := by
  cases e with
  | turn j =>
    simp only [proceed]
    split <;> simp
  | _ => rfl

theorem expected_proceed (s : Traffic) (k : Nat) (q : Inquiry) (e : Event) :
    (s.proceed k q e).expected = q.expected := by
  cases e with
  | turn j =>
    simp only [proceed]
    split
    · exact q.expected_turn s.now s.horizon s.bus
    · rfl
  | _ => rfl

theorem expected_after (h : s.inquiries[k]? = some q) (es : List Event) :
    ∃ q', (s.after es).inquiries[k]? = some q' ∧ q'.expected = q.expected := by
  induction es generalizing s q with
  | nil => exact ⟨q, h, rfl⟩
  | cons e es ih =>
    obtain ⟨q', hq', heq⟩ := ih (getElem?_step h e)
    exact ⟨q', hq', heq.trans (expected_proceed s k q e)⟩

theorem expected_of_made {past rest : List Event} {r : Request}
    (h : (empty.after (past ++ .request r :: rest)).inquiries[(empty.after past).inquiries.length]? =
      some q) : q.expected = r.expected := by
  have hnew : ((empty.after past).step (.request r)).inquiries[(empty.after past).inquiries.length]? =
      some (.named r (empty.after past).bus.openInbox.1) := by simp [step]
  obtain ⟨q', hq', heq⟩ := expected_after hnew rest
  rw [after_append, after_cons] at h
  cases h.symm.trans hq'
  exact heq

theorem Numbered.step (h : s.Numbered) (e : Event) : (s.step e).Numbered := by
  refine ⟨nextInbox_step h.nextInbox e, fun k q hq => ?_⟩
  rcases getElem?_of_step hq with ⟨q', hq', rfl⟩ | ⟨r, -, rfl, rfl⟩
  · rw [inbox_proceed]
    exact h.inbox k q' hq'
  · rw [← h.nextInbox]
    rfl

theorem numbered_after (es : List Event) : (Traffic.empty.after es).Numbered := by
  induction es using List.reverseRecOn with
  | nil => exact ⟨rfl, by simp [empty]⟩
  | append_singleton es e ih =>
    rw [after_concat]
    exact ih.step e

theorem length_le_after (s : Traffic) (es : List Event) :
    s.inquiries.length ≤ (s.after es).inquiries.length := by
  induction es generalizing s with
  | nil => exact Nat.le_refl _
  | cons e es ih =>
    refine Nat.le_trans ?_ (ih (s.step e))
    cases e with
    | drop id | take id most =>
      simp only [step]
      split <;> exact Nat.le_refl _
    | request r => simp [step]
    | turn k =>
      simp only [step]
      split <;> simp
    | _ => exact Nat.le_refl _

/-- Requests let go of their own reply subjects, and of nothing else. -/
theorem Numbered.of_forget_mem {t : String} (h : s.Numbered) (hmem : .forget t ∈ s.log es) :
    ∃ n < (s.after es).inquiries.length, t = Subject.inbox n := by
  induction es generalizing s with
  | nil => simp [log] at hmem
  | cons e es ih =>
    rcases List.mem_append.1 hmem with hstep | hlater
    · cases makes_of_mem hstep with
      | @turns k q _ hk hq =>
        cases hq with
        | forgets =>
          have hlt := (List.getElem?_eq_some_iff.1 hk).1
          exact ⟨k, Nat.lt_of_lt_of_le hlt (length_le_after s (.turn k :: es)), h.inbox k _ hk⟩
    · exact ih (h.step e) hlater

/-- Every subscription outside the reply subjects is handed what is sent on its subject from when it is
made to when it is dropped or the bus closes, each message once and in order; and a subject always has
as many subscriptions as were made on it and neither dropped nor let go since. -/
theorem delivers_exactly_once (es : List Event) :
    (∀ past subject future, es = past ++ .subscribe subject :: future →
      (∀ n < (empty.after es).inquiries.length, subject ≠ Subject.inbox n) →
      let id := (empty.after past).bus.nextId
      let s := (empty.after past).step (.subscribe subject)
      let life := Bus.untilDropped id (s.log future)
      (∃ waiting, (s.bus.after life).find? id = some ⟨id, subject, waiting⟩ ∧
        Bus.read id s.bus life ++ waiting = Bus.heard subject life) ∧
      Bus.read id s.bus (s.log future) = Bus.read id s.bus life) ∧
    ∀ t, (empty.after es).bus.count t = (Bus.present t 0 (empty.log es)).length := by
  constructor
  · intro past subject future hes hprivate id s life
    subst hes
    have hfresh : Bus.Fresh (empty.after past).bus := by
      rw [bus_after]
      exact Bus.fresh_empty.after _
    have hstands : Bus.Stands s.bus ⟨id, subject, []⟩ := hfresh.stands subject
    have hregistered : id ∈ s.bus.registered subject := by
      change id ∈ ((empty.after past).bus.subscribe subject).2.registered subject
      rw [Bus.registered_subscribe_self]
      exact List.mem_append_right _ (List.mem_singleton_self _)
    have hforget : .forget subject ∉ s.log future := by
      intro hmem
      obtain ⟨n, hn, heq⟩ := ((numbered_after past).step (.subscribe subject)).of_forget_mem hmem
      rw [after_append, after_cons] at hprivate
      exact hprivate n hn heq
    have hlife : life <+: s.log future := List.takeWhile_prefix _
    obtain ⟨waiting, hafter, hread, -⟩ := hstands.after life Bus.drop_not_mem_untilDropped
      fun hmem => hforget (hlife.subset hmem)
    rw [if_pos hregistered] at hread
    exact ⟨⟨waiting, hafter.found, hread⟩, Bus.read_untilDropped hstands.id_lt _⟩
  · intro t
    rw [Bus.count_eq, bus_after]
    exact congrArg List.length (Bus.listeners_after t _)

def closedAfterAnswer : List Event :=
  [.subscribe "hm.status", .subscribe "hm.status", .deliver ⟨"hm.status", .null, none⟩, .drop 0,
    .request (.single "hm.status" (.bool true) 50), .turn 0, .turn 0, .take 1 1,
    .deliver ⟨Subject.inbox 0, .bool false, none⟩, .turn 0, .turn 0, .close,
    .deliver ⟨"hm.status", .null, none⟩]

theorem delivers_exactly_once_status :
    (∃ waiting, (empty.after closedAfterAnswer).bus.find? 1 = some ⟨1, "hm.status", waiting⟩ ∧
      [⟨"hm.status", .null, none⟩] ++ waiting =
        [⟨"hm.status", .null, none⟩, ⟨"hm.status", .bool true, some (Subject.inbox 0)⟩]) ∧
    (empty.after (closedAfterAnswer.take 11)).bus.count "hm.status" = 1 := by
  have hprivate : ∀ n < (empty.after closedAfterAnswer).inquiries.length,
      "hm.status" ≠ Subject.inbox n := by
    intro n hn
    obtain rfl : n = 0 := Nat.lt_one_iff.1 hn
    decide
  obtain ⟨⟨waiting, hfind, hread⟩, -⟩ := (delivers_exactly_once closedAfterAnswer).1
    [.subscribe "hm.status"] "hm.status" _ rfl hprivate
  exact ⟨⟨waiting, hfind, hread⟩, (delivers_exactly_once (closedAfterAnswer.take 11)).2 "hm.status"⟩

end Traffic

end AppFleet
