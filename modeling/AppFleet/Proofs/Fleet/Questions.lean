import AppFleet.Proofs.Bus.Requests
import AppFleet.Proofs.Fleet.Survey

/-! The open questions of a survey. Each has a reply subject of its own, so that looking at one leaves the
others as they were; and one to which nothing comes but what answers for its record is over in time only
by being merged. -/

namespace AppFleet

theorem Subject.nodeStats_ne_inbox (node : NodeId) (n : Nat) : nodeStats node ≠ inbox n := by
  intro h
  have hfirst := congrArg (fun s : String => s.toList.head?) h
  have hstats : nodeStats node = "node.stats." ++ node := rfl
  have hinbox : inbox n = "_INBOX." ++ n.repr := rfl
  rw [hstats, hinbox] at hfirst
  simp at hfirst

abbrev Question := LedgerRecord × Exchange

/-- Neither of two questions hears the replies to the other. -/
def Question.Apart (p q : Question) : Prop :=
  p.2.subscription ≠ q.2.subscription ∧ p.2.inbox ≠ q.2.inbox

def LedgerRecord.AnsweredBy (r : LedgerRecord) (payload : Json) : Prop :=
  ∃ reply, StatsReply.codec.read payload = .ok reply ∧ Ledger.Answers reply r

structure Exchange.Awaits (x : Exchange) (b : Bus) (came : List Json) : Prop where
  listens : Inquiry.Listens b x.inbox x.subscription False x.collected came
  bounded : x.Bounded
  expected : x.expected = some 1

/-- Nothing came to a question but what answers for its record. -/
def Exchange.Hears (x : Exchange) (b : Bus) (r : LedgerRecord) : Prop :=
  ∃ came, x.Awaits b came ∧ ∀ payload ∈ came, r.AnsweredBy payload

namespace Exchange

variable {x : Exchange} {b : Bus} {now : Nat} {r : LedgerRecord} {ms : List Bus.Move} {came : List Json}

/-- What others do leaves a question as it was, but for what comes to it. -/
theorem Awaits.after (h : x.Awaits b came) (hdrop : .drop x.subscription ∉ ms)
    (hforget : .forget x.inbox ∉ ms) (htake : ∀ most, .take x.subscription most ∉ ms)
    (hclose : .close ∉ ms) :
    x.Awaits (b.after ms) (came ++ (Bus.sentOn x.inbox ms).map (·.payload)) := by
  have hlistens := h.listens.after hdrop hforget htake
  simp only [hclose, or_false] at hlistens
  exact ⟨hlistens, h.bounded, h.expected⟩

theorem Awaits.deliver (h : x.Awaits b came) (e : Envelope) :
    x.Awaits (b.deliver e) (came ++ if e.subject = x.inbox then [e.payload] else []) := by
  have hafter : x.Awaits (b.after [.deliver e]) _ :=
    h.after (by simp) (by simp) (by simp) (by simp)
  by_cases hsubject : e.subject = x.inbox
  · simpa [Bus.sentOn, Bus.Move.on?, hsubject, Bus.Move.perform] using hafter
  · simpa [Bus.sentOn, Bus.Move.on?, hsubject, Bus.Move.perform] using hafter

theorem poll_eq (x : Exchange) (b : Bus) (now : Nat) :
    x.poll b now = match (x.collect b).1.outcome? (x.collect b).2 now with
      | some replies => (some replies, (x.collect b).1, (x.collect b).1.finish (x.collect b).2)
      | none => (none, x.collect b) := rfl

/-- Looking at a request does nothing to the bus but with its own reply subject. -/
theorem poll_moves (x : Exchange) (b : Bus) (now : Nat) : ∃ ms, (x.poll b now).2.2 = b.after ms ∧
    ∀ m ∈ ms, (∃ most, m = .take x.subscription most) ∨ m = .drop x.subscription ∨
      m = .forget x.inbox := by
  let most := x.wanted (((b.find? x.subscription).map (·.waiting.length)).getD 0)
  rw [poll_eq]
  cases (x.collect b).1.outcome? (x.collect b).2 now with
  | some replies =>
    exact ⟨[.take x.subscription most, .drop x.subscription, .forget x.inbox], rfl, by simp⟩
  | none => exact ⟨[.take x.subscription most], rfl, by simp⟩

theorem Awaits.poll_other {y : Exchange} (h : x.Awaits b came)
    (hsubscription : y.subscription ≠ x.subscription) (hinbox : y.inbox ≠ x.inbox) (now : Nat) :
    x.Awaits (y.poll b now).2.2 came := by
  obtain ⟨ms, hbus, hown⟩ := y.poll_moves b now
  have hafter : x.Awaits (b.after ms) (came ++ (Bus.sentOn x.inbox ms).map (·.payload)) := by
    refine h.after (fun hm => ?_) (fun hm => ?_) (fun most hm => ?_) fun hm => ?_
    · simpa [hsubscription.symm] using hown _ hm
    · simpa [hinbox.symm] using hown _ hm
    · simpa [hsubscription.symm] using hown _ hm
    · simpa using hown _ hm
  have hsilent : Bus.sentOn x.inbox ms = [] := by
    refine List.filterMap_eq_nil_iff.2 fun m hm => ?_
    rcases hown m hm with ⟨most, rfl⟩ | rfl | rfl <;> rfl
  rw [hbus]
  simpa [hsilent] using hafter

theorem poll_fst (x : Exchange) (b : Bus) (now : Nat) :
    ∃ collected, (x.poll b now).2.1 = { x with collected } := by
  rw [poll_eq]
  cases (x.collect b).1.outcome? (x.collect b).2 now <;> exact ⟨(x.collect b).1.collected, rfl⟩

/-- A question is over as soon as a reply has come or its time is up, and not before. -/
theorem Awaits.isSome_poll_iff (h : x.Awaits b came) (now : Nat) :
    (x.poll b now).1.isSome ↔ came ≠ [] ∨ x.deadline ≤ now := by
  obtain ⟨hlistens, hall⟩ := h.listens.collect
  have hone : (x.collect b).1.expected = some 1 := h.expected
  have henough : Enough (some 1) came ↔ came ≠ [] := by
    cases came <;> simp [Enough]
  have hdeadline : (x.collect b).1.deadline = x.deadline := rfl
  have hsome : ((x.collect b).1.outcome? (x.collect b).2 now).isSome ↔ _ :=
    Inquiry.Listens.outcome_isSome_iff (x := (x.collect b).1) hlistens hall
  rw [hone, henough, false_or, hdeadline] at hsome
  rw [poll_eq, ← hsome]
  cases (x.collect b).1.outcome? (x.collect b).2 now <;> rfl

theorem Awaits.poll_over (h : x.Awaits b came) {replies : Replies}
    (hpoll : (x.poll b now).1 = some replies) : replies = .ok (came.take 1) := by
  obtain ⟨hlistens, hall⟩ := h.listens.collect
  cases houtcome : (x.collect b).1.outcome? (x.collect b).2 now with
  | none => simp [poll_eq, houtcome] at hpoll
  | some replies' =>
    obtain rfl : replies' = replies := by simpa [poll_eq, houtcome] using hpoll
    have hone : (x.collect b).1.expected = some 1 := h.expected
    have hreplies := Inquiry.Listens.outcome (x := (x.collect b).1) hlistens (h.bounded.collect b) hall
      houtcome
    rw [hone, and_false, or_false] at hreplies
    exact hreplies.1

theorem Awaits.poll_open (h : x.Awaits b came) (hpoll : (x.poll b now).1 = none) :
    (x.poll b now).2.1.Awaits (x.poll b now).2.2 came := by
  cases houtcome : (x.collect b).1.outcome? (x.collect b).2 now with
  | none =>
    simp only [poll_eq, houtcome]
    exact ⟨h.listens.collect.1, h.bounded.collect b, h.expected⟩
  | some replies => simp [poll_eq, houtcome] at hpoll

/-- Until its deadline, a question to which only answers come is over only by one. -/
theorem Hears.poll_over (h : x.Hears b r) (hnow : now < x.deadline) {replies : Replies}
    (hpoll : (x.poll b now).1 = some replies) :
    ∃ reply, Ledger.statsOf replies = some reply ∧ Ledger.Answers reply r := by
  obtain ⟨came, hawaits, hanswers⟩ := h
  have hover : came ≠ [] ∨ x.deadline ≤ now := (hawaits.isSome_poll_iff now).1 (by rw [hpoll]; rfl)
  rw [hawaits.poll_over hpoll]
  cases came with
  | nil => exact absurd hnow (Nat.not_lt.2 (hover.resolve_left fun h => h rfl))
  | cons payload more =>
    obtain ⟨reply, hread, hreply⟩ := hanswers payload List.mem_cons_self
    exact ⟨reply, by simp [Ledger.statsOf, hread, Except.toOption], hreply⟩

theorem Hears.poll_open (h : x.Hears b r) (hpoll : (x.poll b now).1 = none) :
    (x.poll b now).2.1.Hears (x.poll b now).2.2 r := by
  obtain ⟨came, hawaits, hanswers⟩ := h
  exact ⟨came, hawaits.poll_open hpoll, hanswers⟩

def asking (timeoutMs : UInt64) (r : LedgerRecord) (b : Bus) : List Bus.Move :=
  [.openInbox, .subscribe (Subject.inbox b.nextInbox), .deliver
    ⟨Subject.nodeStats r.nodeId, (Ledger.query timeoutMs r).payload, some (Subject.inbox b.nextInbox)⟩]

def opened (timeoutMs : UInt64) (now : Nat) (b : Bus) : Exchange :=
  ⟨Subject.inbox b.nextInbox, b.nextId, some 1, now + timeoutMs.toNat, []⟩

/-- A question about a record is always waited for. -/
theorem start_query (b : Bus) (now : Nat) (horizon : Horizon) (timeoutMs : UInt64) (r : LedgerRecord) :
    start b now horizon (Ledger.query timeoutMs r) =
      (some (opened timeoutMs now b), b.after (asking timeoutMs r b)) := by
  have hwaits : await? now horizon (Ledger.query timeoutMs r) b.openInbox.1
      (b.openInbox.2.subscribe b.openInbox.1).1 = some (opened timeoutMs now b) :=
    if_pos (horizon.reaches timeoutMs)
  simp only [start, listen, ask, hwaits]
  rfl

theorem opened_awaits (hb : b.Fresh) (timeoutMs : UInt64) (now : Nat) (r : LedgerRecord) :
    (opened timeoutMs now b).Awaits (b.after (asking timeoutMs r b)) [] := by
  have hopened : b.openInbox.2.Fresh := hb.perform .openInbox
  have hregistered : b.nextId ∈
      (b.openInbox.2.subscribe (Subject.inbox b.nextInbox)).2.registered (Subject.inbox b.nextInbox) := by
    have hid : b.openInbox.2.nextId = b.nextId := rfl
    simp [hid]
  have hlistening : (opened timeoutMs now b).Awaits
      (b.openInbox.2.subscribe (Subject.inbox b.nextInbox)).2 [] :=
    ⟨⟨[], hopened.stands _, iff_of_true hregistered not_false, List.prefix_refl _, fun _ => rfl⟩,
      fun n _ => Nat.zero_le n, rfl⟩
  have hasked := hlistening.deliver ⟨Subject.nodeStats r.nodeId, (Ledger.query timeoutMs r).payload,
    some (Subject.inbox b.nextInbox)⟩
  have hother : Subject.nodeStats r.nodeId ≠ (opened timeoutMs now b).inbox :=
    Subject.nodeStats_ne_inbox _ _
  rwa [if_neg hother] at hasked

end Exchange

/-- What sending the questions of a survey does to the bus. -/
inductive Bus.Move.Asks : Bus.Move → Prop where
  | opens : Asks .openInbox
  | subscribes {subject : String} : Asks (.subscribe subject)
  | sends {e : Envelope} {node : NodeId} : e.subject = Subject.nodeStats node → Asks (.deliver e)

theorem Exchange.Awaits.asks {x : Exchange} {b : Bus} {came : List Json} {ms : List Bus.Move}
    (h : x.Awaits b came) {n : Nat} (hinbox : x.inbox = Subject.inbox n) (hms : ∀ m ∈ ms, m.Asks) :
    x.Awaits (b.after ms) came := by
  have hafter : x.Awaits (b.after ms) (came ++ (Bus.sentOn x.inbox ms).map (·.payload)) := by
    refine h.after (fun hm => ?_) (fun hm => ?_) (fun most hm => ?_) fun hm => ?_
    all_goals cases hms _ hm
  have hsilent : Bus.sentOn x.inbox ms = [] := by
    refine List.filterMap_eq_nil_iff.2 fun m hm => ?_
    cases hms m hm with
    | opens => rfl
    | subscribes => rfl
    | sends hsubject =>
      rw [Bus.Move.on?, if_neg]
      rw [hsubject, hinbox]
      exact Subject.nodeStats_ne_inbox _ _
  simpa [hsilent] using hafter

namespace World

variable {w : World} {now : Nat} {timeoutMs : UInt64} {r : LedgerRecord}

theorem request_query (w : World) (now : Nat) (timeoutMs : UInt64) (r : LedgerRecord) :
    let q := Ledger.query timeoutMs r
    ((w.request now q).1 = .error .closed ∧ q.subject ∈ w.link.refused ∧
        (w.request now q).2.link.bus = w.link.bus) ∨
      ((w.request now q).1 = .ok (some (.opened timeoutMs now w.link.bus)) ∧
        q.subject ∉ w.link.refused ∧
        (w.request now q).2.link.bus = w.link.bus.after (Exchange.asking timeoutMs r w.link.bus)) := by
  by_cases h : (Ledger.query timeoutMs r).subject ∈ w.link.refused
  · exact .inl (by simp [request, Link.request, Link.note, h])
  · exact .inr (by simp [request, Link.request, h, Exchange.start_query])

theorem sendSurvey_moves (w : World) (now : Nat) (timeoutMs : UInt64) (records : List LedgerRecord) :
    ∃ ms, (w.sendSurvey now timeoutMs records).2.link.bus = w.link.bus.after ms ∧
      ∀ m ∈ ms, m.Asks := by
  induction records generalizing w with
  | nil => exact ⟨[], rfl, by simp⟩
  | cons r rest ih =>
    obtain ⟨ms, hbus, hms⟩ := ih (w.request now (Ledger.query timeoutMs r)).2
    rcases w.request_query now timeoutMs r with ⟨-, -, hsame⟩ | ⟨-, -, hstart⟩
    · exact ⟨ms, hbus.trans (by rw [hsame]), hms⟩
    · refine ⟨Exchange.asking timeoutMs r w.link.bus ++ ms, ?_, fun m hm => ?_⟩
      · rw [Bus.after_append, ← hstart]
        exact hbus
      · rcases List.mem_append.1 hm with hm | hm
        · simp only [Exchange.asking, List.mem_cons, List.not_mem_nil, or_false] at hm
          rcases hm with rfl | rfl | rfl
          · exact .opens
          · exact .subscribes
          · exact .sends rfl
        · exact hms m hm

theorem sendSurvey_keeps (w : World) (now : Nat) (timeoutMs : UInt64) (records : List LedgerRecord) :
    (w.sendSurvey now timeoutMs records).2.clock = w.clock ∧
      (w.sendSurvey now timeoutMs records).2.ttl = w.ttl ∧
      (w.sendSurvey now timeoutMs records).2.link.refused = w.link.refused := by
  induction records generalizing w with
  | nil => exact ⟨rfl, rfl, rfl⟩
  | cons r rest ih =>
    obtain ⟨hclock, httl, hrefused⟩ := ih (w.request now (Ledger.query timeoutMs r)).2
    exact ⟨hclock, httl, hrefused.trans (w.request_sent now (Ledger.query timeoutMs r)).2⟩

theorem sendSurvey_awaits (hb : w.link.bus.Fresh) (now : Nat) (timeoutMs : UInt64)
    (records : List LedgerRecord) :
    (w.sendSurvey now timeoutMs records).1.Pairwise Question.Apart ∧
      ∀ p ∈ (w.sendSurvey now timeoutMs records).1,
        p.2.Awaits (w.sendSurvey now timeoutMs records).2.link.bus [] ∧
        p.2.deadline = now + timeoutMs.toNat ∧ w.link.bus.nextId ≤ p.2.subscription ∧
        ∃ n, w.link.bus.nextInbox ≤ n ∧ p.2.inbox = Subject.inbox n := by
  induction records generalizing w with
  | nil => simp [sendSurvey]
  | cons r rest ih =>
    rcases w.request_query now timeoutMs r with ⟨hsent, -, hsame⟩ | ⟨hsent, -, hstart⟩
    · rw [← hsame] at hb ⊢
      simpa only [sendSurvey, hsent] using ih hb
    · have hnext : (w.link.bus.after (Exchange.asking timeoutMs r w.link.bus)).nextId =
          w.link.bus.nextId + 1 := Bus.nextId_deliver _ _
      have hnextInbox : (w.link.bus.after (Exchange.asking timeoutMs r w.link.bus)).nextInbox =
          w.link.bus.nextInbox + 1 := Bus.nextInbox_deliver _ _
      have hfirst := Exchange.opened_awaits hb timeoutMs now r
      have hb' : (w.link.bus.after (Exchange.asking timeoutMs r w.link.bus)).Fresh := hb.after _
      rw [← hstart] at hb' hfirst hnext hnextInbox
      obtain ⟨hapart, hrest⟩ := ih hb'
      obtain ⟨ms, hbus, hms⟩ :=
        (w.request now (Ledger.query timeoutMs r)).2.sendSurvey_moves now timeoutMs rest
      have hfirst' := hfirst.asks (n := w.link.bus.nextInbox) rfl hms
      rw [← hbus] at hfirst'
      simp only [sendSurvey, hsent]
      refine ⟨List.pairwise_cons.2 ⟨fun p hp => ?_, hapart⟩, fun p hp => ?_⟩
      · obtain ⟨-, -, hid, n, hn, hinbox⟩ := hrest p hp
        rw [hnext] at hid
        rw [hnextInbox] at hn
        refine ⟨Nat.ne_of_lt hid, ?_⟩
        rw [hinbox]
        exact mt Subject.inbox_inj.1 (Nat.ne_of_lt hn)
      · rcases List.mem_cons.1 hp with rfl | hp
        · exact ⟨hfirst', rfl, Nat.le_refl _, _, Nat.le_refl _, rfl⟩
        · obtain ⟨hawaits, hdeadline, hid, n, hn, hinbox⟩ := hrest p hp
          exact ⟨hawaits, hdeadline, by omega, n, by omega, hinbox⟩

/-- The questions that are waited for are those that were not refused. -/
theorem sendSurvey_fst (w : World) (now : Nat) (timeoutMs : UInt64)
    (records : List LedgerRecord) :
    (w.sendSurvey now timeoutMs records).1.map (·.1) =
      records.filter fun r => (Ledger.query timeoutMs r).subject ∉ w.link.refused := by
  induction records generalizing w with
  | nil => rfl
  | cons r rest ih =>
    have hrefused := (w.request_sent now (Ledger.query timeoutMs r)).2
    rcases w.request_query now timeoutMs r with ⟨hsent, hno, -⟩ | ⟨hsent, hyes, -⟩
    · simp [sendSurvey, hsent, ih, hrefused, hno]
    · simp [sendSurvey, hsent, ih, hrefused, hyes]

theorem mem_sendSurvey {records : List LedgerRecord} (hr : r ∈ records)
    (hopen : Subject.nodeStats r.nodeId ∉ w.link.refused) (now : Nat) (timeoutMs : UInt64) :
    ∃ x, (r, x) ∈ (w.sendSurvey now timeoutMs records).1 := by
  have hasked : r ∈ (w.sendSurvey now timeoutMs records).1.map (·.1) := by
    rw [sendSurvey_fst]
    exact List.mem_filter.2 ⟨hr, decide_eq_true hopen⟩
  obtain ⟨⟨_, x⟩, hx, rfl⟩ := List.mem_map.1 hasked
  exact ⟨x, hx⟩

theorem pollSurvey_keeps (w : World) (now : Nat) (report : SweepReport) (questions : List Question) :
    (w.pollSurvey now report questions).2.2.clock = w.clock ∧
      (w.pollSurvey now report questions).2.2.ttl = w.ttl ∧
      (w.pollSurvey now report questions).2.2.link.refused = w.link.refused ∧
      ∃ ms, (w.pollSurvey now report questions).2.2.link.bus = w.link.bus.after ms := by
  induction questions generalizing w report with
  | nil => exact ⟨rfl, rfl, rfl, [], rfl⟩
  | cons p rest ih =>
    obtain ⟨r, x⟩ := p
    obtain ⟨ms, hbus, -⟩ := x.poll_moves w.link.bus now
    simp only [pollSurvey]
    split
    · rename_i replies _
      obtain ⟨-, hclock, httl⟩ := mergeReplies_ledger
        { w with link := { w.link with bus := (x.poll w.link.bus now).2.2 } } report r replies
      have hlink := mergeReplies_link
        { w with link := { w.link with bus := (x.poll w.link.bus now).2.2 } } report r replies
      obtain ⟨hclock', httl', hrefused, more, hmore⟩ := ih _ _
      refine ⟨hclock'.trans hclock, httl'.trans httl, hrefused.trans (by rw [hlink]), ms ++ more, ?_⟩
      rw [hmore, hlink, hbus, Bus.after_append]
    · obtain ⟨hclock, httl, hrefused, more, hmore⟩ :=
        ih { w with link := { w.link with bus := (x.poll w.link.bus now).2.2 } } report
      exact ⟨hclock, httl, hrefused, ms ++ more, by rw [hmore, hbus, Bus.after_append]⟩

/-- Questions that stay open are those from before. -/
theorem pollSurvey_open {report : SweepReport} {questions : List Question} {p : Question}
    (h : p ∈ (w.pollSurvey now report questions).1) :
    ∃ q ∈ questions, ∃ collected, p = (q.1, { q.2 with collected }) := by
  induction questions generalizing w report with
  | nil => simp [pollSurvey] at h
  | cons q rest ih =>
    simp only [pollSurvey] at h
    split at h
    · obtain ⟨q', hq', hp⟩ := ih h
      exact ⟨q', List.mem_cons_of_mem _ hq', hp⟩
    · rcases List.mem_cons.1 h with rfl | h
      · obtain ⟨collected, hx⟩ := q.2.poll_fst w.link.bus now
        exact ⟨q, List.mem_cons_self, collected, by rw [hx]⟩
      · obtain ⟨q', hq', hp⟩ := ih h
        exact ⟨q', List.mem_cons_of_mem _ hq', hp⟩

theorem pollSurvey_apart {questions : List Question} (h : questions.Pairwise Question.Apart) (w : World)
    (now : Nat) (report : SweepReport) :
    (w.pollSurvey now report questions).1.Pairwise Question.Apart := by
  induction questions generalizing w report with
  | nil => simp [pollSurvey]
  | cons q rest ih =>
    obtain ⟨hfirst, hrest⟩ := List.pairwise_cons.1 h
    simp only [pollSurvey]
    split
    · exact ih hrest _ _
    · refine List.pairwise_cons.2 ⟨fun p hp => ?_, ih hrest _ _⟩
      obtain ⟨q', hq', collected, rfl⟩ := pollSurvey_open hp
      obtain ⟨collected', hx⟩ := q.2.poll_fst w.link.bus now
      rw [hx]
      exact hfirst q' hq'

theorem pollSurvey_spares {x : Exchange} {came : List Json} {report : SweepReport}
    {questions : List Question} (h : x.Awaits w.link.bus came)
    (hapart : ∀ q ∈ questions, Question.Apart (r, x) q) :
    x.Awaits (w.pollSurvey now report questions).2.2.link.bus came := by
  induction questions generalizing w report with
  | nil => exact h
  | cons q rest ih =>
    obtain ⟨hsubscription, hinbox⟩ := hapart q List.mem_cons_self
    have hrest : ∀ q ∈ rest, Question.Apart (r, x) q := fun q hq => hapart q (List.mem_cons_of_mem _ hq)
    have hpolled := h.poll_other hsubscription.symm hinbox.symm now
    simp only [pollSurvey]
    split
    · refine ih ?_ hrest
      rwa [mergeReplies_link]
    · exact ih hpolled hrest

/-- Before their deadline, questions to a node stay open or are merged, if nothing comes to them but
answers. -/
theorem pollSurvey_hears {node : NodeId} {questions : List Question}
    (hapart : questions.Pairwise Question.Apart)
    (hhears : ∀ p ∈ questions, p.1.nodeId = node → p.2.Hears w.link.bus p.1 ∧ now < p.2.deadline)
    (report : SweepReport) :
    (∀ p ∈ (w.pollSurvey now report questions).1, p.1.nodeId = node →
      p.2.Hears (w.pollSurvey now report questions).2.2.link.bus p.1) ∧
    ∀ p ∈ questions, p.1.nodeId = node → (∃ x, (p.1, x) ∈ (w.pollSurvey now report questions).1) ∨
      ∃ reply, Ledger.Answers reply p.1 ∧
        .merge w.clock w.ttl p.1 reply ∈ Ledger.answered now w.clock w.ttl w.link.bus questions := by
  induction questions generalizing w report with
  | nil => simp [pollSurvey]
  | cons p rest ih =>
    obtain ⟨r, x⟩ := p
    obtain ⟨hfirst, hrest⟩ := List.pairwise_cons.1 hapart
    have hothers : ∀ p ∈ rest, p.1.nodeId = node →
        p.2.Hears (x.poll w.link.bus now).2.2 p.1 ∧ now < p.2.deadline := by
      intro p hp hnode
      obtain ⟨hsubscription, hinbox⟩ := hfirst p hp
      obtain ⟨hears, hnow⟩ := hhears p (List.mem_cons_of_mem _ hp) hnode
      obtain ⟨came, hawaits, hanswers⟩ := hears
      exact ⟨⟨came, hawaits.poll_other hsubscription hinbox now, hanswers⟩, hnow⟩
    simp only [pollSurvey, Ledger.answered]
    rcases hpoll : x.poll w.link.bus now with ⟨outcome, x', bus⟩
    rw [hpoll] at hothers
    cases outcome with
    | some replies =>
      obtain ⟨-, hclock, httl⟩ :=
        mergeReplies_ledger { w with link := { w.link with bus } } report r replies
      have hlink := mergeReplies_link { w with link := { w.link with bus } } report r replies
      obtain ⟨hears, hdone⟩ := ih hrest (by rw [hlink]; exact hothers) _
      refine ⟨hears, fun p hp hnode => ?_⟩
      rcases List.mem_cons.1 hp with rfl | hp
      · obtain ⟨hx, hnow⟩ := hhears (r, x) List.mem_cons_self hnode
        obtain ⟨reply, hstats, hanswers⟩ := hx.poll_over hnow (by rw [hpoll])
        exact .inr ⟨reply, hanswers, List.mem_append_left _ (by simp [hstats])⟩
      · rcases hdone p hp hnode with hopen | ⟨reply, hanswers, hmem⟩
        · exact .inl hopen
        · rw [hlink, hclock, httl] at hmem
          exact .inr ⟨reply, hanswers, List.mem_append_right _ hmem⟩
    | none =>
      obtain ⟨hears, hdone⟩ := ih (w := { w with link := { w.link with bus } }) hrest hothers report
      refine ⟨fun p hp hnode => ?_, fun p hp hnode => ?_⟩
      · rcases List.mem_cons.1 hp with rfl | hp
        · have hstill := (hhears (r, x) List.mem_cons_self hnode).1.poll_open (by rw [hpoll])
          obtain ⟨collected, hx⟩ := x.poll_fst w.link.bus now
          rw [hpoll] at hstill hx
          obtain rfl : x' = _ := hx
          obtain ⟨came, hawaits, hanswers⟩ := hstill
          exact ⟨came, pollSurvey_spares (r := r) hawaits hfirst, hanswers⟩
        · exact hears p hp hnode
      · rcases List.mem_cons.1 hp with rfl | hp
        · exact .inl ⟨x', List.mem_cons_self⟩
        · rcases hdone p hp hnode with ⟨y, hy⟩ | ⟨reply, hanswers, hmem⟩
          · exact .inl ⟨y, List.mem_cons_of_mem _ hy⟩
          · exact .inr ⟨reply, hanswers, List.mem_append_right _ hmem⟩

theorem mergeReplies_answered {replies : Replies} {reply : StatsReply}
    (hstats : Ledger.statsOf replies = some reply) (hanswers : Ledger.Answers reply r) (w : World)
    (report : SweepReport) : w.mergeReplies report r replies =
      ({ report with refreshed := report.refreshed + 1 }, { w with
        store := { w.store with ledger := (w.store.ledger.merge w.clock w.ttl r reply).2 } }) := by
  simp [mergeReplies, hstats, mergeStats, Ledger.merge, hanswers]

/-- A question to which an answer has come is merged. -/
theorem pollSurvey_answered {x : Exchange} {payload : Json} {more : List Json} {reply : StatsReply}
    (h : x.Awaits w.link.bus (payload :: more)) (hread : StatsReply.codec.read payload = .ok reply)
    (hanswers : Ledger.Answers reply r) (now : Nat) (report : SweepReport) (rest : List Question) :
    ∃ report', w.pollSurvey now report ((r, x) :: rest) =
      World.pollSurvey
        { w with
          store := { w.store with ledger := (w.store.ledger.merge w.clock w.ttl r reply).2 }
          link := { w.link with bus := (x.poll w.link.bus now).2.2 } } now report' rest := by
  have hover := (h.isSome_poll_iff now).2 (.inl (List.cons_ne_nil _ _))
  rcases hx : x.poll w.link.bus now with ⟨outcome, x', bus⟩
  rw [hx] at hover
  cases outcome with
  | none => simp at hover
  | some replies =>
    obtain rfl := h.poll_over (congrArg Prod.fst hx)
    refine ⟨{ report with refreshed := report.refreshed + 1 }, ?_⟩
    have hstats : Ledger.statsOf (.ok ((payload :: more).take 1)) = some reply := by
      simp [Ledger.statsOf, hread, Except.toOption]
    simp only [pollSurvey, hx, mergeReplies_answered hstats hanswers]

theorem pollSurvey_waiting {x : Exchange} (h : x.Awaits w.link.bus []) (hnow : now < x.deadline)
    (report : SweepReport) : ∃ bus collected, { x with collected }.Awaits bus [] ∧
      w.pollSurvey now report [(r, x)] =
        ([(r, { x with collected })], report, { w with link := { w.link with bus } }) := by
  have hopen : (x.poll w.link.bus now).1 = none := by
    rw [← Option.not_isSome_iff_eq_none, h.isSome_poll_iff]
    simp [hnow]
  have hstill := h.poll_open hopen
  obtain ⟨collected, hfst⟩ := x.poll_fst w.link.bus now
  rcases hx : x.poll w.link.bus now with ⟨outcome, x', bus⟩
  rw [hx] at hopen hstill hfst
  obtain rfl : outcome = none := hopen
  obtain rfl : x' = _ := hfst
  exact ⟨bus, collected, hstill, by simp [pollSurvey, hx]⟩

end World

end AppFleet
