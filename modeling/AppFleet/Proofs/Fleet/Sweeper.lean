import AppFleet.Config.Check
import AppFleet.Proofs.Fleet.Questions
import AppFleet.Proofs.Ledger.Reports
import AppFleet.Simulation.Basic

/-! A ledger that is swept again and again, and that no heartbeat comes to. A sweep lasts until the
slowest node has answered or is given up, and the next one is due a pause after that: so a record has to
live for both, even if its own node answers at once. -/

namespace AppFleet

namespace Ledger

/-- A ledger still has the record of a slot, whose stamp is as it should be. -/
def StillHas (l : Ledger) (r : LedgerRecord) (P : Stamp → Prop) : Prop :=
  ∃ r', l.get? r.slot = some r' ∧ r'.pair = r.pair ∧ r'.holding = r.holding ∧ P r'.stamp

variable {l : Ledger} {r requested : LedgerRecord} {P : Stamp → Prop} {ws : List Write} {now ttl : UInt64}
  {reply : StatsReply}

theorem StillHas.imp {Q : Stamp → Prop} (h : l.StillHas r P) (himp : ∀ stamp, P stamp → Q stamp) :
    l.StillHas r Q := by
  obtain ⟨r', hr', hpair, hholding, hP⟩ := h
  exact ⟨r', hr', hpair, hholding, himp _ hP⟩

/-- A merge leaves a record as it was, or refreshes it. -/
theorem StillHas.merge (h : l.StillHas r P) (hP : P ⟨now, ttl⟩) :
    ((Write.merge now ttl requested reply).perform l).StillHas r P := by
  obtain ⟨r', hr', hpair, hholding, hstamp⟩ := h
  by_cases hanswers : Answers reply requested
  · by_cases hslot : r.slot = requested.slot
    · refine ⟨(refreshed now ttl r' reply).stored, ?_, hpair, hholding, hP⟩
      rw [hslot, get?_merge_self hanswers, ← hslot, hr']
      rfl
    · exact ⟨r', (get?_perform_of_ne hslot).trans hr', hpair, hholding, hstamp⟩
  · rw [perform_merge_of_not hanswers]
    exact ⟨r', hr', hpair, hholding, hstamp⟩

theorem StillHas.merge_self (h : l.StillHas r P) (hanswers : Answers reply requested)
    (hslot : r.slot = requested.slot) :
    ((Write.merge now ttl requested reply).perform l).StillHas r (· = ⟨now, ttl⟩) := by
  obtain ⟨r', hr', hpair, hholding, -⟩ := h
  refine ⟨(refreshed now ttl r' reply).stored, ?_, hpair, hholding, rfl⟩
  rw [hslot, get?_merge_self hanswers, ← hslot, hr']
  rfl

theorem merge_of_mem_answered {at' : Nat} {bus : Bus} {questions : List Question} {w : Write}
    (h : w ∈ answered at' now ttl bus questions) :
    ∃ requested reply, w = .merge now ttl requested reply := by
  induction questions generalizing bus with
  | nil => simp [answered] at h
  | cons p rest ih =>
    rcases List.mem_append.1 h with h | h
    · obtain ⟨reply, -, rfl⟩ := List.mem_map.1 h
      exact ⟨p.1, reply, rfl⟩
    · exact ih h

theorem StillHas.merges (h : l.StillHas r P) (hP : P ⟨now, ttl⟩)
    (hws : ∀ w ∈ ws, ∃ requested reply, w = .merge now ttl requested reply) :
    (ws.foldl Write.perform l).StillHas r P := by
  induction ws generalizing l with
  | nil => exact h
  | cons w ws ih =>
    obtain ⟨requested, reply, rfl⟩ := hws w List.mem_cons_self
    exact ih (h.merge hP) fun w hw => hws w (List.mem_cons_of_mem _ hw)

theorem StillHas.merges_self (h : l.StillHas r P)
    (hws : ∀ w ∈ ws, ∃ requested reply, w = .merge now ttl requested reply)
    (hmem : .merge now ttl requested reply ∈ ws) (hanswers : Answers reply requested)
    (hslot : r.slot = requested.slot) : (ws.foldl Write.perform l).StillHas r (· = ⟨now, ttl⟩) := by
  obtain ⟨early, late, rfl⟩ := List.append_of_mem hmem
  have hany : l.StillHas r fun _ => True := h.imp fun _ _ => trivial
  have hearly : (early.foldl Write.perform l).StillHas r fun _ => True :=
    hany.merges trivial fun w hw => hws w (List.mem_append_left _ hw)
  rw [List.foldl_append, List.foldl_cons]
  exact (hearly.merge_self hanswers hslot).merges rfl
    fun w hw => hws w (List.mem_append_right _ (List.mem_cons_of_mem _ hw))

end Ledger

namespace LedgerConfig

def sweep (c : LedgerConfig) : Activity Unit := do
  let _ ← Ledger.sweep c.statsMs

def cycle (c : LedgerConfig) (due : Nat) : Cycle := ⟨c.sweepMs, c.sweep, .asleep due c.sweep⟩

/-- A record lives as long as a pause and the slowest answer together, in whole seconds, or for ever. -/
def Outlasts (c : LedgerConfig) : Prop :=
  c.sweepSecs.toNat + (c.statsMs.toNat + 999) / 1000 ≤ c.ttlSecs.toNat ∨
    c.ttlSecs.toNat = UInt64.size - 1

end LedgerConfig

theorem Config.validate_ledger {config : Config} (h : config.validate = .ok ()) :
    config.ledger.sweepSecs < config.ledger.ttlSecs ∧ 0 < config.ledger.statsMs.toNat := by
  simp only [validate, nonzero, bind, Except.bind] at h
  split_ifs at h with httl hsweep hlonger hstats
  exact ⟨UInt64.not_le.1 hlonger, Nat.pos_of_ne_zero fun hzero => hstats (UInt64.toNat_inj.1 hzero)⟩

/-- A plane that starts sweeps in just this cycle. -/
theorem Simulation.startPlane_cycles (config : Config) (clock wallClock : UInt64) :
    ∃ due, (startPlane config clock wallClock).cycles = [config.ledger.cycle due] := ⟨_, rfl⟩

structure Sweeper where
  /-- What the clock showed at the beginning, in milliseconds. -/
  epoch : Nat
  /-- Milliseconds since the beginning. -/
  now : Nat
  world : World
  cycle : Cycle

namespace Sweeper

inductive Event where
  /-- The cycle goes on, if it can. -/
  | poll
  /-- Anyone on the bus sends something, as a node does that answers. -/
  | deliver (e : Envelope)
  | wait (ms : Nat)

/-- What a clock shows: whole seconds. It stands still when it has come to its end. -/
def reading (ms : Nat) : UInt64 := .ofNatClamp (ms / 1000)

def start (c : LedgerConfig) (epoch due : Nat) (w : World) : Sweeper :=
  ⟨epoch, 0, { w with clock := reading epoch, ttl := c.ttlSecs }, c.cycle due⟩

def step (s : Sweeper) : Event → Sweeper
  | .poll =>
    let (_, cycle, world) := Simulation.Cycle.poll s.now s.cycle s.world
    { s with world, cycle }
  | .deliver e =>
    { s with world := { s.world with link := { s.world.link with bus := s.world.link.bus.deliver e } } }
  | .wait ms =>
    { s with
      now := s.now + ms
      world := { s.world with clock := reading (s.epoch + (s.now + ms)) } }

def run (s : Sweeper) (es : List Event) : Sweeper := es.foldl step s

def questions (s : Sweeper) : List Question :=
  match s.cycle.stage with
  | .surveying questions _ _ => questions
  | _ => []

def IsDue (s : Sweeper) : Prop := ∃ wake next, s.cycle.stage = .asleep wake next ∧ wake ≤ s.now

/-- What may happen where a node answers at once. All goes on as soon as it can: no time passes
beyond the next moment that is waited for, nor as long as the node has not answered. What comes to a
question to the node answers it. All other nodes do as they like. -/
def Allows (node : NodeId) (s : Sweeper) : Event → Prop
  | .poll => True
  | .deliver e => ∀ p ∈ s.questions, p.1.nodeId = node → e.subject = p.2.inbox →
      p.1.AnsweredBy e.payload
  | .wait ms => (∀ moment ∈ s.cycle.stage.wake?, s.now + ms ≤ moment) ∧
      ∀ p ∈ s.questions, p.1.nodeId ≠ node

def Prompt (node : NodeId) (s : Sweeper) (es : List Event) : Prop :=
  ∀ past e, past ++ [e] <+: es → (s.run past).Allows node e

/-- Whoever holds the slot of a record still does, and is within its time to live: it shows as it
was last reported, and it is asked if it is time for a sweep. -/
def Keeps (s : Sweeper) (r : LedgerRecord) : Prop :=
  ∃ r', s.world.store.ledger.get? r.slot = some r' ∧ r'.pair = r.pair ∧ r'.holding = r.holding ∧
    r'.isExpired s.world.clock = false ∧ r'.stateAt s.world.clock = r'.state ∧
    (s.IsDue → ∃ x, (r', x) ∈ (s.step .poll).questions)

@[simp] theorem run_nil (s : Sweeper) : s.run [] = s := rfl

@[simp] theorem run_snoc (s : Sweeper) (es : List Event) (e : Event) :
    s.run (es ++ [e]) = (s.run es).step e := by
  simp [run]

variable {c : LedgerConfig} {s : Sweeper} {r : LedgerRecord}

theorem toNat_reading (ms : Nat) : (reading ms).toNat = min (ms / 1000) (UInt64.size - 1) := by
  rw [reading]
  rcases Nat.lt_or_ge (ms / 1000) UInt64.size with hlt | hge
  · rw [UInt64.toNat_ofNatClamp_of_lt hlt]
    omega
  · rw [UInt64.toNat_ofNatClamp_of_le hge]
    omega

/-- A record that was refreshed when a sweep began is within its time to live until the next one,
however long the nodes take. -/
theorem covers_of_outlasts (hc : c.Outlasts) {stamp : Stamp} {asked later : Nat}
    (hmoment : (reading asked).toNat ≤ stamp.moment.toNat) (httl : stamp.ttl = c.ttlSecs)
    (hlater : later ≤ asked + c.statsMs.toNat + c.sweepMs) : stamp.Covers (reading later) := by
  rw [toNat_reading] at hmoment
  rw [Stamp.Covers, httl, toNat_reading]
  rw [LedgerConfig.sweepMs] at hlater
  rcases hc with hsum | hmax
  · omega
  · omega

theorem covers_of_le {stamp : Stamp} {a b : Nat} (h : stamp.Covers (reading b)) (hab : a ≤ b) :
    stamp.Covers (reading a) := by
  rw [Stamp.Covers, toNat_reading] at h ⊢
  have hdiv : a / 1000 ≤ b / 1000 := Nat.div_le_div_right hab
  omega

theorem advance_sweep {now : Nat} {w w' : World} {questions : List Question}
    (h : w.sendSurvey now c.statsMs (w.store.ledger.live w.clock) = (questions, w'))
    (hsome : questions ≠ []) : ∃ report,
      c.sweep.advance now w = (.surveying questions report fun _ => .done (), w') := by
  obtain ⟨p, rest, rfl⟩ := List.exists_cons_of_ne_nil hsome
  have hasks : c.sweep.advance now w = (Activity.survey (w.store.ledger.live w.clock) c.statsMs
      fun _ => .done ()).advance now w := rfl
  exact ⟨⟨(w.store.ledger.live w.clock).length, 0⟩, by rw [hasks, Activity.advance, h]⟩

theorem step_poll_due {wake : Nat} {w' : World} {questions : List Question}
    (hstage : s.cycle.stage = .asleep wake c.sweep) (hdue : wake ≤ s.now)
    (h : s.world.sendSurvey s.now c.statsMs (s.world.store.ledger.live s.world.clock) =
      (questions, w')) (hsome : questions ≠ []) : ∃ report, s.step .poll =
      { s with
        world := w'
        cycle := { s.cycle with stage := .surveying questions report fun _ => .done () } } := by
  obtain ⟨report, hadvance⟩ := advance_sweep h hsome
  refine ⟨report, ?_⟩
  simp only [step, Simulation.Cycle.poll, hstage, Stage.poll, hdue, if_true, hadvance,
    Stage.isFinished, Bool.false_eq_true, if_false]

/-- No sweep begins before it is due. -/
theorem step_poll_asleep {wake : Nat} {next : Activity Unit}
    (hstage : s.cycle.stage = .asleep wake next) (hearly : ¬ wake ≤ s.now) : s.step .poll = s := by
  simp only [step, Simulation.Cycle.poll, hstage, Stage.poll, hearly, if_false, Stage.isFinished,
    Bool.false_eq_true]
  rw [← hstage]

/-- A sweep goes on until no question is open, and then there is a pause. -/
theorem step_poll_surveying {questions left : List Question} {report report' : SweepReport}
    {next : SweepReport → Activity Unit} {w' : World}
    (hstage : s.cycle.stage = .surveying questions report next) (hnext : ∀ report, next report = .done ())
    (h : s.world.pollSurvey s.now report questions = (left, report', w')) : s.step .poll =
      { s with
        world := w'
        cycle := { s.cycle with
          stage := if left = [] then .asleep (s.now + s.cycle.pauseMs) s.cycle.turn
            else .surveying left report' next } } := by
  cases left with
  | nil =>
    simp only [step, Simulation.Cycle.poll, hstage, Stage.poll, h, hnext, Activity.advance,
      Stage.isFinished, if_true]
  | cons p rest =>
    simp only [step, Simulation.Cycle.poll, hstage, Stage.poll, h, Stage.isFinished,
      Bool.false_eq_true, if_false, reduceCtorEq]

structure Steady (c : LedgerConfig) (node : NodeId) (s : Sweeper) : Prop where
  pauseMs : s.cycle.pauseMs = c.sweepMs
  turn : s.cycle.turn = c.sweep
  clock : s.world.clock = reading (s.epoch + s.now)
  ttl : s.world.ttl = c.ttlSecs
  fresh : s.world.link.bus.Fresh
  reached : Subject.nodeStats node ∉ s.world.link.refused

/-- A survey of some moment. The record has been refreshed since then, or there is a question about
it to which only an answer can come, and no time has passed. -/
structure Surveys (c : LedgerConfig) (r : LedgerRecord) (s : Sweeper) (questions : List Question)
    (asked : Nat) : Prop where
  some : questions ≠ []
  apart : questions.Pairwise Question.Apart
  deadline : ∀ p ∈ questions, p.2.deadline = asked + c.statsMs.toNat
  hears : ∀ p ∈ questions, p.1.nodeId = r.nodeId → p.2.Hears s.world.link.bus p.1
  prompt : ∀ p ∈ questions, p.1.nodeId = r.nodeId → s.now = asked
  asked_le : asked ≤ s.now
  le_deadline : s.now ≤ asked + c.statsMs.toNat
  record : ((∃ p ∈ questions, p.1.slot = r.slot ∧ p.1.nodeId = r.nodeId) ∧
      s.world.store.ledger.StillHas r (·.Covers (reading (s.epoch + asked)))) ∨
    s.world.store.ledger.StillHas r fun stamp =>
      (reading (s.epoch + asked)).toNat ≤ stamp.moment.toNat ∧ stamp.ttl = c.ttlSecs

/-- How a record fares: it lives until the next sweep, or a survey is under way. -/
def Fares (c : LedgerConfig) (r : LedgerRecord) (s : Sweeper) : Prop :=
  match s.cycle.stage with
  | .asleep wake next => next = c.sweep ∧ s.now ≤ wake ∧
      s.world.store.ledger.StillHas r (·.Covers (reading (s.epoch + wake)))
  | .surveying questions _ next => (∀ report, next report = .done ()) ∧
      ∃ asked, s.Surveys c r questions asked
  | _ => False

variable {node : NodeId}

theorem Surveys.covers (hc : c.Outlasts) {questions : List Question} {asked : Nat}
    (h : s.Surveys c r questions asked) :
    s.world.store.ledger.StillHas r (·.Covers (reading (s.epoch + s.now))) := by
  rcases h.record with ⟨⟨p, hp, -, hnode⟩, hholding⟩ | hholding
  · rw [h.prompt p hp hnode]
    exact hholding
  · refine hholding.imp fun stamp ⟨hmoment, httl⟩ => covers_of_outlasts hc hmoment httl ?_
    have hle := h.le_deadline
    omega

theorem Steady.of_world (h : s.Steady c node) {w' : World} {stage : Stage Unit}
    (hclock : w'.clock = s.world.clock) (httl : w'.ttl = s.world.ttl)
    (hrefused : w'.link.refused = s.world.link.refused)
    (hbus : ∃ ms, w'.link.bus = s.world.link.bus.after ms) :
    Steady c node { s with world := w', cycle := { s.cycle with stage } } := by
  obtain ⟨ms, hms⟩ := hbus
  exact ⟨h.pauseMs, h.turn, hclock.trans h.clock, httl.trans h.ttl, hms ▸ h.fresh.after ms,
    hrefused ▸ h.reached⟩

/-- A sweep begins, and asks about the record. -/
theorem Steady.begin (h : s.Steady c r.nodeId) {wake : Nat}
    (hstage : s.cycle.stage = .asleep wake c.sweep) (hnow : s.now = wake)
    (hholding : s.world.store.ledger.StillHas r (·.Covers (reading (s.epoch + wake)))) :
    (s.step .poll).Steady c r.nodeId ∧ (s.step .poll).Fares c r ∧
      ∃ r', s.world.store.ledger.get? r.slot = some r' ∧ ∃ x, (r', x) ∈ (s.step .poll).questions := by
  rw [← hnow] at hholding
  obtain ⟨r', hr', hpair, hheld, hcovers⟩ := id hholding
  obtain ⟨happ, hindex⟩ := Prod.mk.inj hpair
  have hslot : r'.slot = r.slot := by rw [LedgerRecord.slot, happ, hindex, LedgerRecord.slot]
  have hnode : r'.nodeId = r.nodeId := congrArg (·.nodeId) hheld
  have hlive : r' ∈ s.world.store.ledger.live s.world.clock := by
    rw [Ledger.live, List.mem_filter, Bool.not_eq_true', LedgerRecord.isExpired_eq_false_iff, h.clock]
    exact ⟨List.mem_map.2 ⟨(r.slot, r'), (Table.mem_entries_iff _).2 hr', rfl⟩, hcovers⟩
  obtain ⟨x, hx⟩ := World.mem_sendSurvey hlive (hnode ▸ h.reached) s.now c.statsMs
  obtain ⟨hapart, hasked⟩ := World.sendSurvey_awaits h.fresh s.now c.statsMs
    (s.world.store.ledger.live s.world.clock)
  obtain ⟨hclock, httl, hrefused⟩ := s.world.sendSurvey_keeps s.now c.statsMs
    (s.world.store.ledger.live s.world.clock)
  obtain ⟨ms, hbus, -⟩ := s.world.sendSurvey_moves s.now c.statsMs
    (s.world.store.ledger.live s.world.clock)
  have hledger := s.world.sendSurvey_ledger s.now c.statsMs
    (s.world.store.ledger.live s.world.clock)
  obtain ⟨report, hstep⟩ := step_poll_due hstage (Nat.le_of_eq hnow.symm) rfl (List.ne_nil_of_mem hx)
  rw [← hledger] at hholding
  rw [hstep]
  refine ⟨h.of_world hclock httl hrefused ⟨ms, hbus⟩, ⟨fun _ => rfl, s.now, ?_⟩, r', hr', x, hx⟩
  exact {
    some := List.ne_nil_of_mem hx
    apart := hapart
    deadline := fun p hp => (hasked p hp).2.1
    hears := fun p hp _ => ⟨[], (hasked p hp).1, by simp⟩
    prompt := fun _ _ _ => rfl
    asked_le := Nat.le_refl _
    le_deadline := Nat.le_add_right _ _
    record := .inl ⟨⟨(r', x), hx, hslot, hnode⟩, hholding⟩ }

theorem Surveys.record_poll (h : s.Steady c r.nodeId) {questions left : List Question} {asked : Nat}
    {report report' : SweepReport} {w' : World} (hsurveys : s.Surveys c r questions asked)
    (hpoll : s.world.pollSurvey s.now report questions = (left, report', w'))
    (hdone : ∀ p ∈ questions, p.1.nodeId = r.nodeId → (∃ x, (p.1, x) ∈ left) ∨
      ∃ reply, Ledger.Answers reply p.1 ∧ .merge s.world.clock s.world.ttl p.1 reply ∈
        Ledger.answered s.now s.world.clock s.world.ttl s.world.link.bus questions) :
    ((∃ p ∈ left, p.1.slot = r.slot ∧ p.1.nodeId = r.nodeId) ∧
      w'.store.ledger.StillHas r (·.Covers (reading (s.epoch + asked)))) ∨
    w'.store.ledger.StillHas r fun stamp =>
      (reading (s.epoch + asked)).toNat ≤ stamp.moment.toNat ∧ stamp.ttl = c.ttlSecs := by
  have hledger := s.world.pollSurvey_ledger s.now report questions
  rw [hpoll] at hledger
  have hmerges : ∀ w ∈ Ledger.answered s.now s.world.clock s.world.ttl s.world.link.bus questions,
      ∃ requested reply, w = .merge s.world.clock s.world.ttl requested reply :=
    fun _ => Ledger.merge_of_mem_answered
  have hlater : (reading (s.epoch + asked)).toNat ≤ s.world.clock.toNat := by
    have hle := hsurveys.asked_le
    rw [h.clock, toNat_reading, toNat_reading]
    omega
  rw [hledger]
  rcases hsurveys.record with ⟨⟨p, hp, hslot, hnode⟩, hholding⟩ | hholding
  · rcases hdone p hp hnode with ⟨x, hx⟩ | ⟨reply, hanswers, hmem⟩
    · refine .inl ⟨⟨(p.1, x), hx, hslot, hnode⟩, hholding.merges ?_ hmerges⟩
      rw [Stamp.Covers, ← hsurveys.prompt p hp hnode, ← h.clock]
      exact Nat.le_add_right _ _
    · refine .inr ((hholding.merges_self hmerges hmem hanswers hslot.symm).imp ?_)
      rintro stamp rfl
      exact ⟨hlater, h.ttl⟩
  · exact .inr (hholding.merges ⟨hlater, h.ttl⟩ hmerges)

/-- A survey goes on, and the next sweep is due a pause after its end. -/
theorem Surveys.poll (hc : c.Outlasts) (htimeout : 0 < c.statsMs.toNat) (h : s.Steady c r.nodeId)
    {questions : List Question} {asked : Nat} {report : SweepReport} {next : SweepReport → Activity Unit}
    (hsurveys : s.Surveys c r questions asked) (hstage : s.cycle.stage = .surveying questions report next)
    (hnext : ∀ report, next report = .done ()) :
    (s.step .poll).Steady c r.nodeId ∧ (s.step .poll).Fares c r := by
  obtain ⟨hclock, httl, hrefused, hbus⟩ := s.world.pollSurvey_keeps s.now report questions
  have hapart := World.pollSurvey_apart hsurveys.apart s.world s.now report
  have hintime (p : Question) (hp : p ∈ questions) (hnode : p.1.nodeId = r.nodeId) :
      p.2.Hears s.world.link.bus p.1 ∧ s.now < p.2.deadline := by
    refine ⟨hsurveys.hears p hp hnode, ?_⟩
    rw [hsurveys.deadline p hp, hsurveys.prompt p hp hnode]
    omega
  obtain ⟨hhears, hdone⟩ := World.pollSurvey_hears hsurveys.apart hintime report
  have hopen (p : Question) (hp : p ∈ (s.world.pollSurvey s.now report questions).1) :
      ∃ q ∈ questions, ∃ collected, p = (q.1, { q.2 with collected }) := World.pollSurvey_open hp
  rcases hpoll : s.world.pollSurvey s.now report questions with ⟨left, report', w'⟩
  rw [hpoll] at hclock httl hrefused hbus hapart hhears hdone hopen
  have hrecord := hsurveys.record_poll h hpoll hdone
  rw [step_poll_surveying hstage hnext hpoll]
  refine ⟨h.of_world hclock httl hrefused hbus, ?_⟩
  by_cases hleft : left = []
  · -- nothing is waited for any more, so the record has been refreshed
    subst hleft
    have hholding := hrecord.resolve_left fun ⟨⟨p, hp, _⟩, _⟩ => List.not_mem_nil hp
    simp only [Fares, if_true]
    refine ⟨h.turn, Nat.le_add_right _ _, hholding.imp fun stamp ⟨hmoment, hstamp⟩ => ?_⟩
    have hle := hsurveys.le_deadline
    rw [h.pauseMs]
    exact covers_of_outlasts hc hmoment hstamp (by omega)
  · simp only [Fares, hleft, if_false]
    refine ⟨hnext, asked, ?_⟩
    exact {
      some := hleft
      apart := hapart
      deadline := fun p hp => by
        obtain ⟨q, hq, collected, rfl⟩ := hopen p hp
        exact hsurveys.deadline q hq
      hears := hhears
      prompt := fun p hp hnode => by
        obtain ⟨q, hq, collected, rfl⟩ := hopen p hp
        exact hsurveys.prompt q hq hnode
      asked_le := hsurveys.asked_le
      le_deadline := hsurveys.le_deadline
      record := hrecord }

/-- Nobody but the node can say anything to a question to it. -/
theorem Surveys.deliver {questions : List Question} {asked : Nat} (h : s.Surveys c r questions asked)
    {e : Envelope} (hallows : ∀ p ∈ questions, p.1.nodeId = r.nodeId → e.subject = p.2.inbox →
      p.1.AnsweredBy e.payload) : (s.step (.deliver e)).Surveys c r questions asked := by
  refine { h with hears := fun p hp hnode => ?_ }
  obtain ⟨came, hawaits, hanswers⟩ := h.hears p hp hnode
  refine ⟨_, hawaits.deliver e, fun payload hpayload => ?_⟩
  rcases List.mem_append.1 hpayload with hbefore | hnew
  · exact hanswers payload hbefore
  · split at hnew
    · rename_i hsubject
      rw [List.mem_singleton.1 hnew]
      exact hallows p hp hnode hsubject
    · simp at hnew

/-- A survey is over by its deadline, and no time passes before its question to the node is answered. -/
theorem Surveys.wait {questions : List Question} {asked ms : Nat} (h : s.Surveys c r questions asked)
    (hwake : ∀ moment ∈ (questions.map (·.2.deadline)).min?, s.now + ms ≤ moment)
    (hnone : ∀ p ∈ questions, p.1.nodeId ≠ r.nodeId) :
    (s.step (.wait ms)).Surveys c r questions asked := by
  refine {
    h with
    prompt := fun p hp hnode => absurd hnode (hnone p hp)
    asked_le := Nat.le_trans h.asked_le (Nat.le_add_right _ _)
    le_deadline := ?_
    record := .inr (h.record.resolve_left fun ⟨⟨p, hp, _, hnode⟩, _⟩ => hnone p hp hnode) }
  cases hmin : (questions.map (·.2.deadline)).min? with
  | none => exact absurd (List.map_eq_nil_iff.1 (List.min?_eq_none_iff.1 hmin)) h.some
  | some moment =>
    obtain ⟨p, hp, hdeadline⟩ := List.mem_map.1 (List.min?_mem hmin)
    rw [← h.deadline p hp, hdeadline]
    exact hwake moment hmin

theorem step_fares (hc : c.Outlasts) (htimeout : 0 < c.statsMs.toNat) (h : s.Steady c r.nodeId)
    (hfares : s.Fares c r) {e : Event} (hallows : s.Allows r.nodeId e) :
    (s.step e).Steady c r.nodeId ∧ (s.step e).Fares c r := by
  unfold Fares at hfares
  split at hfares
  · rename_i wake next hstage
    obtain ⟨rfl, hnow, hholding⟩ := hfares
    cases e with
    | poll =>
      by_cases hdue : wake ≤ s.now
      · obtain ⟨hsteady, hbegun, -⟩ := h.begin hstage (Nat.le_antisymm hnow hdue) hholding
        exact ⟨hsteady, hbegun⟩
      · rw [step_poll_asleep hstage hdue]
        exact ⟨h, by rw [Fares, hstage]; exact ⟨rfl, hnow, hholding⟩⟩
    | deliver e =>
      refine ⟨⟨h.pauseMs, h.turn, h.clock, h.ttl, h.fresh.perform (.deliver e), h.reached⟩, ?_⟩
      rw [Fares, step, hstage]
      exact ⟨rfl, hnow, hholding⟩
    | wait ms =>
      refine ⟨⟨h.pauseMs, h.turn, rfl, h.ttl, h.fresh, h.reached⟩, ?_⟩
      rw [Fares, step, hstage]
      exact ⟨rfl, hallows.1 wake (by rw [hstage]; rfl), hholding⟩
  · rename_i questions report next hstage
    obtain ⟨hnext, asked, hsurveys⟩ := hfares
    have hquestions : s.questions = questions := by rw [Sweeper.questions, hstage]
    cases e with
    | poll => exact hsurveys.poll hc htimeout h hstage hnext
    | deliver e =>
      refine ⟨⟨h.pauseMs, h.turn, h.clock, h.ttl, h.fresh.perform (.deliver e), h.reached⟩, ?_⟩
      rw [Allows, hquestions] at hallows
      have hlater := hsurveys.deliver hallows
      rw [Fares, step, hstage]
      exact ⟨hnext, asked, hlater⟩
    | wait ms =>
      refine ⟨⟨h.pauseMs, h.turn, rfl, h.ttl, h.fresh, h.reached⟩, ?_⟩
      rw [Allows, hquestions, hstage] at hallows
      have hlater := hsurveys.wait hallows.1 hallows.2
      rw [Fares, step, hstage]
      exact ⟨hnext, asked, hlater⟩
  · exact hfares.elim

theorem Fares.keeps (hc : c.Outlasts) (h : s.Steady c r.nodeId) (hfares : s.Fares c r) : s.Keeps r := by
  have hcovers : s.world.store.ledger.StillHas r (·.Covers (reading (s.epoch + s.now))) := by
    unfold Fares at hfares
    split at hfares
    · obtain ⟨-, hnow, hholding⟩ := hfares
      exact hholding.imp fun stamp hstamp => covers_of_le hstamp (by omega)
    · obtain ⟨-, asked, hsurveys⟩ := hfares
      exact hsurveys.covers hc
    · exact hfares.elim
  obtain ⟨r', hr', hpair, hholding, hstamp⟩ := hcovers
  have hlive : r'.isExpired s.world.clock = false := by
    rw [LedgerRecord.isExpired_eq_false_iff, h.clock]
    exact hstamp
  refine ⟨r', hr', hpair, hholding, hlive, by simp [LedgerRecord.stateAt, hlive], ?_⟩
  rintro ⟨wake, next, hstage, hdue⟩
  rw [Fares, hstage] at hfares
  obtain ⟨rfl, hnow, hwake⟩ := hfares
  obtain ⟨-, -, r'', hr'', hasked⟩ := h.begin hstage (Nat.le_antisymm hnow hdue) hwake
  obtain rfl := Option.some.inj (hr'.symm.trans hr'')
  exact hasked

theorem Prompt.of_snoc {es : List Event} {e : Event} (h : s.Prompt node (es ++ [e])) :
    s.Prompt node es ∧ (s.run es).Allows node e :=
  ⟨fun past e' hpast => h past e' (hpast.trans (List.prefix_append _ _)), h es e (List.prefix_refl _)⟩

/-- A run in which the node answers at once keeps its records going. -/
theorem run_fares (hc : c.Outlasts) (htimeout : 0 < c.statsMs.toNat) (h : s.Steady c r.nodeId)
    (hfares : s.Fares c r) {es : List Event} (hprompt : s.Prompt r.nodeId es) :
    (s.run es).Steady c r.nodeId ∧ (s.run es).Fares c r := by
  induction es using List.reverseRecOn with
  | nil => exact ⟨h, hfares⟩
  | append_singleton es e ih =>
    obtain ⟨hbefore, hallows⟩ := hprompt.of_snoc
    obtain ⟨hsteady, hfares'⟩ := ih hbefore
    rw [run_snoc]
    exact step_fares hc htimeout hsteady hfares' hallows

end Sweeper

end AppFleet
