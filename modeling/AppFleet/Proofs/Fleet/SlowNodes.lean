import AppFleet.Proofs.Fleet.Sweeper

/-! What slow nodes do to the records of a node that is not. A sweep is over when the slowest node has
answered, and only then does the pause begin; so what matters is how long both take together. -/

namespace AppFleet

namespace Sweeper

variable {c : LedgerConfig} {s : Sweeper}

/-- A run in which a node answers at once leads from one state to another. -/
def Leads (node : NodeId) (s s' : Sweeper) : Prop := ∃ es, s.Prompt node es ∧ s.run es = s'

theorem Leads.refl (node : NodeId) (s : Sweeper) : s.Leads node s :=
  ⟨[], fun past e h => absurd h (by simp), rfl⟩

theorem Leads.step {node : NodeId} {s' : Sweeper} (h : s.Leads node s') {e : Event}
    (hallows : s'.Allows node e) : s.Leads node (s'.step e) := by
  obtain ⟨es, hprompt, rfl⟩ := h
  refine ⟨es ++ [e], fun past e' hpast => ?_, run_snoc s es e⟩
  rcases List.prefix_concat_iff.1 hpast with heq | hbefore
  · obtain ⟨rfl, rfl⟩ := List.append_singleton_inj.1 heq
    exact hallows
  · exact hprompt past e' hbefore

def heldBy (ttl : UInt64) (node : NodeId) (index : UInt32) : LedgerRecord :=
  ⟨"web", index, "v1", node ++ "-instance", node, .running, none, 0, ttl⟩

def twoNodes (ttl : UInt64) : World :=
  let w := World.initial 0 0 ttl
  let ledger := (w.store.ledger.put "web:0" (heldBy ttl "node-1" 0)).put "web:1" (heldBy ttl "node-2" 1)
  { w with store := { w.store with ledger } }

theorem slot_heldBy (ttl : UInt64) (node : NodeId) :
    (heldBy ttl node 0).slot = "web:0" ∧ (heldBy ttl node 1).slot = "web:1" := by
  have hkeys : LedgerRecord.key "web" 0 = "web:0" ∧ LedgerRecord.key "web" 1 = "web:1" := by
    decide +kernel
  exact hkeys

theorem get?_twoNodes (ttl : UInt64) : (twoNodes ttl).store.ledger.get? (heldBy ttl "node-1" 0).slot =
    some (heldBy ttl "node-1" 0) := by
  rw [(slot_heldBy ttl "node-1").1]
  exact (Table.get?_put_of_ne _ _ (by decide)).trans (Table.get?_put_self _ _ _)

theorem live_twoNodes (ttl : UInt64) : (twoNodes ttl).store.ledger.live (reading 999) =
    [heldBy ttl "node-1" 0, heldBy ttl "node-2" 1] := by
  have hlist : (twoNodes ttl).store.ledger.toList = [heldBy ttl "node-1" 0, heldBy ttl "node-2" 1] := rfl
  have hzero : (reading 999).toNat = 0 := rfl
  simp [Ledger.live, hlist, LedgerRecord.isExpired, hzero]

def asking (c : LedgerConfig) (now : Nat) (w : World) (questions : List Question)
    (report : SweepReport) : Sweeper :=
  ⟨999, now, w, c.sweepMs, c.sweep, .surveying questions report fun _ => .done ()⟩

theorem asked_twoNodes (c : LedgerConfig) : ∃ x y report w,
    (start c 999 0 (twoNodes c.ttlSecs)).step .poll = asking c 0 w
      [(heldBy c.ttlSecs "node-1" 0, x), (heldBy c.ttlSecs "node-2" 1, y)] report ∧
    Question.Apart (heldBy c.ttlSecs "node-1" 0, x) (heldBy c.ttlSecs "node-2" 1, y) ∧
    x.Awaits w.link.bus [] ∧ y.Awaits w.link.bus [] ∧ y.deadline = c.statsMs.toNat ∧
    w.store.ledger = (twoNodes c.ttlSecs).store.ledger ∧ w.clock = reading 999 ∧ w.ttl = c.ttlSecs := by
  let s := start c 999 0 (twoNodes c.ttlSecs)
  let records := [heldBy c.ttlSecs "node-1" 0, heldBy c.ttlSecs "node-2" 1]
  have hfresh : s.world.link.bus.Fresh := Bus.fresh_empty
  obtain ⟨hapart, hasked⟩ := World.sendSurvey_awaits hfresh 0 c.statsMs records
  obtain ⟨hclock, httl, -⟩ := s.world.sendSurvey_keeps 0 c.statsMs records
  have hledger := s.world.sendSurvey_ledger 0 c.statsMs records
  have hall : (s.world.sendSurvey 0 c.statsMs records).1.map (·.1) = records :=
    (s.world.sendSurvey_fst 0 c.statsMs records).trans rfl
  obtain ⟨x, y, w, hsent⟩ : ∃ x y w, s.world.sendSurvey 0 c.statsMs records =
      ([(heldBy c.ttlSecs "node-1" 0, x), (heldBy c.ttlSecs "node-2" 1, y)], w) := by
    obtain ⟨⟨_, x⟩, rest, hfst, rfl, hrest⟩ := List.map_eq_cons_iff.1 hall
    obtain ⟨⟨_, y⟩, none, rfl, rfl, hnone⟩ := List.map_eq_cons_iff.1 hrest
    obtain rfl := List.map_eq_nil_iff.1 hnone
    exact ⟨x, y, _, Prod.ext hfst rfl⟩
  have hlive : s.world.store.ledger.live s.world.clock = records := live_twoNodes c.ttlSecs
  rw [hsent] at hapart hasked hclock httl hledger
  rw [← hlive] at hsent
  obtain ⟨report, hstep⟩ := step_poll_due (s := s) rfl (Nat.le_refl 0) hsent (by simp)
  obtain ⟨hx, -⟩ := hasked _ List.mem_cons_self
  obtain ⟨hy, hdeadline, -⟩ := hasked _ (List.mem_cons_of_mem _ List.mem_cons_self)
  have hothers := (List.pairwise_cons.1 hapart).1 _ List.mem_cons_self
  exact ⟨x, y, report, w, hstep, hothers, hx, hy, hdeadline.trans (Nat.zero_add _), hledger, hclock, httl⟩

def running (index : UInt32) : Json :=
  .object [("app_id", .string "web"), ("index", .ofNat index.toUInt64), ("state", .string "RUNNING"),
    ("usage", .object
      [("cpu_percent", .ofNat 3), ("disk_bytes", .ofNat 32), ("memory_bytes", .ofNat 64)])]

theorem poll_answered {q : LedgerRecord} {x : Exchange} {payload : Json}
    (hanswers : q.AnsweredBy payload) {w : World} (hx : x.Awaits w.link.bus []) (now : Nat)
    (report : SweepReport) (rest : List Question) :
    ∃ reply bus report', Ledger.Answers reply q ∧
      (∀ y came, Question.Apart (q, x) (q, y) → y.Awaits w.link.bus came → y.Awaits bus came) ∧
      ((asking c now w ((q, x) :: rest) report).step (.deliver ⟨x.inbox, payload, none⟩)).world.pollSurvey
          now report ((q, x) :: rest) =
        World.pollSurvey
          { w with
            store := { w.store with ledger := (w.store.ledger.merge w.clock w.ttl q reply).2 }
            link := { w.link with bus } } now report' rest := by
  obtain ⟨reply, hread, hreply⟩ := hanswers
  have hcame := hx.deliver ⟨x.inbox, payload, none⟩
  rw [if_pos rfl, List.nil_append] at hcame
  let w' := ((asking c now w ((q, x) :: rest) report).step (.deliver ⟨x.inbox, payload, none⟩)).world
  have hcame' : x.Awaits w'.link.bus [payload] := hcame
  obtain ⟨report', hpoll⟩ := World.pollSurvey_answered hcame' hread hreply now report rest
  refine ⟨reply, (x.poll w'.link.bus now).2.2, report', hreply, fun y came hapart hy => ?_, hpoll⟩
  have hother := hy.deliver ⟨x.inbox, payload, none⟩
  rw [if_neg hapart.2, List.append_nil] at hother
  exact hother.poll_other hapart.1 hapart.2 now

/-- The first of two nodes answers at once. -/
theorem leads_first (htimeout : 0 < c.statsMs.toNat) : ∃ y report w,
    (start c 999 0 (twoNodes c.ttlSecs)).Leads "node-1"
      (asking c 0 w [(heldBy c.ttlSecs "node-2" 1, y)] report) ∧
    y.Awaits w.link.bus [] ∧ y.deadline = c.statsMs.toNat ∧
    w.store.ledger.StillHas (heldBy c.ttlSecs "node-1" 0) (· = ⟨reading 999, c.ttlSecs⟩) := by
  obtain ⟨x, y, report, w, hasked, hapart, hx, hy, hdeadline, hledger, hclock, httl⟩ := asked_twoNodes c
  have hanswers : (heldBy c.ttlSecs "node-1" 0).AnsweredBy (running 0) := ⟨_, rfl, rfl, rfl⟩
  obtain ⟨reply, bus, report', hreply, hothers, hfirst⟩ := poll_answered (c := c) hanswers hx 0 report
    [(heldBy c.ttlSecs "node-2" 1, y)]
  have hy' : y.Awaits bus [] := hothers y [] hapart hy
  have hintime : 0 < y.deadline := by omega
  obtain ⟨bus', collected, hy'', hpoll⟩ := World.pollSurvey_waiting
    (w := { w with
      store := { w.store with
        ledger := (w.store.ledger.merge w.clock w.ttl (heldBy c.ttlSecs "node-1" 0) reply).2 }
      link := { w.link with bus } })
    (r := heldBy c.ttlSecs "node-2" 1) hy' hintime report'
  rw [hpoll] at hfirst
  have hstep := step_poll_surveying rfl (fun _ => rfl) hfirst
  have hasks : (start c 999 0 (twoNodes c.ttlSecs)).Leads "node-1" (asking c 0 w
      [(heldBy c.ttlSecs "node-1" 0, x), (heldBy c.ttlSecs "node-2" 1, y)] report) :=
    hasked ▸ (Leads.refl _ _).step trivial
  have hcomes := hasks.step (e := .deliver ⟨x.inbox, running 0, none⟩) fun p hp hnode _ => by
    rcases List.mem_cons.1 hp with rfl | hp
    · exact hanswers
    · rw [List.mem_singleton.1 hp] at hnode
      exact absurd hnode (by simp [heldBy])
  have hpolled := hcomes.step (e := .poll) trivial
  rw [hstep] at hpolled
  refine ⟨{ y with collected }, report', _, hpolled, hy'', hdeadline, ?_⟩
  have hheld : w.store.ledger.StillHas (heldBy c.ttlSecs "node-1" 0) fun _ => True :=
    ⟨_, hledger ▸ get?_twoNodes c.ttlSecs, rfl, rfl, trivial⟩
  have hmerged : ((Ledger.Write.merge w.clock w.ttl (heldBy c.ttlSecs "node-1" 0) reply).perform
      w.store.ledger).StillHas (heldBy c.ttlSecs "node-1" 0) (· = ⟨w.clock, w.ttl⟩) :=
    hheld.merge_self hreply rfl
  exact hmerged.imp fun stamp hstamp => by rw [hstamp, hclock, httl]

theorem leads_second (htimeout : 0 < c.statsMs.toNat) {delay : Nat} (hdelay : delay ≤ c.statsMs.toNat) :
    ∃ s, (start c 999 0 (twoNodes c.ttlSecs)).Leads "node-1" s ∧
      s.world.clock = reading (999 + (0 + delay + c.sweepMs)) ∧
      s.world.store.ledger.StillHas (heldBy c.ttlSecs "node-1" 0) (· = ⟨reading 999, c.ttlSecs⟩) := by
  obtain ⟨y, report, w, hfirst, hy, hdeadline, hholding⟩ := leads_first htimeout
  have hanswers : (heldBy c.ttlSecs "node-2" 1).AnsweredBy (running 1) := ⟨_, rfl, rfl, rfl⟩
  have hother : (heldBy c.ttlSecs "node-2" 1).nodeId ≠ "node-1" := by simp [heldBy]
  let w' := { w with clock := reading (999 + (0 + delay)) }
  have hwaits : (start c 999 0 (twoNodes c.ttlSecs)).Leads "node-1"
      (asking c (0 + delay) w' [(heldBy c.ttlSecs "node-2" 1, y)] report) := by
    refine hfirst.step (e := .wait delay) ⟨fun moment hmoment => ?_, fun p hp => ?_⟩
    · obtain rfl : y.deadline = moment := by simpa [asking, Stage.wake?] using hmoment
      change 0 + delay ≤ y.deadline
      omega
    · rw [List.mem_singleton.1 hp]
      exact hother
  have hy' : y.Awaits w'.link.bus [] := hy
  obtain ⟨reply, bus, report', hreply, -, hpoll⟩ :=
    poll_answered (c := c) hanswers hy' (0 + delay) report []
  have hcomes := hwaits.step (e := .deliver ⟨y.inbox, running 1, none⟩) fun p hp hnode _ => by
    rw [List.mem_singleton.1 hp] at hnode
    exact absurd hnode hother
  have hpolled := hcomes.step (e := .poll) trivial
  rw [step_poll_surveying rfl (fun _ => rfl) hpoll, if_pos rfl] at hpolled
  have hpaused := hpolled.step (e := .wait c.sweepMs) ⟨fun moment hmoment => by
    obtain rfl := Option.some.inj hmoment
    exact Nat.le_refl _, fun p hp => absurd hp (by simp [questions])⟩
  refine ⟨_, hpaused, rfl, ?_⟩
  obtain ⟨r', hr', hpair, hheld, hstamp⟩ := hholding
  refine ⟨r', ?_, hpair, hheld, hstamp⟩
  have hslot : (heldBy c.ttlSecs "node-1" 0).slot ≠ (heldBy c.ttlSecs "node-2" 1).slot := by
    rw [(slot_heldBy _ _).1, (slot_heldBy _ _).2]
    decide
  have hkept : ((Ledger.Write.merge w'.clock w'.ttl (heldBy c.ttlSecs "node-2" 1) reply).perform
      w.store.ledger).get? (heldBy c.ttlSecs "node-1" 0).slot = some r' :=
    (Ledger.get?_perform_of_ne hslot).trans hr'
  exact hkept

/-- A record expires although its node answers at once, if another is slow enough. -/
theorem expires_of_not_outlasts (hsweep : c.sweepSecs < c.ttlSecs) (htimeout : 0 < c.statsMs.toNat)
    (hc : ¬ c.Outlasts) : ∃ s, (start c 999 0 (twoNodes c.ttlSecs)).Leads "node-1" s ∧
      ¬ s.Keeps (heldBy c.ttlSecs "node-1" 0) := by
  have hlt : c.sweepSecs.toNat < c.ttlSecs.toNat := UInt64.lt_iff_toNat_lt.1 hsweep
  have hmax : c.ttlSecs.toNat < UInt64.size := c.ttlSecs.toNat_lt
  rw [LedgerConfig.Outlasts, not_or] at hc
  obtain ⟨hshort, hends⟩ := hc
  -- one millisecond more than whole seconds, which the clock rounds up
  let delay := 1000 * (c.ttlSecs.toNat - c.sweepSecs.toNat) + 1
  have hdelay : delay ≤ c.statsMs.toNat := by omega
  obtain ⟨s, hleads, hclock, r', hr', -, -, hstamp⟩ := leads_second htimeout hdelay
  refine ⟨s, hleads, ?_⟩
  rintro ⟨r'', hr'', -, -, hlive, -⟩
  obtain rfl := Option.some.inj (hr'.symm.trans hr'')
  rw [LedgerRecord.isExpired_eq_false_iff, hstamp, Stamp.Covers, hclock, toNat_reading, toNat_reading,
    LedgerConfig.sweepMs] at hlive
  dsimp only at hlive
  omega

/-- If a node answers at once, its records stay live and are asked about in every sweep, whatever the
other nodes do and whatever the ledger holds. They are live when the sweeps begin. -/
def StaysLive (c : LedgerConfig) : Prop :=
  ∀ (epoch due : Nat) (w : World) (r : LedgerRecord) (es : List Event), w.link.bus.Fresh →
    Subject.nodeStats r.nodeId ∉ w.link.refused → w.store.ledger.get? r.slot = some r →
    r.isExpired (reading (epoch + due)) = false → (start c epoch due w).Prompt r.nodeId es →
    ((start c epoch due w).run es).Keeps r

/-- Records stay live exactly if the time to live is long enough for a pause and the slowest answer.
It is not enough that sweeps are more frequent than records expire. -/
theorem stays_live_iff (config : Config) (h : config.validate = .ok ()) :
    StaysLive config.ledger ↔ config.ledger.Outlasts := by
  obtain ⟨hsweep, htimeout⟩ := Config.validate_ledger h
  constructor
  · intro hkeeps
    by_contra hc
    obtain ⟨s, ⟨es, hprompt, rfl⟩, hexpires⟩ := expires_of_not_outlasts hsweep htimeout hc
    refine hexpires (hkeeps 999 0 _ (heldBy config.ledger.ttlSecs "node-1" 0) es Bus.fresh_empty
      List.not_mem_nil (get?_twoNodes _) ?_ hprompt)
    have hlive : heldBy config.ledger.ttlSecs "node-1" 0 ∈
        (twoNodes config.ledger.ttlSecs).store.ledger.live (reading 999) := by
      rw [live_twoNodes]
      exact List.mem_cons_self
    simpa using (List.mem_filter.1 hlive).2
  · intro hc epoch due w r es hfresh hreached hheld hlive hprompt
    have hsteady : (start config.ledger epoch due w).Steady config.ledger r.nodeId :=
      ⟨rfl, rfl, rfl, rfl, hfresh, hreached⟩
    have hfares : (start config.ledger epoch due w).Fares config.ledger r :=
      ⟨rfl, Nat.zero_le _, r, hheld, rfl, rfl, (r.isExpired_eq_false_iff _).1 hlive⟩
    obtain ⟨hsteady', hfares'⟩ := run_fares hc htimeout hsteady hfares hprompt
    exact hfares'.keeps hc hsteady'

theorem stays_live_iff_default : Config.default.validate = .ok () ∧
    ∃ s, (start Config.default.ledger 999 0 (twoNodes 30)).Leads "node-1" s ∧
      s.world.clock = 22 ∧ s.Keeps (heldBy 30 "node-1" 0) := by
  have hvalid : Config.default.validate = .ok () := by decide +kernel
  have hc : Config.default.ledger.Outlasts := .inl (by decide)
  obtain ⟨s, ⟨es, hprompt, hs⟩, hclock, -⟩ :=
    leads_second (c := Config.default.ledger) (by decide) (Nat.le_refl _)
  refine ⟨hvalid, s, ⟨es, hprompt, hs⟩, hclock, ?_⟩
  rw [← hs]
  exact (stays_live_iff .default hvalid).2 hc 999 0 (twoNodes 30) (heldBy 30 "node-1" 0) es
    Bus.fresh_empty List.not_mem_nil (get?_twoNodes 30) rfl hprompt

def tight : Config := { Config.default with ledger := ⟨30, 29, 2000, 2000⟩ }

theorem expires_while_answering :
    ¬ ∀ config : Config, config.validate = .ok () → StaysLive config.ledger := by
  intro h
  have hc : ¬ tight.ledger.Outlasts := by
    rintro (hshort | hends)
    · exact absurd hshort (by decide)
    · exact absurd hends (by decide)
  obtain ⟨s, ⟨es, hprompt, rfl⟩, hexpires⟩ :=
    expires_of_not_outlasts (c := tight.ledger) (by decide) (by decide) hc
  exact hexpires (h tight (by decide +kernel) 999 0 _ (heldBy 30 "node-1" 0) es Bus.fresh_empty
    List.not_mem_nil (get?_twoNodes 30) rfl hprompt)

end Sweeper

end AppFleet
