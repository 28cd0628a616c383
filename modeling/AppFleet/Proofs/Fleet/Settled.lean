import AppFleet.Proofs.Fleet.Questions
import AppFleet.Proofs.Ledger.Endings

/-! One sweep from its beginning to its end. Whatever comes on the bus meanwhile, each live record is
asked for once, and what the sweep makes of the ledger is up to what comes back for each, and not to the
order in which it does. -/

namespace AppFleet

open Ledger (Ending)

/-- What came between two turns left the ledger and its clock alone. On the bus anything may have
come. -/
structure World.Spares (w w' : World) : Prop where
  ledger : w'.store.ledger = w.store.ledger
  clock : w'.clock = w.clock
  ttl : w'.ttl = w.ttl

/-- The questions that are over when they are looked at. -/
def Ledger.overAt (now : Nat) (bus : Bus) : List (LedgerRecord × Exchange) → List Ending
  | [] => []
  | (r, x) :: rest =>
    let (replies, _, bus) := x.poll bus now
    replies.toList.map (r, ·) ++ overAt now bus rest

namespace Stage

/-- The questions of a survey that are over with the next turn. Those that are refused are over at
once. -/
def endings (now : Nat) (w : World) : Stage α → List Ending
  | asleep wake (.survey records timeoutMs _) =>
    if wake ≤ now then
      (records.filter fun r => (Ledger.query timeoutMs r).subject ∈ w.link.refused).map (·, .error .closed)
    else []
  | surveying questions _ _ => Ledger.overAt now w.link.bus questions
  | _ => []

/-- A stage comes to its end turn by turn, with others in between that leave the ledger alone. Kept are
the messages that it sends, and the questions of its surveys in the order in which they are over. -/
inductive Finishes : Stage α → World → List Sent → List Ending → α → World → Prop where
  | ended (a : α) (w : World) : Finishes (.finished a) w [] [] a w
  | turned {stage : Stage α} {w found w' : World} {sent : List Sent} {endings : List Ending} {a : α}
      (now : Nat) : w.Spares found →
      Finishes (stage.turn now found).1 (stage.turn now found).2 sent endings a w' →
      Finishes stage w (stage.sends now found ++ sent) (stage.endings now found ++ endings) a w'

end Stage

namespace World

theorem Spares.refl (w : World) : w.Spares w := ⟨rfl, rfl, rfl⟩

theorem Spares.trans {w w' w'' : World} (h : w.Spares w') (h' : w'.Spares w'') : w.Spares w'' :=
  ⟨h'.ledger.trans h.ledger, h'.clock.trans h.clock, h'.ttl.trans h.ttl⟩

theorem spares_deliver (w : World) (e : Envelope) :
    w.Spares { w with link := { w.link with bus := w.link.bus.deliver e } } := ⟨rfl, rfl, rfl⟩

theorem mergeReplies_eq (w : World) (report : SweepReport) (r : LedgerRecord) (replies : Replies) :
    w.mergeReplies report r replies =
      ((Ending.settle w.clock w.ttl (report, w.store.ledger) (r, replies)).1, { w with
        store := { w.store with
          ledger := (Ending.settle w.clock w.ttl (report, w.store.ledger) (r, replies)).2 } }) := by
  cases hstats : Ledger.statsOf replies with
  | none =>
    have hnone : Ending.stats? (r, replies) = none := by simp [Ending.stats?, hstats]
    simp [mergeReplies, hstats, Ending.settle_none hnone]
  | some reply =>
    by_cases hanswers : Ledger.Answers reply r
    · have hsome : Ending.stats? (r, replies) = some reply :=
        Ending.stats?_eq_some_iff.2 ⟨hstats, hanswers⟩
      rw [mergeReplies_answered hstats hanswers]
      simp [Ending.settle, hsome]
    · have hnone : Ending.stats? (r, replies) = none := by simp [Ending.stats?, hstats, hanswers]
      simp [mergeReplies, hstats, mergeStats, Ledger.merge, hanswers, Ending.settle_none hnone]

theorem pollSurvey_settles (w : World) (now : Nat) (report : SweepReport) (questions : List Question) :
    ((w.pollSurvey now report questions).2.1, (w.pollSurvey now report questions).2.2.store.ledger) =
      (Ledger.overAt now w.link.bus questions).foldl (Ending.settle w.clock w.ttl)
        (report, w.store.ledger) ∧
    ((Ledger.overAt now w.link.bus questions).map (·.1) ++
      (w.pollSurvey now report questions).1.map (·.1)).Perm (questions.map (·.1)) := by
  induction questions generalizing w report with
  | nil => exact ⟨rfl, .refl _⟩
  | cons q rest ih =>
    obtain ⟨r, x⟩ := q
    rcases hpoll : x.poll w.link.bus now with ⟨outcome, x', bus⟩
    cases outcome with
    | some replies =>
      simp only [pollSurvey, Ledger.overAt, hpoll, mergeReplies_eq]
      obtain ⟨hsettles, hperm⟩ := ih { w with
        link := { w.link with bus }
        store := { w.store with
          ledger := (Ending.settle w.clock w.ttl (report, w.store.ledger) (r, replies)).2 } }
        (Ending.settle w.clock w.ttl (report, w.store.ledger) (r, replies)).1
      exact ⟨hsettles, hperm.cons r⟩
    | none =>
      simp only [pollSurvey, Ledger.overAt, hpoll]
      obtain ⟨hsettles, hperm⟩ := ih { w with link := { w.link with bus } } report
      exact ⟨hsettles, List.perm_middle.trans (hperm.cons r)⟩

end World

namespace Stage

variable {w w' : World} {wake : Nat} {timeoutMs : UInt64} {sent : List Sent} {endings : List Ending}
  {questions : List Question} {report report' : SweepReport} {records : List LedgerRecord}

theorem Finishes.of_finished {a b : α} (h : (finished a).Finishes w sent endings b w') :
    sent = [] ∧ endings = [] ∧ b = a ∧ w.Spares w' := by
  generalize hstage : finished a = stage at h
  induction h with
  | ended b w =>
    cases hstage
    exact ⟨rfl, rfl, rfl, .refl w⟩
  | turned _ hspares _ ih =>
    subst hstage
    obtain ⟨rfl, rfl, rfl, hw⟩ := ih rfl
    exact ⟨rfl, rfl, rfl, hspares.trans hw⟩

theorem Finishes.of_done {a b : α} (h : (asleep wake (.done a)).Finishes w sent endings b w') :
    sent = [] ∧ endings = [] ∧ b = a ∧ w.Spares w' := by
  generalize hstage : asleep wake (Activity.done a) = stage at h
  induction h generalizing wake with
  | ended b w => cases hstage
  | turned now hspares hrest ih =>
    subst hstage
    by_cases hwake : wake ≤ now
    · simp only [Stage.turn, hwake, if_true, Activity.turn] at hrest
      obtain ⟨rfl, rfl, rfl, hw⟩ := hrest.of_finished
      exact ⟨rfl, rfl, rfl, hspares.trans hw⟩
    · simp only [Stage.turn, hwake, if_false] at ih
      obtain ⟨rfl, rfl, rfl, hw⟩ := ih rfl
      exact ⟨rfl, rfl, rfl, hspares.trans hw⟩

theorem Finishes.of_surveying
    (h : (surveying questions report .done).Finishes w sent endings report' w') :
    sent = [] ∧ (endings.map (·.1)).Perm (questions.map (·.1)) ∧
      (report', w'.store.ledger) =
        endings.foldl (Ending.settle w.clock w.ttl) (report, w.store.ledger) := by
  generalize hstage : surveying questions report Activity.done = stage at h
  induction h generalizing questions report with
  | ended b w => cases hstage
  | @turned _ w found w' sent endings report' now hspares hrest ih =>
    subst hstage
    obtain ⟨hsettles, hperm⟩ := found.pollSurvey_settles now report questions
    obtain ⟨hclock, httl, -, -⟩ := found.pollSurvey_keeps now report questions
    rcases hpoll : found.pollSurvey now report questions with ⟨left, report₁, w₁⟩
    rw [hpoll] at hsettles hperm hclock httl
    rw [hspares.clock, hspares.ttl, hspares.ledger] at hsettles
    simp only [Stage.endings, List.foldl_append, ← hsettles]
    cases left with
    | nil =>
      simp only [Stage.turn, hpoll] at hrest
      obtain ⟨rfl, rfl, rfl, hw⟩ := hrest.of_done
      exact ⟨rfl, by simpa using hperm, by rw [hw.ledger]; rfl⟩
    | cons q left =>
      simp only [Stage.turn, hpoll] at ih
      obtain ⟨rfl, hrecords, hrest⟩ := ih rfl
      rw [hclock, httl, hspares.clock, hspares.ttl] at hrest
      refine ⟨rfl, ?_, hrest⟩
      rw [List.map_append]
      exact (hrecords.append_left _).trans hperm

theorem settled_refused {now ttl : UInt64} {p : SweepReport × Ledger} (records : List LedgerRecord) :
    (records.map fun r => ((r, .error .closed) : Ending)).foldl (Ending.settle now ttl) p = p := by
  induction records with
  | nil => rfl
  | cons r rest ih => exact ih

theorem Finishes.of_survey
    (h : (asleep wake (.survey records timeoutMs .done)).Finishes w sent endings report' w') :
    (∃ refused, sent = records.map fun r => (Ledger.query timeoutMs r).sent refused) ∧
      (endings.map (·.1)).Perm records ∧ (report', w'.store.ledger) =
        endings.foldl (Ending.settle w.clock w.ttl) (⟨records.length, 0⟩, w.store.ledger) := by
  generalize hstage : asleep wake (Activity.survey records timeoutMs .done) = stage at h
  induction h generalizing wake with
  | ended b w => cases hstage
  | @turned _ w found w' sent endings report' now hspares hrest ih =>
    subst hstage
    by_cases hwake : wake ≤ now
    · have hledger := found.sendSurvey_ledger now timeoutMs records
      obtain ⟨hclock, httl, -⟩ := found.sendSurvey_keeps now timeoutMs records
      have hwaits := found.sendSurvey_fst now timeoutMs records
      simp only [Stage.turn, hwake, if_true, Activity.turn] at hrest
      rcases hsurvey : found.sendSurvey now timeoutMs records with ⟨questions, w₁⟩
      rw [hsurvey] at hledger hclock httl hwaits hrest
      have hrest : sent = [] ∧ (endings.map (·.1)).Perm (questions.map (·.1)) ∧
          (report', w'.store.ledger) =
            endings.foldl (Ending.settle w₁.clock w₁.ttl) (⟨records.length, 0⟩, w₁.store.ledger) := by
        cases questions with
        | nil =>
          obtain ⟨rfl, rfl, rfl, hw⟩ := hrest.of_done
          exact ⟨rfl, .refl _, by rw [hw.ledger]; rfl⟩
        | cons q rest => exact hrest.of_surveying
      obtain ⟨rfl, hperm, hsettles⟩ := hrest
      rw [hclock, httl, hledger, hspares.clock, hspares.ttl, hspares.ledger] at hsettles
      simp only [Stage.sends, Stage.endings, hwake, if_true, List.append_nil, List.foldl_append,
        settled_refused]
      refine ⟨⟨_, rfl⟩, ?_, hsettles⟩
      rw [List.map_append]
      refine (hperm.append_left _).trans ?_
      simpa [hwaits, Function.comp_def] using List.filter_append_perm
        (fun r => decide ((Ledger.query timeoutMs r).subject ∈ found.link.refused)) records
    · simp only [Stage.turn, hwake, if_false] at ih
      simp only [Stage.sends, Stage.endings, hwake, if_false, List.nil_append]
      have hrest := ih rfl
      rwa [hspares.clock, hspares.ttl, hspares.ledger] at hrest

/-- What is asked for is what is live when the sweep lists it. -/
theorem Finishes.of_sweep
    (h : (asleep wake (Ledger.sweep timeoutMs)).Finishes w sent endings report w') :
    (∃ refused, sent = (w.store.ledger.live w.clock).map fun r =>
        (Ledger.query timeoutMs r).sent refused) ∧
      (endings.map (·.1)).Perm (w.store.ledger.live w.clock) ∧ (report, w'.store.ledger) =
        endings.foldl (Ending.settle w.clock w.ttl)
          (⟨(w.store.ledger.live w.clock).length, 0⟩, w.store.ledger) := by
  have hsweep : Ledger.sweep timeoutMs = .act .liveRecords fun records =>
      .survey records timeoutMs .done := rfl
  rw [hsweep] at h
  generalize hstage : asleep wake (Activity.act .liveRecords fun records =>
    .survey records timeoutMs .done) = stage at h
  induction h generalizing wake with
  | ended b w => cases hstage
  | turned now hspares hrest ih =>
    subst hstage
    by_cases hwake : wake ≤ now
    · simp only [Stage.turn, hwake, if_true, Activity.turn] at hrest
      have hsurvey := hrest.of_survey
      simp only [World.perform, hspares.clock, hspares.ttl, hspares.ledger] at hsurvey
      exact hsurvey
    · simp only [Stage.turn, hwake, if_false] at ih
      have hrest := ih rfl
      rwa [hspares.clock, hspares.ttl, hspares.ledger] at hrest

end Stage

structure World.Swept (w : World) (timeoutMs : UInt64) (sent : List Sent) (endings : List Ending)
    (report : SweepReport) (w' : World) : Prop where
  /-- Each live record is asked for once, at the node that it names. -/
  asked : ∃ refused, sent = (w.store.ledger.live w.clock).map fun r =>
    (Ledger.query timeoutMs r).sent refused
  distinct : ((w.store.ledger.live w.clock).map (·.pair)).Nodup
  once : (endings.map (·.1)).Perm (w.store.ledger.live w.clock)
  /-- In whatever order these questions are over, it comes to the same. -/
  anyOrder : ∀ order : List Ending, order.Perm endings →
    order.foldl (Ending.settle w.clock w.ttl)
      (⟨(w.store.ledger.live w.clock).length, 0⟩, w.store.ledger) = (report, w'.store.ledger)
  answered : ∀ o ∈ endings, ∀ reply, o.stats? = some reply →
    w'.store.ledger.get? o.1.slot = some (Ledger.refreshed w.clock w.ttl o.1 reply).stored
  unanswered : ∀ o ∈ endings, o.stats? = none → w'.store.ledger.get? o.1.slot = some o.1
  others : ∀ key, key ∉ (w.store.ledger.live w.clock).map (·.slot) →
    w'.store.ledger.get? key = w.store.ledger.get? key
  keys : ∀ key, (w'.store.ledger.get? key).isSome = (w.store.ledger.get? key).isSome
  counted : report = ⟨(w.store.ledger.live w.clock).length, endings.countP (·.stats?.isSome)⟩
  bounded : report.refreshed ≤ report.queried

namespace Stage

variable {w w' : World} {wake : Nat} {timeoutMs : UInt64} {sent : List Sent} {endings : List Ending}
  {report : SweepReport}

/-- Whatever the nodes do and whatever else comes on the bus: a sweep asks once for each live record, at
the node that it names, and makes the same of the ledger in whatever order the answers come. A record is
refreshed exactly if the stats that came back answer for it, and these are counted; all others are left
as they were, and none comes or goes. -/
theorem sweep_in_any_order {es : List Ledger.Event} (hledger : w.store.ledger = Ledger.run es)
    (h : (asleep wake (Ledger.sweep timeoutMs)).Finishes w sent endings report w') :
    w.Swept timeoutMs sent endings report w' := by
  have hholds : w.store.ledger.Holds fun _ => True := hledger ▸ Ledger.holds_all es
  obtain ⟨hasked, hover, hsettled⟩ := h.of_sweep
  have hslots : (endings.map (·.1.slot)).Nodup := by
    have hnodup := (hover.map (·.slot)).nodup_iff.2 (Ledger.nodup_slots hholds w.clock)
    rwa [List.map_map] at hnodup
  have hafter : w'.store.ledger = _ := congrArg Prod.snd hsettled
  have hreport : report = _ := congrArg Prod.fst hsettled
  rw [Ending.settled_report] at hreport
  have hlisted {o : Ending} (ho : o ∈ endings) : w.store.ledger.get? o.1.slot = some o.1 :=
    ((Ledger.mem_live_iff hholds).1 (hover.mem_iff.1 (List.mem_map_of_mem ho))).1
  have hleaves {o : Ending} (ho : o ∈ endings) :
      w'.store.ledger.get? o.1.slot = o.leaves w.clock w.ttl (some o.1) := by
    rw [hafter, Ending.get?_settled hslots ho, hlisted ho]
  have hothers (key : String) (hkey : key ∉ (w.store.ledger.live w.clock).map (·.slot)) :
      w'.store.ledger.get? key = w.store.ledger.get? key := by
    rw [hafter]
    refine Ending.get?_settled_of_not_mem fun o ho hslot => hkey ?_
    exact List.mem_map.2 ⟨o.1, hover.mem_iff.1 (List.mem_map_of_mem ho), hslot.symm⟩
  refine ⟨hasked, Ledger.nodup_live hholds w.clock, hover, fun order horder => ?_,
    fun o ho reply hreply => ?_, fun o ho hnone => ?_, hothers, fun key => ?_, ?_, ?_⟩
  · rw [Ending.settle_perm hslots horder, hsettled]
  · rw [hleaves ho, Ending.leaves, hreply]
    rfl
  · rw [hleaves ho, Ending.leaves, hnone]
  · by_cases hkey : key ∈ (w.store.ledger.live w.clock).map (·.slot)
    · obtain ⟨r, hr, rfl⟩ := List.mem_map.1 hkey
      obtain ⟨o, ho, rfl⟩ := List.mem_map.1 (hover.mem_iff.2 hr)
      rw [hleaves ho, hlisted ho]
      unfold Ending.leaves
      split <;> rfl
    · rw [hothers key hkey]
  · rw [hreport, Nat.zero_add]
  · rw [hreport, ← hover.length_eq, List.length_map, Nat.zero_add]
    exact List.countP_le_length

def twoNodes : List Ledger.Event :=
  [.heartbeat 100 30 ⟨"node-1", [⟨"blue", "v1", 0, "blue-0", .running⟩]⟩,
    .heartbeat 100 30 ⟨"node-2", [⟨"web", "v1", 0, "web-0", .running⟩]⟩]

def twoNodesListed : World :=
  { World.initial 110 110 30 with store := { Store.empty with ledger := Ledger.run twoNodes } }

/-- The one that was asked last answers first, and the other one not at all. -/
theorem finishes_twoNodes : ∃ sent endings w', (asleep 0 (Ledger.sweep 2000)).Finishes twoNodesListed
    sent endings ⟨2, 1⟩ w' ∧ endings.map (·.1.instanceId) = ["web-0", "blue-0"] :=
  ⟨_, _, _, .turned 0 (.refl _) <| .turned 0 (.refl _) <| .turned 5 (World.spares_deliver _
    ⟨Subject.inbox 1, StatsReply.codec.write ⟨"web", 0, .crashed, Fleet.idleUsage⟩, none⟩) <|
    .turned 2000 (.refl _) <| .turned 2000 (.refl _) (.ended _ _), rfl⟩

theorem sweep_in_any_order_web : ∃ sent endings w',
    twoNodesListed.Swept 2000 sent endings ⟨2, 1⟩ w' ∧ endings.map (·.1.instanceId) = ["web-0", "blue-0"] := by
  obtain ⟨sent, endings, w', hfinishes, horder⟩ := finishes_twoNodes
  have hledger : twoNodesListed.store.ledger = Ledger.run twoNodes := rfl
  exact ⟨sent, endings, w', sweep_in_any_order hledger hfinishes, horder⟩

end Stage

end AppFleet
