import AppFleet.Proofs.Fleet.Sent
import AppFleet.Proofs.Fleet.Stored
import AppFleet.Proofs.Ledger.Holder

/-! Surveys among heartbeats. What a fleet writes to its ledger is a log of the run. A survey asks about
records that were listed before, and while its questions are open any heartbeat may come: its answers
are merged into records that others may hold by then. -/

namespace AppFleet

open Ledger (Write written)

structure Sent.Asks (m : Sent) (r : LedgerRecord) : Prop where
  subject : m.subject = Subject.nodeStats r.nodeId
  payload : m.payload = StatsRequest.codec.write ⟨r.appId, r.index, r.instanceId⟩
  accepted : ¬ m.refused

def Action.ledgerWrites (w : World) : Action → List Write
  | .ingestHeartbeat h => (Ledger.Event.heartbeat w.clock w.ttl h).writes
  | .mergeStats requested reply => (Ledger.Event.stats w.clock w.ttl requested reply).writes
  | _ => []

def Ledger.answered (now : Nat) (clock ttl : UInt64) (bus : Bus) :
    List (LedgerRecord × Exchange) → List Write
  | [] => []
  | (r, x) :: rest =>
    let (outcome, _, bus) := x.poll bus now
    (outcome.bind Ledger.statsOf).toList.map (.merge clock ttl r) ++ answered now clock ttl bus rest

def Stage.ledgerWrites (now : Nat) (w : World) : Stage α → List Write
  | asleep wake (.act action _) => if wake ≤ now then action.ledgerWrites w else []
  | surveying exchanges _ _ => Ledger.answered now w.clock w.ttl w.link.bus exchanges
  | _ => []

namespace World

theorem perform_ledger (w : World) (action : Action) : (w.perform action).2.store.ledger =
    (action.ledgerWrites w).foldl Write.perform w.store.ledger := by
  cases action with
  | ingestHeartbeat h => exact (Ledger.Event.heartbeat w.clock w.ttl h).perform_eq_writes _
  | changeApp app change =>
    simp only [perform, Store.changeApp]
    repeat' split
    all_goals rfl
  | _ => rfl

theorem sendSurvey_ledger (w : World) (now : Nat) (timeoutMs : UInt64) (records : List LedgerRecord) :
    (w.sendSurvey now timeoutMs records).2.store.ledger = w.store.ledger := by
  induction records generalizing w with
  | nil => rfl
  | cons r rest ih => exact ih _

theorem mergeReplies_ledger (w : World) (report : SweepReport) (r : LedgerRecord) (replies : Replies) :
    (w.mergeReplies report r replies).2.store.ledger =
      ((Ledger.statsOf replies).toList.map (.merge w.clock w.ttl r)).foldl Write.perform
        w.store.ledger ∧
      (w.mergeReplies report r replies).2.clock = w.clock ∧
      (w.mergeReplies report r replies).2.ttl = w.ttl := by
  unfold mergeReplies
  cases Ledger.statsOf replies with
  | none => exact ⟨rfl, rfl, rfl⟩
  | some reply =>
    have hm : (w.mergeStats r reply).2.store.ledger =
        (Write.merge w.clock w.ttl r reply).perform w.store.ledger ∧
          (w.mergeStats r reply).2.clock = w.clock ∧ (w.mergeStats r reply).2.ttl = w.ttl :=
      ⟨rfl, rfl, rfl⟩
    dsimp only
    split <;> rename_i heq <;> rw [heq] at hm <;> exact hm

theorem pollSurvey_ledger (w : World) (now : Nat) (report : SweepReport)
    (exchanges : List (LedgerRecord × Exchange)) :
    (w.pollSurvey now report exchanges).2.2.store.ledger =
      (Ledger.answered now w.clock w.ttl w.link.bus exchanges).foldl Write.perform w.store.ledger := by
  induction exchanges generalizing w report with
  | nil => rfl
  | cons x rest ih =>
    obtain ⟨r, x⟩ := x
    simp only [pollSurvey, Ledger.answered]
    rcases hp : x.poll w.link.bus now with ⟨outcome, x', bus⟩
    cases outcome with
    | none => simp [ih]
    | some replies =>
      have hlink := mergeReplies_link { w with link := { w.link with bus } } report r replies
      obtain ⟨hledger, hclock, httl⟩ :=
        mergeReplies_ledger { w with link := { w.link with bus } } report r replies
      simp only [ih, hlink, hledger, hclock, httl, List.foldl_append, Option.bind_some]

end World

theorem Ledger.mem_of_merge_answered {now : Nat} {clock ttl : UInt64} {bus : Bus}
    {exchanges : List (LedgerRecord × Exchange)} {t t' : UInt64} {requested : LedgerRecord}
    {reply : StatsReply}
    (h : Write.merge t t' requested reply ∈ answered now clock ttl bus exchanges) :
    requested ∈ exchanges.map (·.1) := by
  induction exchanges generalizing bus with
  | nil => simp [answered] at h
  | cons x rest ih =>
    rcases List.mem_append.1 h with h | h
    · obtain ⟨reply', -, heq⟩ := List.mem_map.1 h
      cases heq
      exact List.mem_cons_self
    · exact List.mem_cons_of_mem _ (ih h)

namespace Stage

variable {now : Nat} {w : World} {stage : Stage Unit}

theorem turn_ledger : (stage.turn now w).2.store.ledger =
    (stage.ledgerWrites now w).foldl Write.perform w.store.ledger := by
  rw [turn_snd]
  cases stage with
  | finished a | panicked | waiting x next => rfl
  | surveying exchanges report next => exact w.pollSurvey_ledger now report exchanges
  | asleep wake next =>
    by_cases hw : wake ≤ now
    · cases next with
      | done a | panic | sleep ms next => rfl
      | act action next => simpa [after, ledgerWrites, hw] using w.perform_ledger action
      | request r next =>
        have hledger : (w.request now r).2.store.ledger = w.store.ledger := rfl
        simp [after, ledgerWrites, hw, hledger]
      | survey records timeoutMs next =>
        simpa [after, ledgerWrites, hw] using w.sendSurvey_ledger now timeoutMs records
    · cases next <;> simp [after, ledgerWrites, hw]

/-- Records that are waited for are those from before, or the question about them has just been sent. -/
theorem turn_surveying {exchanges : List (LedgerRecord × Exchange)} {report : SweepReport}
    {next : SweepReport → Activity Unit} {r : LedgerRecord}
    (h : (stage.turn now w).1 = .surveying exchanges report next) (hr : r ∈ exchanges.map (·.1)) :
    (∃ exchanges report next, stage = .surveying exchanges report next ∧ r ∈ exchanges.map (·.1)) ∨
      ∃ m ∈ stage.sends now w, m.Asks r := by
  cases stage with
  | finished a => cases h
  | panicked => cases h
  | waiting x next =>
    simp only [turn] at h
    split at h <;> cases h
  | surveying exchanges report next =>
    refine .inl ⟨exchanges, report, next, rfl, ?_⟩
    have hleft := w.pollSurvey_sublist now report exchanges
    simp only [turn] at h
    split at h
    · cases h
    · rename_i heq
      cases h
      rw [heq] at hleft
      exact hleft.subset hr
  | asleep wake next =>
    by_cases hw : wake ≤ now
    · simp only [turn, hw, if_true] at h
      cases next with
      | done a => cases h
      | panic => cases h
      | act action next => cases h
      | request r next =>
        simp only [Activity.turn] at h
        split at h <;> cases h
      | sleep ms next => cases h
      | survey records timeoutMs next =>
        simp only [Activity.turn] at h
        split at h
        · cases h
        · rename_i heq
          cases h
          obtain ⟨hmem, hopen⟩ := World.sendSurvey_open (by rw [heq]; exact hr)
          refine .inr ⟨(Ledger.query timeoutMs r).sent w.link.refused, ?_, rfl, rfl, ?_⟩
          · simp only [sends, hw, if_true]
            exact List.mem_map_of_mem hmem
          · exact of_decide_eq_false (decide_eq_false hopen) ∘ of_decide_eq_true
    · simp [turn, hw] at h

/-- Stats are merged only while surveying, into records that are asked about. -/
theorem surveying_of_merge {config : Config} {c : Call} {g : Doings}
    (hobeys : stage.Obeys (c.conduct config) g) {t t' : UInt64} {requested : LedgerRecord}
    {reply : StatsReply} (h : .merge t t' requested reply ∈ stage.ledgerWrites now w) :
    ∃ exchanges report next, stage = .surveying exchanges report next ∧
      requested ∈ exchanges.map (·.1) := by
  cases stage with
  | surveying exchanges report next =>
    exact ⟨exchanges, report, next, rfl, Ledger.mem_of_merge_answered h⟩
  | asleep wake next =>
    cases next with
    | act action next =>
      simp only [ledgerWrites] at h
      split at h
      · cases action with
        | ingestHeartbeat heartbeat =>
          obtain ⟨entry, -, heq⟩ := List.mem_map.1 h
          cases heq
        | mergeStats requested reply => exact absurd rfl (hobeys.1.1.ledger requested reply)
        | _ => cases h
      · cases h
    | _ => cases h
  | _ => cases h

end Stage

namespace Fleet

variable {config : Config} {s : Fleet} {w : World} {es : List Event}

def ledgerWrites (s : Fleet) : Event → List Write
  | .turn i => s.tasks[i]?.elim [] fun t => t.stage.ledgerWrites s.now s.world
  | _ => []

def history (config : Config) (w : World) (es : List Event) : List Write :=
  log ledgerWrites config (start w) es

theorem step_ledger (e : Event) : (step config s e).world.store.ledger =
    (s.ledgerWrites e).foldl Write.perform s.world.store.ledger := by
  cases e with
  | turn i =>
    simp only [step, takeTurn, ledgerWrites]
    cases s.tasks[i]? with
    | none => rfl
    | some t => exact t.stage.turn_ledger
  | _ => rfl

theorem ledger_run (hw : w.store.ledger = .empty) (es : List Event) :
    (run config (start w) es).world.store.ledger = written (history config w es) := by
  induction es using List.reverseRecOn with
  | nil => exact hw
  | append_singleton es e ih =>
    rw [run_snoc, step_ledger, ih, history, history, log_snoc, written, written, List.foldl_append]

def Asked (s : Fleet) (r : LedgerRecord) : Prop := ∃ m ∈ s.world.link.sent, m.Asks r

theorem Asked.mono {past : List Event} {r : LedgerRecord} (h : Asked (run config s past) r)
    (hpast : past <+: es) : Asked (run config s es) r := by
  obtain ⟨m, hm, hasks⟩ := h
  exact ⟨m, (sent_mono hpast).subset hm, hasks⟩

theorem asked_of_surveying (hs : s.tasks = []) (es : List Event) {i : Nat} {t : Task}
    (ht : (run config s es).tasks[i]? = some t) {exchanges : List (LedgerRecord × Exchange)}
    {report : SweepReport} {next : SweepReport → Activity Unit}
    (hstage : t.stage = .surveying exchanges report next) {r : LedgerRecord}
    (hr : r ∈ exchanges.map (·.1)) : Asked (run config s es) r := by
  induction es using List.reverseRecOn generalizing t exchanges report next with
  | nil => simp [hs] at ht
  | append_singleton es e ih =>
    have hmore : es <+: es ++ [e] := List.prefix_append es [e]
    rw [run_snoc] at ht
    by_cases hi : i < (run config s es).tasks.length
    · by_cases he : e = .turn i
      · subst he
        obtain ⟨t₀, ht₀⟩ : ∃ t₀, (run config s es).tasks[i]? = some t₀ :=
          ⟨_, List.getElem?_eq_getElem hi⟩
        rw [step, takeTurn_task ht₀] at ht
        cases ht
        rcases Stage.turn_surveying hstage hr with ⟨exchanges, report, next, hold, hr⟩ | ⟨m, hm, hasks⟩
        · exact (ih ht₀ hold hr).mono hmore
        · refine ⟨m, ?_, hasks⟩
          rw [run_snoc, step_sent]
          exact List.mem_append_right _ (by simpa [sends, ht₀] using hm)
      · rw [step_task_of_ne he hi] at ht
        exact (ih ht hstage hr).mono hmore
    · obtain ⟨c, -, -, rfl⟩ := step_new_task ht hi
      cases hstage

/-- Whatever is merged was asked for a record that the ledger had held, by then or before. -/
theorem read_of_merge (happs : w.store.apps.Holds fun _ => True) (hledger : w.store.ledger = .empty)
    {e : Event} {now ttl : UInt64} {requested : LedgerRecord} {reply : StatsReply}
    (h : .merge now ttl requested reply ∈ (run config (start w) es).ledgerWrites e) :
    Asked (run config (start w) es) requested ∧ ∃ early, early <+: history config w es ∧
      (written early).get? requested.slot = some requested := by
  cases e with
  | turn i =>
    simp only [ledgerWrites] at h
    cases ht : (run config (start w) es).tasks[i]? with
    | none => simp [ht] at h
    | some t =>
      rw [ht] at h
      obtain ⟨g, hrecorded, hobeys⟩ := run_obeys happs es ht
      obtain ⟨exchanges, report, next, hstage, hr⟩ := Stage.surveying_of_merge hobeys h
      refine ⟨asked_of_surveying rfl es ht hstage hr, ?_⟩
      rw [hstage] at hobeys
      obtain ⟨past, hpast, hlisted⟩ := hrecorded.read requested (hobeys.1 requested hr)
      rw [ledger_run hledger] at hlisted
      refine ⟨history config w past, log_mono hpast, ?_⟩
      obtain ⟨⟨key, r⟩, hentry, rfl⟩ := List.mem_map.1 hlisted
      have hget := (Table.mem_entries_iff _).1 hentry
      have hholds : (written (history config w past)).Holds fun _ => True :=
        Ledger.holds_written fun _ _ => trivial
      rw [(hholds key r hget).1]
      exact hget
  | _ => cases h

theorem sourced_history (happs : w.store.apps.Holds fun _ => True)
    (hledger : w.store.ledger = .empty) (es : List Event) : Ledger.Sourced (history config w es) := by
  induction es using List.reverseRecOn with
  | nil => exact Ledger.sourced_nil
  | append_singleton es e ih =>
    rw [history, log_snoc]
    exact ih.append fun now ttl requested reply h => (read_of_merge happs hledger h).2

theorem asked_of_merge (happs : w.store.apps.Holds fun _ => True) (hledger : w.store.ledger = .empty)
    {now ttl : UInt64} {requested : LedgerRecord} {reply : StatsReply}
    (h : .merge now ttl requested reply ∈ history config w es) :
    Asked (run config (start w) es) requested := by
  obtain ⟨past, e, hpast, hmerge⟩ := exists_of_mem_log h
  have hbefore : past <+: es := (List.prefix_append past [e]).trans hpast
  exact (read_of_merge happs hledger hmerge).1.mono hbefore

/-- Every reply that is merged was asked for by a survey; state and usage go to whoever holds the
slot by then, and a record shows the usage of the instance that it names exactly if the slot did not
change hands between the reading of its record and the reply, or came back. -/
theorem stats_of_holder_iff (happs : w.store.apps.Holds fun _ => True)
    (hledger : w.store.ledger = .empty) :
    (run config (start w) es).world.store.ledger = written (history config w es) ∧
    (∀ before now ttl requested reply late,
      history config w es = before ++ .merge now ttl requested reply :: late →
      Ledger.Answers reply requested → ∃ m : Ledger.Merged (history config w es),
        m.early ++ m.between = before ∧ m.write = .merge now ttl requested reply) ∧
    (∀ m : Ledger.Merged (history config w es), Asked (run config (start w) es) m.requested ∧
      ∃ r, m.ledger.get? m.slot = some r ∧ r.state = m.reply.state ∧
        r.usage = some m.reply.usage.kept ∧ (m.requested.instanceId = r.instanceId ↔ m.Timely)) ∧
    ∀ key r u, (run config (start w) es).world.store.ledger.get? key = some r → r.usage = some u →
      ∃ m : Ledger.Merged (history config w es), m.slot = key ∧ m.reply.usage.Kept u ∧
        (m.requested.instanceId = r.instanceId ↔ m.Timely) := by
  have hsourced : Ledger.Sourced (history config w es) := sourced_history happs hledger es
  refine ⟨ledger_run hledger es, ?_, fun m => ⟨?_, m.sets⟩, ?_⟩
  · intro before now ttl requested reply late heq hanswers
    exact hsourced.merged heq hanswers
  · exact asked_of_merge happs hledger m.write_mem
  · intro key r u hr hu
    rw [ledger_run hledger] at hr
    exact hsourced.usage hr hu

def idleUsage : Usage := ⟨64, 32, 0.0, by decide +kernel⟩

/-- One instance is asked for its usage, and another takes its slot before it answers. -/
def replaceWhileAsking : List Event :=
  let heartbeat (node : NodeId) (instanceId : String) : Event := .call <| .message
    ⟨Subject.nodeHeartbeat, Heartbeat.codec.write ⟨node, [⟨"web", "v1", 0, instanceId, .running⟩]⟩, none⟩
  [heartbeat "node-1" "old", .turn 0, .call .sweep, .turn 1, .turn 1, heartbeat "node-2" "new", .turn 2,
    .deliver ⟨Subject.inbox 0, StatsReply.codec.write ⟨"web", 0, .crashed, idleUsage⟩, none⟩, .turn 1]

theorem ledger_replaceWhileAsking :
    (run .default (start (.initial 0 0 0)) replaceWhileAsking).world.store.ledger.get? "web:0" =
      some ⟨"web", 0, "v1", "new", "node-2", .crashed, some idleUsage, 0, 0⟩ := rfl

theorem history_replaceWhileAsking : history .default (.initial 0 0 0) replaceWhileAsking =
    [.report 0 0 "node-1" ⟨"web", "v1", 0, "old", .running⟩,
      .report 0 0 "node-2" ⟨"web", "v1", 0, "new", .running⟩,
      .merge 0 0 ⟨"web", 0, "v1", "old", "node-1", .running, none, 0, 0⟩
        ⟨"web", 0, .crashed, idleUsage⟩] := rfl

theorem stats_of_holder_iff_web :
    ∃ m : Ledger.Merged (history .default (.initial 0 0 0) replaceWhileAsking), m.slot = "web:0" ∧
      m.reply.usage.Kept idleUsage ∧ (m.requested.instanceId = "new" ↔ m.Timely) := by
  have happs : (World.initial 0 0 0).store.apps.Holds fun _ => True := Table.holds_empty _
  obtain ⟨-, -, -, husage⟩ := stats_of_holder_iff happs rfl
  exact husage "web:0" _ idleUsage ledger_replaceWhileAsking rfl

theorem shows_stats_of_other : ¬ ∀ (config : Config) (w : World) (es : List Event) (key : String)
    (r : LedgerRecord), w.store.apps.Holds (fun _ => True) → w.store.ledger = .empty →
    (run config (start w) es).world.store.ledger.get? key = some r → r.usage.isSome →
    ∃ m : Ledger.Merged (history config w es), m.slot = key ∧
      m.requested.instanceId = r.instanceId := by
  intro h
  obtain ⟨m, -, hsame⟩ := h .default (.initial 0 0 0) replaceWhileAsking "web:0" _
    (Table.holds_empty _) rfl ledger_replaceWhileAsking rfl
  have hmem := (congrArg (m.write ∈ ·) history_replaceWhileAsking).mp m.write_mem
  simp [Ledger.Merged.write] at hmem
  simp [hmem] at hsame

end Fleet

end AppFleet
