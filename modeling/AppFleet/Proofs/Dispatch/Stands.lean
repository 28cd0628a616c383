import AppFleet.Proofs.Dispatch.FollowUp
import AppFleet.Proofs.Dispatch.Restage

/-! The change that was dispatched stands. Whatever fails, a reaction writes no more to the store than
what came of staging, and that the router knows the routes; and it writes this to the one application
that was changed. -/

namespace AppFleet

/-- What a reaction may leave of an application: all that its owner ordered is as it was. -/
structure Application.Stands (a b : Application) : Prop where
  frame : b = { a with
    package := b.package
    stagingFailure := b.stagingFailure
    lastStaging := b.lastStaging
    dropletHash := b.dropletHash
    version := b.version
    generation := b.generation
    routesPending := b.routesPending
    updatedAt := b.updatedAt }
  /-- No generation is taken back, not after the last one either. -/
  generation : a.generation.toNat ≤ b.generation.toNat
  routesPending : b.routesPending → a.routesPending

namespace Application

variable {a b c : Application}

theorem Stands.refl (a : Application) : a.Stands a := ⟨rfl, Nat.le_refl _, fun h => h⟩

theorem Stands.trans (h : a.Stands b) (h' : b.Stands c) : a.Stands c where
  frame := by
    rw [h'.frame, h.frame]
  generation := h.generation.trans h'.generation
  routesPending := fun hc => h.routesPending (h'.routesPending hc)

theorem Stands.id (h : a.Stands b) : b.id = a.id := by rw [h.frame]

theorem Stands.stamp (h : a.Stands b) (updatedAt : UInt64) : a.Stands { b with updatedAt } :=
  ⟨by rw [h.frame], h.generation, h.routesPending⟩

theorem renew_stands (h : a.Stands c) (hb : renew a c = .ok b) : a.Stands b := by
  rcases (renew_ok_iff a c b).1 hb with ⟨-, rfl⟩ | ⟨-, hlast, rfl⟩
  · exact h
  · refine ⟨by rw [h.frame], ?_, h.routesPending⟩
    calc a.generation.toNat ≤ c.generation.toNat := h.generation
      _ ≤ c.generation.toNat + 1 := Nat.le_succ _
      _ = (c.generation + 1).toNat := (toNat_generation_succ hlast).symm

theorem routesPushed_stands (a : Application) : a.Stands a.routesPushed :=
  ⟨rfl, Nat.le_refl _, nofun⟩

end Application

/-- A verdict moves neither the count nor the bounds, so that the count is not clamped. -/
theorem IsVerdict.stands {mark : Application → Except Fault Application} {a b : Application}
    (hm : IsVerdict mark) (h : mark a = .ok b) : a.Stands b := by
  cases hm with
  | staged result =>
    have hrenew := Application.settle_renews ((Application.markStaged_ok_iff a b result).1 h).2 rfl rfl
    refine Application.renew_stands ?_ hrenew
    exact ⟨rfl, Nat.le_refl _, fun h => h⟩
  | failed reason =>
    rw [Application.markFailed_eq h]
    exact ⟨rfl, Nat.le_refl _, fun h => h⟩

structure Store.Stands (app : AppId) (s s' : Store) : Prop where
  ledger : s'.ledger = s.ledger
  nodes : s'.nodes = s.nodes
  others : ∀ id ≠ app, s'.apps.get? id = s.apps.get? id
  self : Option.Rel Application.Stands (s.apps.get? app) (s'.apps.get? app)

def Store.Own (app : AppId) (s : Store) : Prop := ∀ a, s.apps.get? app = some a → a.id = app

/-- The routes of an application are pending no longer. -/
def Store.Clears (app : AppId) (s s' : Store) : Prop :=
  ∃ a b, s.apps.get? app = some a ∧ s'.apps.get? app = some b ∧ a.routesPending ∧ ¬ b.routesPending

namespace Store

variable {app : AppId} {s s' s'' : Store} {a b : Application}
  {change : Application → Except Fault Application}

theorem Stands.was (h : s.Stands app s') (hb : s'.apps.get? app = some b) :
    ∃ a, s.apps.get? app = some a ∧ a.Stands b := by
  have hself := h.self
  rw [hb] at hself
  generalize s.apps.get? app = found at hself
  cases hself with
  | some hab => exact ⟨_, rfl, hab⟩

theorem Stands.refl (app : AppId) (s : Store) : s.Stands app s where
  ledger := rfl
  nodes := rfl
  others _ _ := rfl
  self := by
    cases s.apps.get? app with
    | none => exact .none
    | some a => exact .some (.refl a)

theorem Stands.trans (h : s.Stands app s') (h' : s'.Stands app s'') : s.Stands app s'' where
  ledger := h'.ledger.trans h.ledger
  nodes := h'.nodes.trans h.nodes
  others id hid := (h'.others id hid).trans (h.others id hid)
  self := by
    have hself := h.self
    have hself' := h'.self
    generalize s.apps.get? app = first at *
    generalize s'.apps.get? app = second at *
    generalize s''.apps.get? app = third at *
    cases hself with
    | none => exact hself'
    | some hab =>
      cases hself' with
      | some hbc => exact .some (hab.trans hbc)

theorem Stands.own (h : s.Stands app s') (hs : s.Own app) : s'.Own app := by
  intro b hb
  obtain ⟨a, ha, hab⟩ := h.was hb
  exact hab.id.trans (hs a ha)

/-- Routes that are cleared on the way are cleared at one of two stations. -/
theorem Clears.or (hc : s.Clears app s'') (h : s'.Stands app s'') :
    s.Clears app s' ∨ s'.Clears app s'' := by
  obtain ⟨a, c, ha, hc, hpending, hcleared⟩ := hc
  obtain ⟨b, hb, hbc⟩ := h.was hc
  by_cases hb' : b.routesPending
  · exact .inr ⟨b, c, hb, hc, hb', hcleared⟩
  · exact .inl ⟨a, b, ha, hb, hpending, hb'⟩

theorem not_clears_self (app : AppId) (s : Store) : ¬ s.Clears app s := by
  rintro ⟨a, b, ha, hb, hpending, hcleared⟩
  cases ha.symm.trans hb
  exact hcleared hpending

theorem changeApp_frame (s : Store) (now : UInt64) (app : AppId)
    (change : Application → Except Fault Application) :
    (s.changeApp now app change).2 = { s with apps := (s.changeApp now app change).2.apps } := by
  unfold changeApp
  split
  · rfl
  · split
    · rfl
    · split <;> rfl

/-- A change of one application leaves all others alone. -/
theorem changeApp_stands (s : Store) (now : UInt64) (app : AppId)
    (h : ∀ a b, change a = .ok b → a.Stands b) : s.Stands app (s.changeApp now app change).2 := by
  have hframe := s.changeApp_frame now app change
  rcases s.changeApp_cases now app change with ⟨_, r, -, -, heq⟩ | ⟨-, heq⟩ |
    ⟨before, made, after, hb, hm, hstamp, -, hself, hothers⟩
  · rw [heq]
    exact .refl app s
  · rw [heq]
    exact .refl app s
  · refine ⟨by rw [hframe], by rw [hframe], hothers, ?_⟩
    rw [hb, hself, hstamp]
    exact .some ((h before made hm).stamp _)

/-- Routes that stay pending in what is made of an application are not cleared. -/
theorem changeApp_not_clears (s : Store) (now : UInt64) (app : AppId)
    (h : ∀ a b, change a = .ok b → b.routesPending = a.routesPending) :
    ¬ s.Clears app (s.changeApp now app change).2 := by
  rcases s.changeApp_cases now app change with ⟨_, r, -, -, heq⟩ | ⟨-, heq⟩ |
    ⟨before, made, after, hbefore, hm, hstamp, -, hself, -⟩
  · rw [heq]
    exact not_clears_self app s
  · rw [heq]
    exact not_clears_self app s
  · rintro ⟨a, b, ha, hb, hpending, hcleared⟩
    cases ha.symm.trans hbefore
    cases hself.symm.trans hb
    rw [hstamp] at hcleared
    exact hcleared ((h _ made hm).trans hpending)

end Store

namespace Step

/-- The step finds one store and leaves another. What a survey merges goes into the ledger. -/
inductive Leads : Step → Store → Store → Prop where
  | act (w : World) (action : Action) : Leads (.act w action) w.store (w.perform action).2.store
  | ask (w : World) (r : Request) (replies : Replies) : Leads (.ask w r replies) w.store w.store
  | lost (w : World) (r : Request) : Leads (.lost w r) w.store w.store
  | pause (ms : Nat) (s : Store) : Leads (.pause ms) s s
  | survey (w : World) (records : List LedgerRecord) (timeoutMs : UInt64) (report : SweepReport)
      (ledger : Ledger) :
      Leads (.survey w records timeoutMs report) w.store { w.store with ledger }

/-- The step writes at most what came of staging the application. -/
inductive Records (app : AppId) : Step → Prop where
  | keeps {s : Step} : s.KeepsStore → Records app s
  | verdict {w : World} {mark : Application → Except Fault Application} :
      IsVerdict mark → Records app (.act w (.changeApp app mark))

inductive Acknowledges (app : AppId) : Step → Prop where
  | pushed (w : World) :
      Acknowledges app (.act w (.changeApp app fun stored => .ok stored.routesPushed))

/-- The step tells the router routes of the application, and the bus takes the message. -/
inductive Routes (app : AppId) : Step → Prop where
  | told {w : World} {a : Application} : a.id = app →
      (w.perform (.publish Subject.routerUpdate (Orders.routing a))).1 = .ok () →
      Routes app (.act w (.publish Subject.routerUpdate (Orders.routing a)))

variable {app : AppId} {step : Step} {s s' : Store}

theorem KeepsStore.leads (h : step.KeepsStore) (hl : step.Leads s s') : s' = s := by
  cases hl with
  | act w action => exact h
  | ask | lost | pause => rfl
  | survey => exact h.elim

theorem Records.stands (h : step.Records app) (hl : step.Leads s s') :
    s.Stands app s' ∧ ¬ s.Clears app s' := by
  cases h with
  | keeps hkeeps =>
    obtain rfl := hkeeps.leads hl
    exact ⟨.refl app s', s'.not_clears_self app⟩
  | verdict hm =>
    cases hl
    exact ⟨Store.changeApp_stands _ _ app fun _ _ => hm.stands,
      Store.changeApp_not_clears _ _ app fun _ _ h => (hm.routes h).2⟩

theorem Acknowledges.stands (h : step.Acknowledges app) (hl : step.Leads s s') : s.Stands app s' := by
  cases h with
  | pushed w =>
    have hpushed (a b : Application) (h : (.ok a.routesPushed : Except Fault _) = .ok b) :
        a.Stands b := by
      cases h
      exact a.routesPushed_stands
    cases hl
    exact Store.changeApp_stands w.store w.wallClock app hpushed

end Step

/-- The steps lead from one store to another, if nobody else writes to it. The clocks and the bus may be
otherwise at every step. -/
def Store.Led : Store → List Step → Store → Prop
  | s, [], s' => s' = s
  | s, step :: rest, s'' => ∃ s', step.Leads s s' ∧ s'.Led rest s''

theorem Store.led_append {steps rest : List Step} {s s'' : Store} :
    s.Led (steps ++ rest) s'' ↔ ∃ s', s.Led steps s' ∧ s'.Led rest s'' := by
  induction steps generalizing s with
  | nil =>
    constructor
    · intro h
      exact ⟨s, rfl, h⟩
    · rintro ⟨_, rfl, h⟩
      exact h
  | cons step steps ih =>
    constructor
    · rintro ⟨s₁, hstep, h⟩
      obtain ⟨s₂, hsteps, hrest⟩ := ih.1 h
      exact ⟨s₂, ⟨s₁, hstep, hsteps⟩, hrest⟩
    · rintro ⟨s₂, ⟨s₁, hstep, hsteps⟩, hrest⟩
      exact ⟨s₁, hstep, ih.2 ⟨s₂, hsteps, hrest⟩⟩

theorem Store.led_kept {steps : List Step} {s s' : Store} (h : ∀ step ∈ steps, step.KeepsStore)
    (hl : s.Led steps s') : s' = s := by
  induction steps generalizing s with
  | nil => exact hl
  | cons step steps ih =>
    obtain ⟨s₁, hstep, hrest⟩ := hl
    obtain rfl := (h step List.mem_cons_self).leads hstep
    exact ih (fun step hs => h step (List.mem_cons_of_mem _ hs)) hrest

/-- All that is written is what came of staging one application, and that the router knows its routes,
which it was told before. -/
def Notes (app : AppId) (steps : List Step) : Prop :=
  ∀ past step rest, steps = past ++ step :: rest →
    step.Records app ∨ step.Acknowledges app ∧ ∃ told ∈ past, told.Routes app

namespace Notes

variable {app : AppId} {steps later past rest : List Step} {step : Step} {s s' : Store}

theorem of_records (h : ∀ step ∈ steps, step.Records app) : Notes app steps := by
  rintro past step rest rfl
  exact .inl (h step (List.mem_append_right _ List.mem_cons_self))

/-- What comes later may rest on what was told before. -/
theorem append_of (h : Notes app steps)
    (h' : ∀ past step rest, later = past ++ step :: rest →
      step.Records app ∨ step.Acknowledges app ∧ ∃ told ∈ steps ++ past, told.Routes app) :
    Notes app (steps ++ later) := by
  intro past step rest heq
  rcases List.append_eq_append_iff.1 heq with ⟨past', rfl, hlater⟩ | ⟨rest', rfl, hrest⟩
  · exact h' past' step rest hlater
  · cases rest' with
    | nil => simpa using h' [] step rest hrest.symm
    | cons s rest' =>
      obtain ⟨rfl, -⟩ := List.cons.inj hrest
      exact h past step rest' rfl

theorem append (h : Notes app steps) (h' : Notes app later) : Notes app (steps ++ later) := by
  refine h.append_of fun past step rest heq => (h' past step rest heq).imp_right (.imp_right ?_)
  rintro ⟨told, htold, hroutes⟩
  exact ⟨told, List.mem_append_right _ htold, hroutes⟩

theorem snoc (h : Notes app steps) (hs : step.Acknowledges app)
    (htold : ∃ told ∈ steps, told.Routes app) : Notes app (steps ++ [step]) := by
  refine h.append_of fun past step' rest heq => .inr ?_
  obtain ⟨rfl, rfl, rfl⟩ : past = [] ∧ step = step' ∧ rest = [] := by
    cases past <;> simp_all
  simpa using ⟨hs, htold⟩

theorem of_append (h : Notes app (steps ++ later)) : Notes app steps := by
  rintro past step rest rfl
  exact h past step (rest ++ later) (by simp)

theorem leads (h : Notes app (past ++ step :: rest)) (hl : step.Leads s s') :
    s.Stands app s' ∧ (s.Clears app s' → ∃ told ∈ past, told.Routes app) := by
  rcases h past step rest rfl with hrecords | ⟨hacknowledges, htold⟩
  · obtain ⟨hstands, hnot⟩ := hrecords.stands hl
    exact ⟨hstands, fun hc => absurd hc hnot⟩
  · exact ⟨hacknowledges.stands hl, fun _ => htold⟩

/-- What all that is left to be done does to it. -/
theorem led (past : List Step) (h : Notes app (past ++ rest)) (hl : s.Led rest s') :
    s.Stands app s' ∧ (s.Clears app s' → ∃ told ∈ past ++ rest, told.Routes app) := by
  induction rest generalizing past s with
  | nil =>
    obtain rfl := hl
    exact ⟨.refl app s', fun hc => absurd hc (s'.not_clears_self app)⟩
  | cons step rest ih =>
    obtain ⟨s₁, hstep, hrest⟩ := hl
    obtain ⟨hstands, htold⟩ := h.leads hstep
    obtain ⟨hstands', htold'⟩ := ih (past ++ [step]) (by simpa using h) hrest
    refine ⟨hstands.trans hstands', fun hc => ?_⟩
    rcases hc.or hstands' with hc | hc
    · obtain ⟨told, hmem, hroutes⟩ := htold hc
      exact ⟨told, List.mem_append_left _ hmem, hroutes⟩
    · simpa using htold' hc

theorem finds (h : Notes app steps) (hs : s.Own app) (hl : s.Led steps s') {w : World}
    {action : Action} (hw : .act w action ∈ steps) : w.store.Own app := by
  obtain ⟨past, rest, rfl⟩ := List.append_of_mem hw
  obtain ⟨s₁, hpast, s₂, hstep, -⟩ := Store.led_append.1 hl
  cases hstep
  exact (led [] h.of_append hpast).1.own hs

end Notes

namespace Dispatch

open Activity

variable {config : StagingConfig} {a : Application} {diff : Diff} {steps : List Step} {app : AppId}

theorem records_publish (subject : String) (payload : Json) :
    (publish subject payload).Only (Step.Records app) := only_perform fun _ => .keeps rfl

theorem records_verdict {mark : Application → Except Fault Application} (h : IsVerdict mark) :
    (changeApp app mark).Only (Step.Records app) := only_changeApp fun _ => .verdict h

theorem records_startRemaining (a : Application) (started : UInt32) :
    (startRemaining a started).Only (Step.Records app) := by
  unfold startRemaining
  split
  · exact records_publish _ _
  · split
    · exact only_pure _
    · exact records_publish _ _

theorem records_startStaged (announce : Bool) (started : UInt32) (staged : Application) :
    (startStaged announce started staged).Only (Step.Records app) := by
  cases announce with
  | false => exact records_startRemaining staged started
  | true =>
    exact (Orders.only_attempt (records_publish _ _)).bind fun _ =>
      records_startRemaining staged started

theorem records_recordStaged (app : AppId) (result : StagingResult) :
    (Staging.recordStaged app result).Only (Step.Records app) := by
  refine (records_verdict (.staged result)).bind fun answer => ?_
  split <;> exact only_pure _

theorem records_recordFailed (app : AppId) (e : StagingError) :
    (Staging.recordFailed app e).Only (Step.Records app) := by
  refine (records_verdict (.failed e.message)).bind fun answer => ?_
  split <;> exact only_pure _

theorem records_stageIfNeeded {start : UInt32 → Application → Activity β}
    (hstart : ∀ started staged, (start started staged).Only (Step.Records a.id)) :
    (Staging.stageIfNeeded config a start).Only (Step.Records a.id) := by
  have hasks : (Staging.stageWithRetry config a).Only (Step.Records a.id) :=
    (Staging.stageWithRetry_asks a).mono fun _ h => .keeps h.keepsStore
  unfold Staging.stageIfNeeded
  split
  · exact (hstart 0 a).bind fun _ => only_pure _
  · split
    · exact only_pure _
    · refine hasks.bind fun answer => ?_
      cases answer with
      | ok result =>
        refine (records_recordStaged a.id result).bind fun recorded => ?_
        cases recorded with
        | ok staged => exact (hstart _ staged).bind fun _ => only_pure _
        | error e => exact only_pure _
      | error e => exact (records_recordFailed a.id e).bind fun _ => only_pure _

theorem records_stageAndStart (announce : Bool) :
    (stageAndStart config a announce).Only (Step.Records a.id) := by
  refine (records_stageIfNeeded fun started staged =>
    records_startStaged announce started staged).bind fun outcome => ?_
  split
  · exact only_pure _
  · exact only_pure _
  · exact only_pure _
  · refine Only.bind ?_ fun _ => only_pure _
    exact (only_perform fun _ => .keeps rfl).bind fun _ => Orders.only_attempt (records_publish _ _)

theorem records_react (reaction : Reaction) :
    (react config reaction diff).Only (Step.Records diff.appId) := by
  have hattempt {subject : String} {payload : Json} :
      (Orders.attempt (publish subject payload)).Only (Step.Records diff.appId) :=
    Orders.only_attempt (records_publish _ _)
  unfold react
  split
  · exact (hattempt.bind fun _ => hattempt.bind fun _ => hattempt).bind fun _ => only_pure _
  · exact (records_publish _ _).bind fun _ => only_pure _
  · rename_i after hafter
    rw [appId_of_after hafter]
    exact records_stageAndStart false
  · refine Only.bind ((records_publish _ _).bind fun answer => ?_) fun _ => only_pure _
    cases answer with
    | error cause => exact only_pure _
    | ok u => exact (records_publish _ _).bind fun _ => only_pure _
  · rename_i after hafter
    rw [appId_of_after hafter]
    exact records_stageAndStart true
  · exact hattempt.bind fun _ => only_pure _
  · exact only_pure _

/-- The router is told first, and that it knows is noted only if the bus took the message. -/
theorem notes_pushRoutes {u : Unit} (h : (pushRoutes a).Goes steps u) : Notes a.id steps := by
  obtain ⟨own, rest, answer, rfl, hown, hrest⟩ := (goes_bind _ _ _).1 h
  obtain ⟨w, rfl, hanswer⟩ := (goes_perform _ _).1 hown
  have htells : Notes a.id [.act w (.publish Subject.routerUpdate (Orders.routing a))] :=
    .of_records (by simpa using .keeps rfl)
  cases answer with
  | error e =>
    obtain ⟨rfl, -⟩ := hrest
    exact htells
  | ok u =>
    obtain ⟨recorded, hrecorded, -⟩ := (goes_bind_pure _ _ _).1 hrest
    obtain ⟨w', rfl, -⟩ := (goes_changeApp _).1 hrecorded
    exact htells.snoc (.pushed w') ⟨_, List.mem_singleton_self _, .told rfl hanswer.symm⟩

theorem exists_goes_routesPushed (w : World) (app : AppId) : ∃ answer,
    (changeApp app fun stored => .ok stored.routesPushed).Goes
      [.act w (.changeApp app fun stored => .ok stored.routesPushed)] answer := by
  rcases w.store.changeApp_cases w.wallClock app fun stored => .ok stored.routesPushed with
    ⟨_, _, -, ⟨⟩, -⟩ | ⟨-, heq⟩ | ⟨before, _, after, -, -, -, heq, -⟩
  · exact ⟨.ok none, (goes_changeApp _).2 ⟨w, rfl, congrArg Prod.fst heq⟩⟩
  · exact ⟨.ok (some (.updated before after)), (goes_changeApp _).2 ⟨w, rfl, heq⟩⟩

theorem notes_dispatch {next : Option Diff} (h : (dispatch config diff).Goes steps next) :
    Notes diff.appId steps := by
  obtain ⟨own, rest, rfl, hreacts, hpushes, -⟩ := dispatch_goes h
  refine .append ?_ ?_
  · rcases hreacts with ⟨-, rfl⟩ | ⟨reaction, outcome, -, hown⟩
    · exact .of_records (by simp)
    · exact .of_records ((records_react reaction).goes hown)
  · rcases hpushes with ⟨-, rfl⟩ | ⟨a, u, hafter, -, hpushed⟩
    · exact .of_records (by simp)
    · rw [appId_of_after hafter]
      exact notes_pushRoutes hpushed

theorem stageAndStart_recorded {announce : Bool} {outcome : Except ReactionError (Option Diff)} {d : Diff}
    (h : (stageAndStart config a announce).Goes steps outcome) (hd : d ∈ outcome.toOption.getD none) :
    ∃ w action before after, .act w action ∈ steps ∧ w.store.apps.get? a.id = some before ∧
      d = .updated before after ∧ after.id = before.id := by
  obtain ⟨own, rest, staging, rfl, hown, -, hrecorded⟩ := stageAndStart_goes h
  obtain ⟨e, rfl⟩ := hrecorded d hd
  rcases Staging.stageIfNeeded_goes hown with ⟨-, b, heq, -⟩ | ⟨-, -, -, e', heq⟩ |
    ⟨-, asks, answer, w, last, rfl, -, hends⟩
  · cases heq
  · cases heq
  · cases hends with
    | failed hmoves =>
      obtain ⟨made, hmade, hstamp⟩ := Staging.moves_made (by decide) hmoves
      have hid := (IsVerdict.failed e.message).id hmade
      have hmem : .act w (Staging.record a (.error e)) ∈
          asks ++ [.act w (Staging.record a (.error e))] ++ rest := by simp
      exact ⟨w, _, _, _, hmem, hmoves.found, rfl, by rw [hstamp, hid]⟩

/-- What is dispatched next is a failure that was recorded on the changed application. -/
theorem dispatch_recorded {d : Diff} (h : (dispatch config diff).Goes steps (some d)) :
    ∃ w action before after, .act w action ∈ steps ∧ w.store.apps.get? diff.appId = some before ∧
      d = .updated before after ∧ after.id = before.id := by
  cases hclass : diff.classify with
  | none =>
    obtain ⟨-, hnone⟩ := dispatch_still hclass h
    cases hnone
  | some reaction =>
    unfold dispatch at h
    simp only [hclass] at h
    obtain ⟨own, rest, outcome, rfl, hown, hrest⟩ := (goes_bind _ _ _).1 h
    obtain ⟨-, hnext⟩ := pushPending_goes diff.after (outcome.toOption.getD none) hrest
      (by cases diff.after <;> rfl)
    obtain ⟨a, announce, hafter, hstages⟩ := react_staged hown hnext.symm
    obtain ⟨w, action, before, after, hw, hbefore, hd, hid⟩ :=
      stageAndStart_recorded hstages hnext.symm
    rw [← appId_of_after hafter] at hbefore
    exact ⟨w, action, before, after, List.mem_append_left _ hw, hbefore, hd, hid⟩

theorem notes_observe {reaction : Option Reaction} (h : (observe config diff).Goes steps reaction) :
    ∃ first second, steps = first ++ second ∧ Notes diff.appId first ∧
      ((∀ w action, .act w action ∈ first → w.store.Own diff.appId) → Notes diff.appId second) := by
  obtain ⟨-, rounds, hrounds, rfl⟩ := observe_goes_iff.1 h
  rcases rounds_cases hrounds with
    ⟨first, rfl, hfirst, -⟩ | ⟨⟨first, d, second, rfl, hfirst, -, hsecond, -⟩, -⟩
  · exact ⟨first, [], by simp, notes_dispatch hfirst, fun _ => .of_records (by simp)⟩
  · refine ⟨first, second, by simp, notes_dispatch hfirst, fun hown => ?_⟩
    obtain ⟨w, action, before, after, hw, hbefore, rfl, hid⟩ := dispatch_recorded hfirst
    have happ : (Diff.updated before after).appId = diff.appId :=
      hid.trans (hown w action hw before hbefore)
    exact happ ▸ notes_dispatch hsecond

/-- A reaction that panics has written nothing, and it was over staging. -/
theorem observe_breaks (h : (observe config diff).Panics steps) :
    ∃ a, diff.after = some a ∧ Staging.Breaks config a steps ∧ ∀ step ∈ steps, step.KeepsStore := by
  obtain ⟨-, a, -, -, ha, -, hbreaks⟩ := dispatch_breaks (observe_panics_iff.1 h)
  exact ⟨a, ha, hbreaks, hbreaks.keepsStore⟩

/-- The change that was dispatched stands. Whatever else is stored, and whatever the stager, the
nodes and the bus make of it, and wherever it fails: a reaction writes to no application but the
changed one, and there nothing but what came of staging it, with the generation that this opens, and
that its routes are pending no longer, if the bus took them to the router before. So it is for each
of its own steps, whoever else writes in between, and for all of them together, if nobody else does.
A reaction panics over a call of the stager, or over a droplet that would open a generation after
the last, and has then written nothing at all. -/
theorem observe_keeps_change {o : Option (Option Reaction)} (h : (observe config diff).Ends steps o) :
    (∀ s s' : Store, s.Own diff.appId → s.Led steps s' →
      s.Stands diff.appId s' ∧
      (s.Clears diff.appId s' → ∃ told ∈ steps, told.Routes diff.appId)) ∧
    ((∀ w action, .act w action ∈ steps → w.store.Own diff.appId) →
      ∀ past step rest (s s' : Store), steps = past ++ step :: rest → step.Leads s s' →
        s.Stands diff.appId s' ∧
        (s.Clears diff.appId s' → ∃ told ∈ past, told.Routes diff.appId)) ∧
    (o = none → (∃ a, diff.after = some a ∧ Staging.Breaks config a steps) ∧
      (∀ s s' : Store, s.Led steps s' → s' = s) ∧
      ∀ step ∈ steps, ∀ s s' : Store, step.Leads s s' → s' = s) := by
  cases o with
  | none =>
    obtain ⟨a, ha, hbreaks, hkeeps⟩ := observe_breaks h
    have hnotes : Notes diff.appId steps := .of_records fun step hs => .keeps (hkeeps step hs)
    refine ⟨fun s s' _ hl => hnotes.led [] hl, fun _ past step rest s s' heq hl => ?_, fun _ =>
      ⟨⟨a, ha, hbreaks⟩, fun s s' => Store.led_kept hkeeps, fun step hs s s' =>
        (hkeeps step hs).leads⟩⟩
    rw [heq] at hnotes
    exact hnotes.leads hl
  | some reaction =>
    -- the second round is about what the first recorded, which is of the changed application
    obtain ⟨first, second, rfl, hfirst, hsecond⟩ := notes_observe h
    refine ⟨?_, ?_, nofun⟩
    · intro s s' hs hl
      obtain ⟨s₁, hl₁, -⟩ := Store.led_append.1 hl
      have hnotes := hfirst.append (hsecond fun w action => hfirst.finds hs hl₁)
      exact hnotes.led [] hl
    · intro hown past step rest s s' heq hl
      have hnotes := hfirst.append (hsecond fun w action hw =>
        hown w action (List.mem_append_left _ hw))
      rw [heq] at hnotes
      exact hnotes.leads hl

def webDroplet : StagingResult := ⟨0, some "droplet-1", none⟩

def webBuilt : World :=
  let w := ((World.storing webBound).perform (Staging.record webBound (.ok webDroplet))).2
  { w with link := { w.link with refused := [Subject.nodeStart] } }

def webUnheard : List Step :=
  let built := (webBuilt.store.apps.get? "web").getD webBound
  [.ask (.storing webBound) (Staging.question .default webBound)
      (.ok [StageReply.codec.write (.staged webDroplet)]),
    .act (.storing webBound) (Staging.record webBound (.ok webDroplet)),
    .act webBuilt (.publish Subject.nodeStart (RunCommand.codec.write (.ofApp built))),
    .act webBuilt (.publish Subject.routerUpdate (Orders.routing webBound)),
    .act webBuilt (.changeApp "web" fun stored => .ok stored.routesPushed)]

/-- It is staged and never started, and yet its routes are told. -/
theorem observe_keeps_change_web :
    let routed := (webBuilt.perform (.changeApp "web" fun stored => .ok stored.routesPushed)).2.store
    (World.storing webBound).store.Stands "web" routed ∧
    (World.storing webBound).store.Clears "web" routed ∧ ∃ told ∈ webUnheard, told.Routes "web" := by
  intro routed
  have hclass : (Diff.created webBound).classify = some .start := by decide
  have hpending : webBound.routesPending = true := by decide
  have hreact : (react .default .start (.created webBound)).Goes (webUnheard.take 3)
      (.error (.backend BusError.closed.message)) :=
    ⟨_, _, _, rfl, by decide, _, _, rfl, _, _, rfl, rfl, rfl⟩
  have hdispatch : (dispatch .default (.created webBound)).Goes webUnheard none := by
    unfold dispatch
    simp only [hclass]
    refine (goes_bind _ _ _).2 ⟨_, webUnheard.drop 3, _, rfl, hreact, ?_⟩
    simp only [Diff.created, hpending]
    obtain ⟨answer, hnoted⟩ := exists_goes_routesPushed webBuilt "web"
    have hpushed : (pushRoutes webBound).Goes (webUnheard.drop 3) () :=
      ⟨_, _, rfl, (goes_bind_pure _ _ _).2 ⟨answer, hnoted, rfl⟩⟩
    exact (goes_bind_pure _ _ _).2 ⟨(), hpushed, rfl⟩
  have hgoes : (observe .default (.created webBound)).Goes webUnheard (some .start) :=
    observe_goes_iff.2 ⟨hclass.symm, [webUnheard], .first hdispatch, by simp⟩
  have hled : (World.storing webBound).store.Led webUnheard routed :=
    ⟨_, .ask _ _ _, _, .act _ _, _, .act webBuilt _, _, .act webBuilt _, _, .act _ _, rfl⟩
  have hcleared : (routed.apps.get? "web").map (·.routesPending) = some false := by decide +kernel
  obtain ⟨b, hb, hnot⟩ := Option.map_eq_some_iff.1 hcleared
  have hclears : (World.storing webBound).store.Clears "web" routed :=
    ⟨webBound, b, rfl, hb, hpending, by simp [hnot]⟩
  have hown : (World.storing webBound).store.Own "web" :=
    fun a ha => (World.holds_storing webBound "web" a ha).1
  obtain ⟨hall, -⟩ := observe_keeps_change (ends_some.2 hgoes)
  obtain ⟨hstands, htold⟩ := hall _ routed hown hled
  exact ⟨hstands, hclears, htold hclears⟩

end Dispatch

end AppFleet
