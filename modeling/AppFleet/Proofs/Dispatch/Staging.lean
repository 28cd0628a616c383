import AppFleet.Proofs.Activity.Course
import AppFleet.Proofs.Fleet.Reactions

/-! What staging makes of the store while others write to it. Only the verdict is stored, and only on a
package that is still pending when it comes; what was stored then is what is started. -/

namespace AppFleet

/-- The action takes the package of a stored application from pending to another state. -/
structure World.Moves (w : World) (action : Action) (app : AppId) (target : PackageState)
    (before after : Application) : Prop where
  found : w.store.apps.get? app = some before
  pending : before.package = .pending
  package : after.package = target
  left : (w.perform action).2.store = { w.store with apps := w.store.apps.put app after }

def World.storing (a : Application) : World :=
  { World.initial 0 7 0 with store := Store.empty.putApp a }

theorem World.holds_storing (a : Application) : (storing a).store.apps.Holds fun _ => True :=
  (Table.holds_empty _).put trivial

theorem Store.changeApp_of_ne (s : Store) (now : UInt64) {id : AppId}
    {change : Application → Except Fault Application} {before made : Application}
    (hb : s.apps.get? id = some before) (hm : change before = .ok made) (hne : made ≠ before) :
    s.changeApp now id change = (.ok (some (.updated before { made with updatedAt := now })),
      { s with apps := s.apps.put id { made with updatedAt := now } }) := by
  simp [changeApp, hb, hm, hne]

/-- The step asks this, or waits. -/
def Step.Asks (q : Request) : Step → Prop
  | ask _ r _ | lost _ r => r = q
  | pause _ => True
  | _ => False

theorem Step.Asks.keepsStore {q : Request} {s : Step} (h : s.Asks q) : s.KeepsStore := by
  cases s <;> trivial

theorem Step.Asks.leaves {q : Request} {s : Step} (h : s.Asks q) (t : Table Application) :
    s.leaves t = t := by
  cases s <;> first | rfl | exact h.elim

namespace Staging

/-- How a verdict of the stager is recorded. -/
def record (a : Application) : Except StagingError StagingResult → Action
  | .ok result => .changeApp a.id (·.markStaged result)
  | .error e => .changeApp a.id (·.markFailed e.message)

/-- How a call goes on, and what comes of it unless it panics, once it has recorded a verdict in a world
or could not. No droplet opens a generation after the last. -/
inductive Ends (a : Application) (start : UInt32 → Application → Activity β) (w : World) :
    Except StagingError StagingResult → List Step →
      Option (Except ReactionError (StagingOutcome β)) → Prop where
  | started {result : StagingResult} {before stored : Application} {rest : List Step} {b : β} :
      w.Moves (record a (.ok result)) a.id .staged before stored →
      (start result.instancesStarted stored).Goes rest b →
      Ends a start w (.ok result) rest (some (.ok (.started b)))
  | broken {result : StagingResult} {before stored : Application} {rest : List Step} :
      w.Moves (record a (.ok result)) a.id .staged before stored →
      (start result.instancesStarted stored).Panics rest → Ends a start w (.ok result) rest none
  | unrecorded {result : StagingResult} {e : ReactionError} :
      (w.perform (record a (.ok result))).2 = w → Ends a start w (.ok result) [] (some (.error e))
  | overflowed {result : StagingResult} {before : Application} :
      w.store.apps.get? a.id = some before → before.package = .pending → before.AtLast →
      (w.perform (record a (.ok result))).2 = w → Ends a start w (.ok result) [] none
  | failed {e : StagingError} {before after : Application} :
      w.Moves (record a (.error e)) a.id .failed before after →
      Ends a start w (.error e) [] (some (.ok (.failed e (some (.updated before after)))))
  | unnoticed {e : StagingError} : (w.perform (record a (.error e))).2 = w →
      Ends a start w (.error e) [] (some (.ok (.failed e none)))

variable {config : StagingConfig} {a : Application} {steps : List Step} {w : World}

/-- A verdict is stored on a pending package, or nothing is stored. -/
theorem perform_verdict (w : World) (app : AppId)
    {mark : Application → Except Fault Application} {target : PackageState}
    (hstays : target ≠ .pending)
    (hmark : ∀ before after, mark before = .ok after →
      before.package = .pending ∧ after.package = target) :
    (∃ before after, (w.perform (.changeApp app mark)).1 = .ok (some (.updated before after)) ∧
      w.Moves (.changeApp app mark) app target before after) ∨
    ((w.perform (.changeApp app mark)).1 = .ok none ∨
      ∃ before e, (w.perform (.changeApp app mark)).1 = .error e ∧
        w.store.apps.get? app = some before ∧ mark before = .error e) ∧
        (w.perform (.changeApp app mark)).2 = w := by
  simp only [World.perform]
  rcases w.store.changeApp_cases w.wallClock app mark with ⟨before, e, hb, hm, heq⟩ | ⟨-, heq⟩ |
    ⟨before, made, -, hb, hm, -⟩
  · exact .inr ⟨.inr ⟨before, e, by rw [heq], hb, hm⟩, by rw [heq]⟩
  · exact .inr ⟨.inl (by rw [heq]), by rw [heq]⟩
  · obtain ⟨hpending, htarget⟩ := hmark before made hm
    have hne : made ≠ before := by
      rintro rfl
      exact hstays (htarget.symm.trans hpending)
    have heq := w.store.changeApp_of_ne w.wallClock hb hm hne
    refine .inl ⟨before, { made with updatedAt := w.wallClock }, by rw [heq], ?_⟩
    exact ⟨hb, hpending, htarget, by simp only [World.perform, heq]⟩

theorem markStaged_moves {before after : Application} {result : StagingResult}
    (h : before.markStaged result = .ok after) :
    before.package = .pending ∧ after.package = .staged := by
  obtain ⟨hpending, hsettle⟩ := (Application.markStaged_ok_iff before after result).1 h
  exact ⟨hpending, by rw [Application.settle_frame hsettle]⟩

theorem markFailed_moves {before after : Application} {reason : String}
    (h : before.markFailed reason = .ok after) :
    before.package = .pending ∧ after.package = .failed := by
  obtain ⟨hpending, -⟩ := (Application.markFailed_ok_iff before after reason).1 h
  exact ⟨hpending, by rw [Application.markFailed_eq h]⟩

theorem stage_asks (a : Application) : (stage config a).Only (Step.Asks (question config a)) := by
  refine (Activity.only_ask (fun w replies => rfl) fun w => rfl).bind fun replies => ?_
  cases replies <;> exact Activity.only_pure _

/-- Asking the stager, however often, is nothing but waiting. -/
theorem stageFrom_asks (a : Application) (left : Nat) (attempt : UInt32) :
    (stageFrom config a left attempt).Only (Step.Asks (question config a)) := by
  induction left generalizing attempt with
  | zero => exact stage_asks a
  | succ left ih =>
    refine (stage_asks a).bind fun answer => ?_
    split
    · refine (Activity.only_pause trivial).bind fun _ => ?_
      split
      · exact ih _
      · exact Activity.only_panic
    · exact Activity.only_pure _

theorem stageWithRetry_asks (a : Application) :
    (stageWithRetry config a).Only (Step.Asks (question config a)) := by
  unfold stageWithRetry
  split
  · exact stageFrom_asks a _ _
  · exact Activity.only_panic

theorem recordStaged_ends {result : StagingResult} {o : Option (Except ReactionError Application)}
    (h : (recordStaged a.id result).Ends steps o) : ∃ w, steps = [.act w (record a (.ok result))] ∧
      ((∃ before stored, o = some (.ok stored) ∧
        w.Moves (record a (.ok result)) a.id .staged before stored) ∨
      ((∃ e, o = some (.error e)) ∨ o = none ∧ ∃ before,
        w.store.apps.get? a.id = some before ∧ before.package = .pending ∧ before.AtLast) ∧
        (w.perform (record a (.ok result))).2 = w) := by
  obtain ⟨w, rest, rfl, hrest⟩ := (Activity.changeApp_bind_ends _ _).1 h
  have hmark (b c : Application) (h : b.markStaged result = .ok c) := markStaged_moves h
  refine ⟨w, ?_⟩
  rcases perform_verdict w a.id (by decide) hmark with ⟨before, stored, hanswer, hmoves⟩ |
    ⟨hanswer | ⟨before, e, hanswer, hb, hm⟩, hkept⟩ <;> rw [hanswer] at hrest
  · obtain ⟨rfl, rfl⟩ := (Activity.ends_pure _ _).1 hrest
    exact ⟨rfl, .inl ⟨before, stored, rfl, hmoves⟩⟩
  · obtain ⟨rfl, rfl⟩ := (Activity.ends_pure _ _).1 hrest
    exact ⟨rfl, .inr ⟨.inl ⟨_, rfl⟩, hkept⟩⟩
  · cases e with
    | rejected r =>
      obtain ⟨rfl, rfl⟩ := (Activity.ends_pure _ _).1 hrest
      exact ⟨rfl, .inr ⟨.inl ⟨_, rfl⟩, hkept⟩⟩
    | overflow =>
      obtain ⟨rfl, rfl⟩ := hrest
      exact ⟨rfl, .inr ⟨.inr ⟨rfl, before, hb, Application.markStaged_overflow hm⟩, hkept⟩⟩

/-- A failure runs nothing new, so there is no generation to count. -/
theorem recordFailed_ends {e : StagingError} {o : Option (Option Diff)}
    (h : (recordFailed a.id e).Ends steps o) : ∃ w, steps = [.act w (record a (.error e))] ∧
      ((∃ before after, o = some (some (.updated before after)) ∧
        w.Moves (record a (.error e)) a.id .failed before after) ∨
      o = some none ∧ (w.perform (record a (.error e))).2 = w) := by
  obtain ⟨w, rest, rfl, hrest⟩ := (Activity.changeApp_bind_ends _ _).1 h
  have hmark (b c : Application) (h : b.markFailed e.message = .ok c) := markFailed_moves h
  refine ⟨w, ?_⟩
  rcases perform_verdict w a.id (by decide) hmark with ⟨before, after, hanswer, hmoves⟩ |
    ⟨hanswer | ⟨before, fault, hanswer, hb, hm⟩, hkept⟩ <;> rw [hanswer] at hrest
  · obtain ⟨rfl, rfl⟩ := (Activity.ends_pure _ _).1 hrest
    exact ⟨rfl, .inl ⟨before, after, rfl, hmoves⟩⟩
  · obtain ⟨rfl, rfl⟩ := (Activity.ends_pure _ _).1 hrest
    exact ⟨rfl, .inr ⟨rfl, hkept⟩⟩
  · cases fault with
    | rejected r =>
      obtain ⟨rfl, rfl⟩ := (Activity.ends_pure _ _).1 hrest
      exact ⟨rfl, .inr ⟨rfl, hkept⟩⟩
    | overflow => exact absurd hm (before.markFailed_ne_overflow _)

/-- What needs no staging is started at once, and what has failed is not staged again. All else is
staged, and the verdict recorded. -/
theorem stageIfNeeded_ends {start : UInt32 → Application → Activity β}
    {o : Option (Except ReactionError (StagingOutcome β))}
    (h : (stageIfNeeded config a start).Ends steps o) :
    (¬ a.needsStaging ∧ ∃ b, o = b.map (fun b => .ok (.started b)) ∧
      (start 0 a).Ends steps b) ∨
    (a.needsStaging ∧ a.stagingFailed ∧ steps = [] ∧ ∃ e, o = some (.ok (.failed e none))) ∨
    ((a.needsStaging ∧ ¬ a.stagingFailed) ∧
      (o = none ∧ (stageWithRetry config a).Panics steps ∨ ∃ asks answer w rest,
        steps = asks ++ .act w (record a answer) :: rest ∧
        (stageWithRetry config a).Goes asks answer ∧ Ends a start w answer rest o)) := by
  unfold stageIfNeeded at h
  by_cases hneeds : a.needsStaging
  · by_cases hfailed : a.stagingFailed
    · simp only [hneeds, hfailed, Bool.not_true, Bool.false_eq_true, if_false, if_true,
        Activity.ends_pure] at h
      obtain ⟨rfl, rfl⟩ := h
      exact .inr (.inl ⟨hneeds, hfailed, rfl, _, rfl⟩)
    · simp only [hneeds, hfailed, Bool.not_true, Bool.false_eq_true, if_false] at h
      refine .inr (.inr ⟨⟨hneeds, hfailed⟩, ?_⟩)
      rcases (Activity.ends_bind _ _ _).1 h with ⟨rfl, hpanics⟩ | ⟨asks, rest, answer, rfl, hasks, h⟩
      · exact .inl ⟨rfl, hpanics⟩
      refine .inr ⟨asks, answer, ?_⟩
      cases answer with
      | ok result =>
        rcases (Activity.ends_bind _ _ _).1 h with ⟨rfl, hpanics⟩ | ⟨own, rest, recorded, rfl, hown, h⟩
        · obtain ⟨w, rfl, ⟨_, _, ⟨⟩, -⟩ | ⟨⟨_, ⟨⟩⟩ | ⟨-, before, hb, hp, hlast⟩, hkept⟩⟩ :=
            recordStaged_ends (Activity.ends_none.2 hpanics)
          exact ⟨w, [], rfl, hasks, .overflowed hb hp hlast hkept⟩
        · obtain ⟨w, rfl, ⟨before, stored, ⟨⟩, hmoves⟩ | ⟨⟨e, ⟨⟩⟩ | ⟨⟨⟩, -⟩, hkept⟩⟩ :=
            recordStaged_ends (Activity.ends_some.2 hown)
          · rcases (Activity.ends_bind _ _ _).1 h with ⟨rfl, hbreaks⟩ | ⟨own, _, b, rfl, hstarts, h⟩
            · exact ⟨w, rest, rfl, hasks, .broken hmoves hbreaks⟩
            · obtain ⟨rfl, rfl⟩ := (Activity.ends_pure _ _).1 h
              exact ⟨w, own, by simp, hasks, .started hmoves hstarts⟩
          · obtain ⟨rfl, rfl⟩ := (Activity.ends_pure _ _).1 h
            exact ⟨w, [], by simp, hasks, .unrecorded hkept⟩
      | error e =>
        rcases (Activity.ends_bind _ _ _).1 h with ⟨rfl, hpanics⟩ | ⟨own, rest, recorded, rfl, hown, h⟩
        -- a failure opens no generation, so that to record it cannot panic
        · obtain ⟨_, -, ⟨_, _, ⟨⟩, -⟩ | ⟨⟨⟩, -⟩⟩ := recordFailed_ends (Activity.ends_none.2 hpanics)
        · obtain ⟨rfl, rfl⟩ := (Activity.ends_pure _ _).1 h
          obtain ⟨w, rfl, ⟨before, after, ⟨⟩, hmoves⟩ | ⟨⟨⟩, hkept⟩⟩ :=
            recordFailed_ends (Activity.ends_some.2 hown)
          · exact ⟨w, [], by simp, hasks, .failed hmoves⟩
          · exact ⟨w, [], by simp, hasks, .unnoticed hkept⟩
  · simp only [hneeds, Bool.not_false, if_true] at h
    refine .inl ⟨hneeds, ?_⟩
    rcases (Activity.ends_bind _ _ _).1 h with ⟨rfl, hpanics⟩ | ⟨own, rest, b, rfl, hstarts, h⟩
    · exact ⟨none, rfl, hpanics⟩
    · obtain ⟨rfl, rfl⟩ := (Activity.ends_pure _ _).1 h
      exact ⟨some b, rfl, by simpa using hstarts⟩

theorem stageIfNeeded_goes {start : UInt32 → Application → Activity β}
    {outcome : Except ReactionError (StagingOutcome β)}
    (h : (stageIfNeeded config a start).Goes steps outcome) :
    (¬ a.needsStaging ∧ ∃ b, outcome = .ok (.started b) ∧ (start 0 a).Goes steps b) ∨
    (a.needsStaging ∧ a.stagingFailed ∧ steps = [] ∧ ∃ e, outcome = .ok (.failed e none)) ∨
    ((a.needsStaging ∧ ¬ a.stagingFailed) ∧ ∃ asks answer w rest,
      steps = asks ++ .act w (record a answer) :: rest ∧
      (stageWithRetry config a).Goes asks answer ∧ Ends a start w answer rest (some outcome)) := by
  rcases stageIfNeeded_ends (Activity.ends_some.2 h) with ⟨hnot, b, hb, hstarts⟩ |
    ⟨hneeds, hfailed, hnone, e, he⟩ | ⟨hneeds, ⟨⟨⟩, -⟩ | hstages⟩
  · cases b with
    | none => cases hb
    | some b => exact .inl ⟨hnot, b, Option.some.inj hb, hstarts⟩
  · exact .inr (.inl ⟨hneeds, hfailed, hnone, e, Option.some.inj he⟩)
  · exact .inr (.inr ⟨hneeds, hstages⟩)

/-- Staging ends in a panic: over a call of the stager, or over the generation that a droplet opens. -/
inductive Breaks (config : StagingConfig) (a : Application) : List Step → Prop where
  | calling {steps : List Step} : (stageWithRetry config a).Panics steps → Breaks config a steps
  | recording {asks : List Step} {result : StagingResult} {w : World} {before : Application} :
      (stageWithRetry config a).Goes asks (.ok result) →
      w.store.apps.get? a.id = some before → before.package = .pending → before.AtLast →
      (w.perform (record a (.ok result))).2 = w →
      Breaks config a (asks ++ [.act w (record a (.ok result))])

theorem stageIfNeeded_panics {start : UInt32 → Application → Activity β}
    (hstart : ∀ started b, (start started b).Steady)
    (h : (stageIfNeeded config a start).Panics steps) :
    (a.needsStaging ∧ ¬ a.stagingFailed) ∧ Breaks config a steps := by
  rcases stageIfNeeded_ends (Activity.ends_none.2 h) with ⟨-, b, hb, hstarts⟩ | ⟨-, -, -, e, ⟨⟩⟩ |
    ⟨hneeds, ⟨-, hpanics⟩ | ⟨asks, answer, w, rest, rfl, hasks, hends⟩⟩
  · cases b with
    | none => exact absurd hstarts (hstart 0 a steps)
    | some b => cases hb
  · exact ⟨hneeds, .calling hpanics⟩
  · refine ⟨hneeds, ?_⟩
    cases hends with
    | broken hmoves hbreaks => exact absurd hbreaks (hstart _ _ _)
    | overflowed hfound hpending hlast hkept => exact .recording hasks hfound hpending hlast hkept

/-- It has called the stager, and tried to record what that answered. -/
theorem Breaks.only (h : Breaks config a steps) : ∀ s ∈ steps, s.Asks (question config a) ∨
    ∃ w result, s = .act w (record a (.ok result)) ∧ (w.perform (record a (.ok result))).2 = w := by
  intro s hs
  cases h with
  | calling hpanics => exact .inl (stageWithRetry_asks a _ _ (Activity.ends_none.2 hpanics) s hs)
  | recording hasks _ _ _ hkept =>
    rcases List.mem_append.1 hs with hs | hs
    · exact .inl ((stageWithRetry_asks a).goes hasks s hs)
    · exact .inr ⟨_, _, List.mem_singleton.1 hs, hkept⟩

theorem Breaks.keepsStore (h : Breaks config a steps) : ∀ s ∈ steps, s.KeepsStore := by
  intro s hs
  obtain hasks | ⟨w, result, rfl, hkept⟩ := h.only s hs
  · exact hasks.keepsStore
  · exact congrArg World.store hkept

theorem Ends.of_not_pending {start : UInt32 → Application → Activity β}
    {answer : Except StagingError StagingResult} {rest : List Step}
    {outcome : Option (Except ReactionError (StagingOutcome β))} (h : Ends a start w answer rest outcome)
    (hnot : ∀ before, w.store.apps.get? a.id = some before → before.package ≠ .pending) :
    (w.perform (record a answer)).2 = w ∧ rest = [] ∧
      ∀ result, answer = .ok result → ∃ e, outcome = some (.error e) := by
  cases h with
  | started hmoves | broken hmoves | failed hmoves => exact absurd hmoves.pending (hnot _ hmoves.found)
  | overflowed hfound hpending => exact absurd hpending (hnot _ hfound)
  | unrecorded hkept => exact ⟨hkept, rfl, fun _ _ => ⟨_, rfl⟩⟩
  | unnoticed hkept => exact ⟨hkept, rfl, nofun⟩

theorem not_moves_of_kept {action : Action} {app : AppId} {target : PackageState}
    {before after : Application} (hstays : target ≠ .pending) (hkept : (w.perform action).2 = w) :
    ¬ w.Moves action app target before after := by
  rintro ⟨hfound, hpending, htarget, hleft⟩
  have hsame : w.store.apps.get? app = some after := by
    rw [← congrArg World.store hkept, hleft]
    exact Table.get?_put_self _ _ _
  cases hfound.symm.trans hsame
  exact hstays (htarget.symm.trans hpending)

theorem moves_made {app : AppId} {mark : Application → Except Fault Application}
    {target : PackageState} {before after : Application} (hstays : target ≠ .pending)
    (h : w.Moves (.changeApp app mark) app target before after) :
    ∃ made, mark before = .ok made ∧ after = { made with updatedAt := after.updatedAt } := by
  rcases w.store.changeApp_cases w.wallClock app mark with ⟨_, r, -, -, heq⟩ | ⟨-, heq⟩ |
    ⟨_, made, stored, hb, hm, hstamp, -, hself, -⟩
  · exact absurd h (not_moves_of_kept hstays (by simp only [World.perform, heq]))
  · exact absurd h (not_moves_of_kept hstays (by simp only [World.perform, heq]))
  · cases h.found.symm.trans hb
    have hleft := congrArg (·.apps.get? app) h.left
    simp only [World.perform, hself, Table.get?_put_self, Option.some.injEq] at hleft
    subst hleft
    exact ⟨made, hm, hstamp⟩

theorem moves_failed {e : StagingError} {before after : Application}
    (h : w.Moves (record a (.error e)) a.id .failed before after) :
    (Diff.updated before after).RecordsFailure := by
  obtain ⟨made, hmade, hstamp⟩ := moves_made (by decide) h
  exact ⟨before, made, e.message, after.updatedAt, hmade, congrArg (Diff.updated before) hstamp⟩

theorem Ends.recorded_iff {start : UInt32 → Application → Activity β}
    {answer : Except StagingError StagingResult} {rest : List Step} {e : StagingError}
    {recorded : Option Diff} (h : Ends a start w answer rest (some (.ok (.failed e recorded))))
    (d : Diff) :
    recorded = some d ↔ ∃ before after,
      w.Moves (record a answer) a.id .failed before after ∧ d = .updated before after := by
  cases h with
  | failed hmoves =>
    constructor
    · rintro ⟨⟩
      exact ⟨_, _, hmoves, rfl⟩
    · rintro ⟨before, after, hmoves', rfl⟩
      cases hmoves.found.symm.trans hmoves'.found
      have hstored := congrArg (·.apps.get? a.id) (hmoves.left.symm.trans hmoves'.left)
      simp only [Table.get?_put_self] at hstored
      cases hstored
      rfl
  | unnoticed hkept =>
    constructor
    · nofun
    · rintro ⟨before, after, hmoves, -⟩
      exact absurd hmoves (not_moves_of_kept (by decide) hkept)

/-- Whatever the stager answers and whatever others store meanwhile, staging starts what it has itself
recorded as staged, as that was stored, and only that; it starts at once what needs no staging. A
verdict on a package that is gone or not pending any more is not stored. A recorded failure is reported,
and only that. Nothing but the verdict is written, also by what panics. -/
theorem starts_what_it_recorded {start : UInt32 → Application → Activity β}
    {o : Option (Except ReactionError (StagingOutcome β))}
    (h : (stageIfNeeded config a start).Ends steps o) :
    (¬ a.needsStaging ∧ ∃ b, o = b.map (fun b => .ok (.started b)) ∧
      (start 0 a).Ends steps b) ∨
    (a.needsStaging ∧ a.stagingFailed ∧ steps = [] ∧ ∃ e, o = some (.ok (.failed e none))) ∨
    ((a.needsStaging ∧ ¬ a.stagingFailed) ∧
      (o = none ∧ (stageWithRetry config a).Panics steps ∧ (∀ s ∈ steps, s.KeepsStore) ∨
      ∃ asks answer w rest, steps = asks ++ .act w (record a answer) :: rest ∧
        (stageWithRetry config a).Goes asks answer ∧ (∀ s ∈ asks, s.KeepsStore) ∧
        Ends a start w answer rest o ∧
        ((∀ before, w.store.apps.get? a.id = some before → before.package ≠ .pending) →
          (w.perform (record a answer)).2 = w ∧ rest = [] ∧
            ∀ result, answer = .ok result → ∃ e, o = some (.error e)) ∧
        ∀ e recorded, o = some (.ok (.failed e recorded)) → ∀ d, recorded = some d ↔
          ∃ before after, w.Moves (record a answer) a.id .failed before after ∧
            d = .updated before after)) := by
  have hkeeps {asks : List Step} {o : Option (Except StagingError StagingResult)}
      (h : (stageWithRetry config a).Ends asks o) : ∀ s ∈ asks, s.KeepsStore :=
    fun s hs => (stageWithRetry_asks a _ _ h s hs).keepsStore
  refine (stageIfNeeded_ends h).imp_right (.imp_right ?_)
  rintro ⟨hneeds, ⟨rfl, hpanics⟩ | ⟨asks, answer, w, rest, rfl, hasks, hends⟩⟩
  · exact ⟨hneeds, .inl ⟨rfl, hpanics, hkeeps (Activity.ends_none.2 hpanics)⟩⟩
  · refine ⟨hneeds, .inr ⟨asks, answer, w, rest, rfl, hasks, hkeeps (Activity.ends_some.2 hasks), hends,
      hends.of_not_pending, ?_⟩⟩
    rintro e recorded rfl
    exact hends.recorded_iff

def webWaiting (instances : UInt32) : World := .storing { Application.web with instances }

def scaledMeanwhile : List Step :=
  [.ask (webWaiting 1) (question .default .web)
      (.ok [StageReply.codec.write (.staged ⟨0, none, none⟩)]),
    .act (webWaiting 3) (record .web (.ok ⟨0, none, none⟩))]

theorem starts_what_it_recorded_web :
    (stageIfNeeded .default .web fun started stored => pure (started, stored.instances)).Goes
      scaledMeanwhile (.ok (.started (0, 3))) ∧
    ∃ w result before stored, .act w (record .web (.ok result)) ∈ scaledMeanwhile ∧
      w.Moves (record .web (.ok result)) "web" .staged before stored ∧ stored.instances = 3 := by
  have hgoes : (stageIfNeeded .default .web fun started stored => pure (started, stored.instances)).Goes
      scaledMeanwhile (.ok (.started (0, 3))) := ⟨_, _, _, rfl, by decide, _, _, rfl, rfl, rfl⟩
  refine ⟨hgoes, ?_⟩
  rcases starts_what_it_recorded (Activity.ends_some.2 hgoes) with ⟨hnot, -⟩ |
    ⟨-, -, hnone, -⟩ | ⟨-, ⟨⟨⟩, -⟩ | ⟨asks, answer, w, rest, hsteps, -, -, hends, -⟩⟩
  · exact absurd (by decide) hnot
  · cases hnone
  · cases hends with
    | started hmoves hstarts =>
      obtain ⟨rfl, heq⟩ := hstarts
      exact ⟨w, _, _, _, by simp [hsteps], hmoves, (congrArg Prod.snd heq).symm⟩

end Staging

end AppFleet
