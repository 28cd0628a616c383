import AppFleet.Proofs.Dispatch.Told

/-! The loop that dispatches what reactions stored. All that a reaction stores and hands back is that
staging failed. This calls for no reaction, whatever application the failure was recorded on, and without
a reaction nothing more is handed back. -/

namespace AppFleet.Dispatch

open Activity

variable {config : StagingConfig} {diff : Diff} {next : Option Diff} {rounds : List (List Step)}

/-- How far the loop has come: the steps of each round, and the change that is dispatched in the next.
Rounds go on as long as there is one. -/
inductive Rounds (config : StagingConfig) (diff : Diff) : List (List Step) → Option Diff → Prop where
  | first {steps : List Step} {next : Option Diff} :
      (dispatch config diff).Goes steps next → Rounds config diff [steps] next
  | again {rounds : List (List Step)} {d : Diff} {steps : List Step} {next : Option Diff} :
      Rounds config diff rounds (some d) → (dispatch config d).Goes steps next →
      Rounds config diff (rounds ++ [steps]) next

/-- There is one round, or another for a failure that the first recorded, and then no more. -/
theorem rounds_cases (h : Rounds config diff rounds next) :
    (∃ first, rounds = [first] ∧ (dispatch config diff).Goes first next ∧
      ∀ d ∈ next, d.RecordsFailure) ∨
    (∃ first d second, rounds = [first, second] ∧ (dispatch config diff).Goes first (some d) ∧
      d.RecordsFailure ∧ (dispatch config d).Goes second none ∧ Pushes d.after second) ∧
      next = none := by
  induction h with
  | first hfirst =>
    obtain ⟨-, -, -, -, -, hnext⟩ := dispatch_goes hfirst
    exact .inl ⟨_, rfl, hfirst, hnext⟩
  | again _ hgoes ih =>
    rcases ih with ⟨first, rfl, hfirst, hnext⟩ | ⟨-, hnone⟩
    · have hfailure := hnext _ rfl
      obtain ⟨hpushes, rfl⟩ := dispatch_still hfailure.classify hgoes
      exact .inr ⟨⟨first, _, _, rfl, hfirst, hfailure, hgoes, hpushes⟩, rfl⟩
    · cases hnone

theorem observe_goes_iff {steps : List Step} {reaction : Option Reaction} :
    (observe config diff).Goes steps reaction ↔
      reaction = diff.classify ∧ ∃ rounds, Rounds config diff rounds none ∧ steps = rounds.flatten := by
  unfold observe
  rw [goes_bind]
  constructor
  · rintro ⟨first, later, next, rfl, hfirst, hlater⟩
    obtain ⟨u, hfollows, rfl⟩ := (goes_bind_pure _ _ _).1 hlater
    refine ⟨rfl, ?_⟩
    cases next with
    | none =>
      obtain ⟨rfl, -⟩ := hfollows
      exact ⟨[first], .first hfirst, by simp⟩
    | some d =>
      obtain ⟨-, -, -, -, -, hnext⟩ := dispatch_goes hfirst
      obtain ⟨second, rest, next, rfl, hsecond, hrest⟩ := (goes_bind _ _ _).1 hfollows
      obtain ⟨-, rfl⟩ := dispatch_still (hnext d rfl).classify hsecond
      obtain ⟨rfl, -⟩ := hrest
      exact ⟨[first, second], .again (.first hfirst) hsecond, by simp⟩
  · rintro ⟨rfl, rounds, hrounds, rfl⟩
    have hends : (follow config 1 none).Goes [] () := ⟨rfl, rfl⟩
    rcases rounds_cases hrounds with
      ⟨first, rfl, hfirst, -⟩ | ⟨⟨first, d, second, rfl, hfirst, -, hsecond, -⟩, -⟩
    · exact ⟨first, [], none, by simp, hfirst, rfl, rfl⟩
    · have hfollows : (follow config 2 (some d)).Goes second () :=
        (goes_bind _ _ _).2 ⟨second, [], none, by simp, hsecond, hends⟩
      exact ⟨first, second, some d, by simp, hfirst, (goes_bind_pure _ _ _).2 ⟨(), hfollows, rfl⟩⟩

theorem rounds_end (h : Rounds config diff rounds next) :
    ∃ more, Rounds config diff (rounds ++ more) none := by
  cases next with
  | none => exact ⟨[], by simpa using h⟩
  | some d =>
    have hfailure : d.RecordsFailure := by
      rcases rounds_cases h with ⟨-, -, -, hnext⟩ | ⟨-, hnone⟩
      · exact hnext d rfl
      · cases hnone
    obtain ⟨steps, next, hgoes, -⟩ := (steady_dispatch hfailure.classify).exists_goes .empty
    obtain ⟨-, rfl⟩ := dispatch_still hfailure.classify hgoes
    exact ⟨[steps], .again h hgoes⟩

/-- Whatever is stored, by whomever, and whatever the stager, the bus and the nodes answer: a
recorded failure calls for no reaction, so that dispatching it tells the router of pending routes at
most, never panics, and leaves nothing more to be dispatched. So the loop comes to its end with at
most one more round after the first, and what it did then, with the reaction to the first change, is
what observing that change does. Only the first round may panic, where staging breaks off; then it
is all that there is. -/
theorem observe_follows_up_once (config : StagingConfig) (diff : Diff) :
    (∀ app e steps d, (Staging.recordFailed app e).Goes steps (some d) → d.RecordsFailure) ∧
    (∀ d : Diff, d.RecordsFailure → d.classify = none ∧ (dispatch config d).Steady ∧
      ∀ steps next, (dispatch config d).Goes steps next → Pushes d.after steps ∧ next = none) ∧
    (∀ rounds next, Rounds config diff rounds next →
      rounds.length ≤ 2 ∧ (rounds.length = 2 → next = none) ∧
      (∀ d ∈ next, d.RecordsFailure) ∧
      (∀ later ∈ rounds.tail, ∃ d : Diff, d.RecordsFailure ∧ Pushes d.after later) ∧
      ∃ more, Rounds config diff (rounds ++ more) none) ∧
    (∀ steps, (dispatch config diff).Panics steps → ∃ reaction a, diff.classify = some reaction ∧
      (reaction = .start ∨ reaction = .rollout) ∧ diff.after = some a ∧
        (a.needsStaging ∧ ¬ a.stagingFailed) ∧ Staging.Breaks config a steps) ∧
    ∀ steps o, (observe config diff).Ends steps o ↔
      (o = some diff.classify ∧ ∃ rounds, Rounds config diff rounds none ∧ steps = rounds.flatten) ∨
        o = none ∧ (dispatch config diff).Panics steps := by
  refine ⟨fun app e steps d h => ?_,
    fun d hd => ⟨hd.classify, steady_dispatch hd.classify, fun steps next h => ?_⟩,
    fun rounds next h => ?_, fun steps h => dispatch_breaks h, fun steps o => ?_⟩
  · obtain ⟨w, -, ⟨before, after, heq, hmoves⟩ | ⟨hnone, -⟩⟩ :=
      Staging.recordFailed_ends (a := .new app "") (ends_some.2 h)
    · cases heq
      exact Staging.moves_failed hmoves
    · cases hnone
  · exact dispatch_still hd.classify h
  · have hends := rounds_end h
    rcases rounds_cases h with
      ⟨first, rfl, -, hnext⟩ | ⟨⟨first, d, second, rfl, -, hd, -, hpushes⟩, rfl⟩
    · exact ⟨by simp, by simp, hnext, by simp, hends⟩
    · exact ⟨by simp, fun _ => rfl, by simp, by simpa using ⟨d, hd, hpushes⟩, hends⟩
  · cases o with
    | none => simpa using observe_panics_iff
    | some reaction => simpa using observe_goes_iff

def webBuilding : Application :=
  { Application.new "web" "web" with desired := .started, packageHash := some "bits-1" }

def webBound : Application := webBuilding.bindRoute "web.example.org"

def webUnbuildable : StagingError := .failed "no buildpack"

def webUnbuilt : Application :=
  { webBound with package := .failed, stagingFailure := some webUnbuildable.message, updatedAt := 7 }

def failedRound : List Step :=
  [.ask (.storing webBound) (Staging.question .default webBuilding)
      (.ok [StageReply.codec.write (.failed "no buildpack")]),
    .act (.storing webBound) (Staging.record webBuilding (.error webUnbuildable)),
    .act (.storing webUnbuilt) .wallClock,
    .act (.storing webUnbuilt) (.publish Subject.appEvent
      (AppEvent.codec.write ⟨"web", .stagingFailed, webUnbuildable.message, 7⟩))]

def routingRound : List Step :=
  [.act (.storing webUnbuilt) (.publish Subject.routerUpdate (Orders.routing webUnbuilt)),
    .act (.storing webUnbuilt) (.changeApp "web" fun stored => .ok stored.routesPushed)]

/-- The router is told of the route with the failure, and that is all. -/
theorem observe_follows_up_once_web :
    Rounds .default (.created webBuilding) [failedRound, routingRound] none ∧
    ∀ next, Rounds .default (.created webBuilding) [failedRound, routingRound] next → next = none := by
  have hclass : (Diff.created webBuilding).classify = some .start := by decide
  have hreact : (react .default .start (.created webBuilding)).Goes failedRound
      (.ok (some (.updated webBound webUnbuilt))) :=
    ⟨_, _, _, rfl, by decide, _, _, rfl, _, _, rfl, _, _, rfl, rfl, rfl⟩
  have hfirst : (dispatch .default (.created webBuilding)).Goes failedRound
      (some (.updated webBound webUnbuilt)) := by
    unfold dispatch
    simp only [hclass]
    exact (goes_bind _ _ _).2 ⟨failedRound, [], _, by simp, hreact, rfl, rfl⟩
  have hstill : (Diff.updated webBound webUnbuilt).classify = none :=
    Diff.RecordsFailure.classify
      ⟨webBound, { webUnbuilt with updatedAt := 0 }, webUnbuildable.message, 7, rfl, rfl⟩
  have hstored : (World.storing webUnbuilt).store.apps.get? "web" = some webUnbuilt :=
    Table.get?_put_self _ _ _
  have hne : webUnbuilt.routesPushed ≠ webUnbuilt := fun h =>
    Bool.noConfusion (congrArg Application.routesPending h)
  have hnoted : (changeApp "web" fun stored => .ok stored.routesPushed).Goes
      [.act (.storing webUnbuilt) (.changeApp "web" fun stored => .ok stored.routesPushed)]
      (.ok (some (.updated webUnbuilt { webUnbuilt.routesPushed with updatedAt := 7 }))) := by
    refine (goes_changeApp _).2 ⟨_, rfl, ?_⟩
    simp only [World.perform, Store.changeApp, hstored, hne, if_false]
    rfl
  have hpushed : (pushRoutes webUnbuilt).Goes routingRound () :=
    ⟨_, _, rfl, (goes_bind_pure _ _ _).2 ⟨_, hnoted, rfl⟩⟩
  have hsecond : (dispatch .default (.updated webBound webUnbuilt)).Goes routingRound none := by
    unfold dispatch
    simp only [hstill]
    exact (goes_bind_pure _ _ _).2 ⟨(), hpushed, rfl⟩
  obtain ⟨-, -, hrounds, -⟩ := observe_follows_up_once .default (.created webBuilding)
  exact ⟨.again (.first hfirst) hsecond, fun next h => (hrounds _ next h).2.1 rfl⟩

end AppFleet.Dispatch
