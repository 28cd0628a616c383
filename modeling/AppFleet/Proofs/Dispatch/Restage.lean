import AppFleet.Proofs.Application.Generation
import AppFleet.Proofs.Dispatch.Retries
import AppFleet.Proofs.Dispatch.Told
import AppFleet.Proofs.Fleet.Lawful
import AppFleet.Proofs.Message.RoundTrip

/-! A restage is a stop, a fresh start of the package, and a start, stored as one change. Whatever the
application was before, the change calls for its new generation to be staged and brought up, and the
instances that run are left alone meanwhile. -/

namespace AppFleet

/-- The step tells no node to stop anything. -/
def Step.StopsNothing (s : Step) : Prop := ∀ w payload, s ≠ .act w (.publish Subject.nodeStop payload)

theorem Step.Calm.stopsNothing {s : Step} (h : s.Calm) : s.StopsNothing := fun w payload => (h w payload).2

namespace Application

variable {a b c : Application}

def restaged (a : Application) : Application :=
  { a with
    desired := .started
    package := .pending
    stagingFailure := none
    generation := a.generation + 1
    version := Version.token a.id (a.generation + 1) }

theorem settle_renews (h : settle a .neither c = .ok b) (instances : c.instances = a.instances)
    (scaling : c.scaling = a.scaling) : renew a c = .ok b := by
  obtain ⟨-, s, hs, hb⟩ := (settle_ok_iff a c b .neither).1 h
  obtain ⟨rfl, -⟩ := (Scaling.reconcile_ok_iff _ _ _).1 hs
  have hclamp : clamp a c = c := by simp [clamp, instances, scaling]
  rwa [Scaling.completeBounds_neither, hclamp] at hb

/-- The stop in between makes the start open a generation, and nothing else is left of it. -/
theorem restage_eq (h : a.restage = .ok b) : b = a.restaged := by
  obtain ⟨s, m, hs, hm, hb⟩ := restage_steps h
  have hstopped : s = { a with desired := .stopped } := by
    have hrenewed := settle_renews hs rfl rfl
    rw [renew_quiet (not_opensGeneration_of_stopped rfl)] at hrenewed
    exact (Except.ok.inj hrenewed).symm
  subst hstopped
  have hmarked : m = { a with desired := .stopped, package := .pending, stagingFailure := none } :=
    settle_untouched hm rfl rfl rfl rfl rfl rfl
  subst hmarked
  rcases (renew_ok_iff _ _ _).1 (settle_renews hb rfl rfl) with ⟨hquiet, -⟩ | ⟨-, -, rfl⟩
  · simp [opensGeneration, isStarted] at hquiet
  · rfl

theorem restaged_ne (a : Application) : a.restaged ≠ a := by
  intro h
  have hgeneration : a.generation + 1 = a.generation := congrArg (·.generation) h
  rw [← UInt64.toNat_inj, UInt64.toNat_add, UInt64.toNat_one] at hgeneration
  omega

/-- With bits and instances to run, a restaged application waits to be staged. -/
theorem restaged_waits (hbits : a.bitsUploaded) (hsome : 0 < a.instances) (updatedAt : UInt64) :
    ({ a.restaged with updatedAt } : Application).needsStaging ∧
      ¬ ({ a.restaged with updatedAt } : Application).stagingFailed := by
  have hbits' : a.packageHash.isSome := hbits
  simp [needsStaging, bitsUploaded, isStaged, isStarted, stagingFailed, restaged, hbits', hsome]

/-- Only what is compared decides what a restage calls for: a stopped application has another desired
state now, and a started one another version. -/
theorem classify_restaged (hfresh : Version.token a.id (a.generation + 1) ≠ a.version)
    (updatedAt : UInt64) : (Diff.updated a { a.restaged with updatedAt }).classify =
      some (if a.isStarted then .rollout else .start) := by
  cases hd : a.desired <;>
    simp [Diff.classify, Diff.updated, Diff.desiredChanged, Diff.instancesChanged, Diff.versionChanged,
      Diff.differs, restaged, isStarted, hd, hfresh.symm]

end Application

namespace Dispatch

open Activity

variable {config : StagingConfig} {a : Application} {steps : List Step}

theorem startStaged_stopsNothing {announce : Bool} {started : UInt32} {answer : Except BusError Unit}
    (h : (startStaged announce started a).Goes steps answer) : ∀ s ∈ steps, s.StopsNothing := by
  cases announce with
  | true =>
    rintro s hs w payload rfl
    exact (startStaged_rollsOut h).keeps w payload hs
  | false =>
    have hno : Subject.nodeStart ≠ Subject.nodeStop := by decide
    have hstart : (startRemaining a started).Goes steps answer := h
    rcases startRemaining_goes hstart with rfl | ⟨w, indices, rfl⟩
    · simp
    · intro s hs w' payload heq
      obtain rfl := List.mem_singleton.1 hs
      simp [hno] at heq

/-- The stager is called first, unless the attempts cannot be counted. -/
theorem stageWithRetry_sends {o : Option (Except StagingError StagingResult)}
    (h : (Staging.stageWithRetry config a).Ends steps o) :
    config.maxRetries = 4294967295 ∧ steps = [] ∧ o = none ∨ config.maxRetries ≠ 4294967295 ∧
      ∃ s rest, steps = s :: rest ∧ s.Sends Subject.stagerStage (StageRequest.codec.write (.ofApp a)) := by
  rw [Staging.stageWithRetry_eq] at h
  by_cases hmax : config.maxRetries = 4294967295
  · rw [if_pos hmax] at h
    cases o with
    | none => exact .inl ⟨hmax, h, rfl⟩
    | some answer => exact h.elim
  · rw [if_neg hmax] at h
    refine .inr ⟨hmax, ?_⟩
    obtain ⟨w, reply, rest, rfl⟩ | ⟨w, rfl⟩ := Staging.stageUpTo_asks_first h
    · exact ⟨_, _, rfl, rfl, rfl⟩
    · exact ⟨_, _, rfl, rfl, rfl⟩

/-- What waits to be staged is asked about first, and whatever the stager makes of it nothing is
stopped. -/
theorem stageAndStart_asks {announce : Bool} {outcome : Except ReactionError (Option Diff)}
    (hwaits : a.needsStaging ∧ ¬ a.stagingFailed)
    (h : (stageAndStart config a announce).Goes steps outcome) :
    config.maxRetries ≠ 4294967295 ∧
      (∃ s rest, steps = s :: rest ∧
        s.Sends Subject.stagerStage (StageRequest.codec.write (.ofApp a))) ∧
      ∀ s ∈ steps, s.StopsNothing := by
  obtain ⟨own, rest, staging, rfl, hown, hplain, -⟩ := stageAndStart_goes h
  rcases Staging.stageIfNeeded_goes hown with ⟨hnot, -⟩ | ⟨-, hfailed, -⟩ |
    ⟨-, asks, answer, w, later, rfl, hasks, hends⟩
  · exact absurd hwaits.1 hnot
  · exact absurd hfailed hwaits.2
  · obtain ⟨-, -, ⟨⟩⟩ | ⟨hmax, s, more, rfl, hsends⟩ := stageWithRetry_sends (ends_some.2 hasks)
    refine ⟨hmax, ⟨s, _, rfl, hsends⟩, ?_⟩
    have hrecord : Step.StopsNothing (.act w (Staging.record a answer)) := by
      cases answer <;> exact fun _ _ => nofun
    have hlater : ∀ s ∈ later, s.StopsNothing := by
      cases hends with
      | started hmoves hstart => exact startStaged_stopsNothing hstart
      | _ => simp
    intro s' hs
    rw [List.append_assoc] at hs
    rcases List.mem_append.1 hs with hs | hs
    · exact ((Staging.stageWithRetry_asks a).goes hasks s' hs).calm.stopsNothing
    · simp only [List.cons_append, List.mem_cons, List.mem_append] at hs
      rcases hs with rfl | hs | hs
      · exact hrecord
      · exact hlater s' hs
      · exact (hplain s' hs).calm.stopsNothing

/-- The reaction to a start or a rollout of what waits to be staged asks the stager first, and nothing
is stopped, neither by it nor by what follows. With as many retries as can be configured it asks nobody,
for it panics. -/
theorem observe_asks {before after : Application} {o : Option (Option Reaction)} {announce : Bool}
    (hclass : (Diff.updated before after).classify = some (if announce then .rollout else .start))
    (hwaits : after.needsStaging ∧ ¬ after.stagingFailed)
    (h : (observe config (.updated before after)).Ends steps o) :
    (config.maxRetries = 4294967295 ∧ steps = [] ∧ o = none ∨ config.maxRetries ≠ 4294967295 ∧
      ∃ s rest, steps = s :: rest ∧
        s.Sends Subject.stagerStage (StageRequest.codec.write (.ofApp after))) ∧
      ∀ s ∈ steps, s.StopsNothing := by
  cases o with
  | none =>
    obtain ⟨_, a, -, -, ha, -, hbreaks⟩ := dispatch_breaks (observe_panics_iff.1 h)
    obtain rfl : after = a := Option.some.inj ha
    constructor
    · cases hbreaks with
      | calling hpanics =>
        exact (stageWithRetry_sends (ends_none.2 hpanics)).imp (fun h => ⟨h.1, h.2.1, rfl⟩) id
      | recording hasks =>
        obtain ⟨-, -, ⟨⟩⟩ | ⟨hmax, s, more, rfl, hsends⟩ := stageWithRetry_sends (ends_some.2 hasks)
        exact .inr ⟨hmax, s, _, rfl, hsends⟩
    · intro s hs
      obtain hasks | ⟨w, result, rfl, -⟩ := hbreaks.only s hs
      · exact hasks.calm.stopsNothing
      · exact fun _ _ => nofun
  | some reaction =>
    obtain ⟨own, rest, rfl, hreacts, hplain⟩ := observe_goes h
    rcases hreacts with ⟨hnone, -⟩ | ⟨reaction, outcome, hclass', hown⟩
    · cases hclass.symm.trans hnone
    · cases hclass.symm.trans hclass'
      have hstages : (stageAndStart config after announce).Goes own outcome := by
        cases announce <;> exact hown
      obtain ⟨hmax, ⟨s, more, rfl, hsends⟩, hstops⟩ := stageAndStart_asks hwaits hstages
      refine ⟨.inr ⟨hmax, s, _, rfl, hsends⟩, fun s hs => ?_⟩
      rcases List.mem_append.1 hs with hs | hs
      · exact hstops s hs
      · exact (hplain s hs).calm.stopsNothing

/-- A restage always restages. Whatever operations made a stored application, whether it was stopped or
started and whatever had become of its package: with bits and instances to run, the restage is stored,
and the change calls for a start or a rollout. Its reaction first asks the stager to stage the stored
bits for the new generation, and nothing is stopped by it, if the tokens of the two generations differ.
Two counters have an end: after the last generation the restage is a panic and stores nothing, and with
the greatest number of retries the reaction is one. -/
theorem restage_always_stages {id : AppId} {name : String} {ops : List Operation} {updatedAt : UInt64}
    {w : World} (ha : a = { Operation.run (.new id name) ops with updatedAt })
    (hstored : w.store.apps.get? a.id = some a) (hbits : a.bitsUploaded) (hsome : 0 < a.instances)
    (hdigest : Version.token a.id (a.generation + 1) ≠ Version.token a.id a.generation) :
    let after := { a.restaged with updatedAt := w.wallClock }
    let called := if a.isStarted then Reaction.rollout else .start
    ((w.perform (.changeApp a.id (·.restage))).1 = .ok (some (.updated a after)) ∧
      (w.perform (.changeApp a.id (·.restage))).2.store.apps.get? a.id = some after ∧
      (Diff.updated a after).classify = some called ∧
      ∀ config steps o, (observe config (.updated a after)).Ends steps o →
        (∀ reaction ∈ o, reaction = some called) ∧ (∀ s ∈ steps, s.StopsNothing) ∧
        (config.maxRetries = 4294967295 ∧ steps = [] ∧ o = none ∨ config.maxRetries ≠ 4294967295 ∧
          ∃ s rest payload, steps = s :: rest ∧ s.Sends Subject.stagerStage payload ∧
            ∃ request, StageRequest.codec.read payload = .ok request ∧
              request.packageHash = a.packageHash ∧ request.version = after.version)) ∨
    (w.perform (.changeApp a.id (·.restage))).1 = .error .overflow ∧
      (w.perform (.changeApp a.id (·.restage))).2 = w ∧ 2 ^ 64 ≤ ops.length + 1 := by
  intro after called
  have hlawful : a.Lawful := by
    rw [ha]
    exact (Operation.run_lawful (Application.new_lawful id name) ops).of_routes _ _ _
  rcases hlawful.unhindered.restage with ⟨made, hmade⟩ | ⟨hover, hlast⟩
  · left
    obtain rfl := Application.restage_eq hmade
    have hchange := w.store.changeApp_of_ne w.wallClock hstored hmade a.restaged_ne
    have hclass : (Diff.updated a after).classify = some called :=
      Application.classify_restaged (hlawful.version ▸ hdigest) w.wallClock
    have hwaits := Application.restaged_waits hbits hsome w.wallClock
    refine ⟨by simp only [World.perform, hchange]; rfl, ?_, hclass, ?_⟩
    · simp only [World.perform, hchange]
      exact Table.get?_put_self _ _ _
    · intro config steps o h
      obtain ⟨hasks, hstops⟩ := observe_asks hclass hwaits h
      refine ⟨?_, hstops, hasks.imp_right ?_⟩
      · rintro reaction rfl
        obtain ⟨first, later, next, -, -, hlater⟩ := (goes_bind _ _ _).1 h
        obtain ⟨u, -, rfl⟩ := (goes_bind_pure _ _ _).1 hlater
        exact hclass
      · rintro ⟨hmax, s, rest, hsteps, hsends⟩
        exact ⟨hmax, s, rest, _, hsteps, hsends, _, StageRequest.codec_faithful (.ofApp after), rfl, rfl⟩
  · have hrun : (Operation.run (.new id name) ops).AtLast := by
      rw [ha] at hlast
      exact hlast
    have hkept : w.store.changeApp w.wallClock a.id (·.restage) = (.error .overflow, w.store) := by
      simp only [Store.changeApp, hstored, hover]
    refine .inr ⟨congrArg Prod.fst hkept, ?_, Operation.length_of_atLast hrun⟩
    simp only [World.perform, hkept]

theorem restage_always_stages_web :
    ((World.storing .web).perform (.changeApp "web" (·.restage))).1 =
      .ok (some (.updated .web { Application.web.restaged with updatedAt := 7 })) ∧
    (Diff.updated .web { Application.web.restaged with updatedAt := 7 }).classify = some .rollout := by
  have hstored : (World.storing .web).store.apps.get? Application.web.id = some .web := rfl
  have hmade : Application.web = { Operation.run (.new "web" "web")
      [.apply { Update.empty with state := some .started, packageHash := some "bits-1" }] with
      updatedAt := Application.web.updatedAt } := rfl
  obtain ⟨hchange, -, hclass, -⟩ | ⟨-, -, hlength⟩ :=
    restage_always_stages hmade hstored rfl (by decide) (by decide +kernel)
  · exact ⟨hchange, hclass⟩
  · exact absurd hlength (by decide)

end Dispatch

end AppFleet
