import AppFleet.Proofs.Application.Unstaged
import AppFleet.Proofs.Dispatch.Staging

/-! What a reaction tells of the application it runs. While nobody else writes to the store, the change
that was dispatched and the result that staging recorded are what is stored when they are told. -/

namespace AppFleet

/-- What there is to tell of how an application runs. -/
inductive Application.Tells (a : Application) : String → Json → Prop where
  | start (indices : List UInt32) :
      Tells a Subject.nodeStart (RunCommand.codec.write { RunCommand.ofApp a with indices })
  | scale : Tells a Subject.nodeScale (RunCommand.codec.write (.ofApp a))
  | updated : Tells a Subject.appUpdated (AppUpdated.codec.write ⟨a.id, a.instances, a.version⟩)
  | live : Tells a Subject.hmLiveVersion (LiveVersion.codec.write ⟨a.id, a.version⟩)

/-- The subjects on which generations are told of. -/
def Subject.generations : List String := [nodeStart, nodeScale, appUpdated, hmLiveVersion]

def World.Has (w : World) (app : AppId) (a : Application) : Prop :=
  w.store.apps.get? app = some a ∧ a.id = app

/-- The subjects on which it is told what to run, or to stop, or to stage. -/
def Subject.running : List String := stagerStage :: nodeStop :: generations

/-- A step that asks nothing, and tells nobody what to run. -/
def Step.Plain : Step → Prop
  | act _ (.publish subject _) => subject ∉ Subject.running
  | act .. | pause _ => True
  | ask .. | lost .. | survey .. => False

/-- A step about how one application runs is about it as it is stored. Only what waits to be staged is
staged. A failed package that would have to be staged is not started, and nothing is scaled unless that
is called for. -/
inductive Step.Proper (config : StagingConfig) (app : AppId) (scales : Application → Prop) :
    Step → Prop where
  | plain {s : Step} : s.Plain → Proper config app scales s
  | stop {w : World} {payload : Json} :
      Proper config app scales (.act w (.publish Subject.nodeStop payload))
  | stage {w : World} {a : Application} {replies : Replies} : w.Has app a → a.isUnstaged →
      Proper config app scales (.ask w (Staging.question config a) replies)
  | lost {w : World} {a : Application} : w.Has app a → a.isUnstaged →
      Proper config app scales (.lost w (Staging.question config a))
  | start {w : World} {a : Application} {indices : List UInt32} : w.Has app a → a.isStarted →
      (a.stagingFailed → ¬ a.needsStaging) → Proper config app scales
        (.act w (.publish Subject.nodeStart (RunCommand.codec.write { RunCommand.ofApp a with indices })))
  | scale {w : World} {a : Application} : w.Has app a → a.isStarted → scales a →
      Proper config app scales
        (.act w (.publish Subject.nodeScale (RunCommand.codec.write (.ofApp a))))
  | updated {w : World} {a : Application} : w.Has app a → Proper config app scales
      (.act w (.publish Subject.appUpdated (AppUpdated.codec.write ⟨a.id, a.instances, a.version⟩)))
  | live {w : World} {a : Application} : w.Has app a → Proper config app scales
      (.act w (.publish Subject.hmLiveVersion (LiveVersion.codec.write ⟨a.id, a.version⟩)))

/-- Every generation is announced before it is started, and nothing is stopped. -/
structure RollsOut (steps : List Step) : Prop where
  announced : ∀ past w payload rest, steps = past ++ .act w (.publish Subject.nodeStart payload) :: rest →
    ∃ w' a indices, payload = RunCommand.codec.write { RunCommand.ofApp a with indices } ∧
      .act w' (.publish Subject.hmLiveVersion (LiveVersion.codec.write ⟨a.id, a.version⟩)) ∈ past
  keeps : ∀ w payload, .act w (.publish Subject.nodeStop payload) ∉ steps

variable {config : StagingConfig} {app : AppId} {scales : Application → Prop} {a : Application}
  {diff : Diff} {steps : List Step} {t : Table Application}

def Diff.Scales (d : Diff) (a : Application) : Prop := d.classify = some .scale ∧ d.after = some a

theorem Step.Proper.mono {scales' : Application → Prop} {s : Step} (h : s.Proper config app scales)
    (hscales : ∀ a, scales a → scales' a) : s.Proper config app scales' := by
  cases h with
  | plain hplain => exact .plain hplain
  | stop => exact .stop
  | stage ha hwaits => exact .stage ha hwaits
  | lost ha hwaits => exact .lost ha hwaits
  | start ha hs hready => exact .start ha hs hready
  | scale ha hs hscale => exact .scale ha hs (hscales _ hscale)
  | updated ha => exact .updated ha
  | live ha => exact .live ha

theorem Step.Proper.tells {w : World} {subject : String} {payload : Json}
    (h : Step.Proper config app scales (.act w (.publish subject payload)))
    (hsubject : subject ∈ Subject.generations) : ∃ a, w.Has app a ∧ a.Tells subject payload := by
  cases h with
  | plain hplain => exact absurd (List.mem_cons_of_mem _ (List.mem_cons_of_mem _ hsubject)) hplain
  | stop =>
    have hno : Subject.nodeStop ∉ Subject.generations := by decide
    exact absurd hsubject hno
  | start ha => exact ⟨_, ha, .start _⟩
  | scale ha => exact ⟨_, ha, .scale⟩
  | updated ha => exact ⟨_, ha, .updated⟩
  | live ha => exact ⟨_, ha, .live⟩

theorem Step.Asks.proper {s : Step} (h : s.Asks (Staging.question config a))
    (ha : t.get? a.id = some a) (hwaits : a.isUnstaged) (hfinds : s.finds t) :
    s.Proper config a.id scales := by
  have hhas {w : World} (hw : w.store.apps = t) : w.Has a.id a := ⟨by rw [hw]; exact ha, rfl⟩
  cases s with
  | ask w r replies =>
    obtain rfl : r = _ := h
    exact .stage (hhas hfinds) hwaits
  | lost w r =>
    obtain rfl : r = _ := h
    exact .lost (hhas hfinds) hwaits
  | pause ms => exact .plain trivial
  | act w action => exact h.elim
  | survey w records timeoutMs report => exact h.elim

/-- The step tells no node to start or to stop anything. -/
def Step.Calm (s : Step) : Prop := ∀ w payload,
  s ≠ .act w (.publish Subject.nodeStart payload) ∧ s ≠ .act w (.publish Subject.nodeStop payload)

theorem Step.calm_publish {w : World} {subject : String} (payload : Json)
    (h : subject ≠ Subject.nodeStart ∧ subject ≠ Subject.nodeStop) :
    Step.Calm (.act w (.publish subject payload)) := by
  intro w' payload'
  simp [h]

theorem Step.Plain.calm {s : Step} (h : s.Plain) : s.Calm := by
  rintro w payload
  constructor <;> rintro rfl <;> exact absurd (by decide) h

theorem Step.Asks.calm {q : Request} {s : Step} (h : s.Asks q) : s.Calm := by
  rintro w payload
  constructor <;> rintro rfl <;> exact h

namespace RollsOut

theorem of_calm (h : ∀ s ∈ steps, s.Calm) : RollsOut steps where
  announced := by
    rintro past w payload rest rfl
    exact absurd rfl (h _ (List.mem_append_right _ List.mem_cons_self) w payload).1
  keeps w payload hs := (h _ hs w payload).2 rfl

theorem of_plain (h : ∀ s ∈ steps, s.Plain) : RollsOut steps := .of_calm fun s hs => (h s hs).calm

theorem append {later : List Step} (h : RollsOut steps) (h' : RollsOut later) :
    RollsOut (steps ++ later) where
  announced := by
    intro past w payload rest heq
    rcases List.append_eq_append_iff.1 heq with ⟨past', rfl, hlater⟩ | ⟨rest', rfl, hrest⟩
    · obtain ⟨w', a, indices, hpayload, hmem⟩ := h'.announced past' w payload rest hlater
      exact ⟨w', a, indices, hpayload, List.mem_append_right _ hmem⟩
    · cases rest' with
      | nil =>
        obtain ⟨w', a, indices, -, hmem⟩ := h'.announced [] w payload rest hrest.symm
        cases hmem
      | cons s rest' =>
        obtain ⟨rfl, -⟩ := List.cons.inj hrest
        exact h.announced past w payload rest' rfl
  keeps w payload hs := (List.mem_append.1 hs).elim (h.keeps w payload) (h'.keeps w payload)

end RollsOut

namespace Activity

theorem plain_publish {subject : String} (h : subject ∉ Subject.running)
    (payload : Json) : (publish subject payload).Only Step.Plain := only_perform fun _ => h

theorem plain_changeApp (app : AppId) (change : Application → Except Fault Application) :
    (changeApp app change).Only Step.Plain := only_changeApp fun _ => trivial

theorem goes_publish {subject : String} {payload : Json} {answer : Except BusError Unit}
    (h : (publish subject payload).Goes steps answer) :
    ∃ w, steps = [.act w (.publish subject payload)] := by
  obtain ⟨w, rfl, -⟩ := (goes_perform _ _).1 h
  exact ⟨w, rfl⟩

theorem ends_publish {subject : String} {payload : Json} {o : Option (Except BusError Unit)}
    (h : (publish subject payload).Ends steps o) : ∃ w, steps = [.act w (.publish subject payload)] := by
  cases o with
  | none => exact absurd h (steady_publish _ _ _)
  | some answer => exact goes_publish h

end Activity

namespace Orders

open Activity

theorem only_attempt {P : Step → Prop} {order : Activity (Except BusError Unit)} (h : order.Only P) :
    (attempt order).Only P := h.bind fun _ => only_pure _

theorem plain_updateAutoscaling (a : Application) : (updateAutoscaling a).Only Step.Plain :=
  only_attempt (plain_publish (by decide) _)

theorem plain_recordEvent (app : AppId) (kind : AppEventKind) (message : String) :
    (recordEvent app kind message).Only Step.Plain :=
  (only_perform fun _ => trivial).bind fun _ => only_attempt (plain_publish (by decide) _)

theorem plain_updateRoutes (a : Application) : (updateRoutes a).Only Step.Plain :=
  plain_publish (by decide) _

theorem plain_deleteArtifact (kind : ArtifactKind) (app : AppId) :
    (deleteArtifact kind app).Only Step.Plain := only_attempt (plain_publish (by decide) _)

theorem steady_attempt {order : Activity (Except BusError Unit)} (h : order.Steady) :
    (attempt order).Steady := h.bind fun _ _ _ => steady_pure _

theorem steady_recordEvent (app : AppId) (kind : AppEventKind) (message : String) :
    (recordEvent app kind message).Steady :=
  (steady_perform _).bind fun _ _ _ => steady_attempt (steady_publish _ _)

theorem steady_deleteArtifact (kind : ArtifactKind) (app : AppId) : (deleteArtifact kind app).Steady :=
  steady_attempt (steady_publish _ _)

theorem only_stopInstances {P : Step → Prop} (app : AppId) (instanceIds : List String)
    (h : ∀ w payload, P (.act w (.publish Subject.nodeStop payload))) :
    (stopInstances app instanceIds).Only P := only_perform fun w => h w _

end Orders

namespace Dispatch

open Activity

theorem plain_pushRoutes (a : Application) : (pushRoutes a).Only Step.Plain := by
  refine (Orders.plain_updateRoutes a).bind fun answer => ?_
  cases answer with
  | error e => exact only_pure _
  | ok u => exact (plain_changeApp _ _).bind fun _ => only_pure _

/-- The router knowing the routes opens no generation. -/
theorem steady_pushRoutes (a : Application) : (pushRoutes a).Steady := by
  refine (steady_publish _ _).bind fun _ answer _ => ?_
  cases answer with
  | error e => exact steady_pure _
  | ok u => exact (steady_changeApp fun b => by simp).bind fun _ _ _ => steady_pure _

/-- Starts what was staged, after announcing it if that is called for. -/
def startStaged (announce : Bool) (started : UInt32) (staged : Application) :
    Activity (Except BusError Unit) := do
  if announce then Orders.announceVersion staged
  startRemaining staged started

theorem steady_startRemaining (a : Application) (started : UInt32) : (startRemaining a started).Steady := by
  unfold startRemaining
  split
  · exact steady_publish _ _
  · split
    · exact steady_pure _
    · exact steady_publish _ _

theorem steady_startStaged (announce : Bool) (started : UInt32) (a : Application) :
    (startStaged announce started a).Steady := by
  cases announce with
  | false => exact steady_startRemaining a started
  | true =>
    exact (Orders.steady_attempt (steady_publish _ _)).bind fun _ _ _ => steady_startRemaining a started

theorem startRemaining_goes {a : Application} {started : UInt32} {answer : Except BusError Unit}
    (h : (startRemaining a started).Goes steps answer) : steps = [] ∨ ∃ w indices, steps =
      [.act w (.publish Subject.nodeStart
        (RunCommand.codec.write { RunCommand.ofApp a with indices }))] := by
  unfold startRemaining at h
  split at h
  · obtain ⟨w, rfl⟩ := goes_publish h
    exact .inr ⟨w, [], rfl⟩
  · split at h
    · exact .inl h.1
    · obtain ⟨w, rfl⟩ := goes_publish h
      exact .inr ⟨w, _, rfl⟩

theorem announceVersion_goes {a : Application} {u : Unit}
    (h : (Orders.announceVersion a).Goes steps u) : ∃ w, steps =
      [.act w (.publish Subject.hmLiveVersion (LiveVersion.codec.write ⟨a.id, a.version⟩))] := by
  obtain ⟨answer, hgoes, -⟩ := (goes_bind_pure _ _ _).1 h
  exact goes_publish hgoes

theorem startStaged_proper {announce : Bool} {started : UInt32} {answer : Except BusError Unit}
    (ha : t.get? app = some a) (hid : a.id = app) (hs : a.isStarted)
    (hready : a.stagingFailed → ¬ a.needsStaging)
    (h : (startStaged announce started a).Goes steps answer) (hu : t.Undisturbed steps) :
    ∀ s ∈ steps, s.Proper config app scales := by
  have hstart {rest : List Step} (h : (startRemaining a started).Goes rest answer)
      (hu : t.Undisturbed rest) : ∀ s ∈ rest, s.Proper config app scales := by
    rcases startRemaining_goes h with rfl | ⟨w, indices, rfl⟩
    · simp
    · obtain rfl := hu.1
      simpa using .start ⟨ha, hid⟩ hs hready
  cases announce with
  | false => exact hstart h hu
  | true =>
    obtain ⟨own, rest, u, rfl, hown, hrest⟩ := (goes_bind _ _ _).1 h
    obtain ⟨w, rfl⟩ := announceVersion_goes hown
    obtain ⟨rfl, hu⟩ := hu
    intro s hs
    rcases List.mem_cons.1 hs with rfl | hs
    · exact .live ⟨ha, hid⟩
    · exact hstart hrest hu s hs

theorem stageIfNeeded_proper {announce : Bool}
    {outcome : Except ReactionError (StagingOutcome (Except BusError Unit))}
    (ha : t.get? a.id = some a) (hs : a.isStarted)
    (h : (Staging.stageIfNeeded config a (startStaged announce)).Goes steps outcome)
    (hu : t.Undisturbed steps) : ∀ s ∈ steps, s.Proper config a.id scales := by
  rcases Staging.stageIfNeeded_goes h with ⟨hnot, b, rfl, hstart⟩ | ⟨-, -, rfl, -⟩ |
    ⟨⟨hneeds, hfailed⟩, asks, answer, w, rest, rfl, hasks, hends⟩
  · exact startStaged_proper ha rfl hs (fun _ => hnot) hstart hu
  · simp
  · have hask := (Staging.stageWithRetry_asks a).goes hasks
    obtain ⟨hafter, hiff⟩ := Table.undisturbed_still fun s hs => (hask s hs).leaves t
    obtain ⟨hbefore, hfound, hrest⟩ := Table.undisturbed_append.1 hu
    rw [hafter] at hfound hrest
    obtain rfl : w.store.apps = t := hfound
    intro s hs'
    simp only [List.mem_append, List.mem_cons] at hs'
    rcases hs' with hs' | rfl | hs'
    · exact (hask s hs').proper ha (by simp [Application.isUnstaged, hneeds, hfailed])
        (hiff.1 hbefore s hs')
    · cases answer <;> exact .plain trivial
    · cases hends with
      | started hmoves hstart =>
        -- nobody else wrote, so it is the application itself that was marked
        cases ha.symm.trans hmoves.found
        obtain ⟨made, hmade, hstamp⟩ := Staging.moves_made (by decide) hmoves
        have hsettle := ((Application.markStaged_ok_iff _ _ _).1 hmade).2
        have hid : made.id = a.id := by rw [Application.settle_frame hsettle]
        have hstarted : made.isStarted := by
          rw [Application.isStarted, Application.settle_frame hsettle]
          exact hs
        refine startStaged_proper ?_ ?_ ?_ ?_ hstart hrest s hs'
        · exact (congrArg (·.apps.get? a.id) hmoves.left).trans (Table.get?_put_self _ _ _)
        · rw [hstamp]
          exact hid
        · rw [hstamp]
          exact hstarted
        · simp [Application.stagingFailed, hmoves.package]
      | _ => cases hs'

theorem stageAndStart_goes {announce : Bool} {outcome : Except ReactionError (Option Diff)}
    (h : (stageAndStart config a announce).Goes steps outcome) : ∃ own rest staging,
      steps = own ++ rest ∧ (Staging.stageIfNeeded config a (startStaged announce)).Goes own staging ∧
      (∀ s ∈ rest, s.Plain) ∧
      ∀ d ∈ outcome.toOption.getD none, ∃ e, staging = .ok (.failed e (some d)) := by
  obtain ⟨own, rest, staging, rfl, hown, hrest⟩ := (goes_bind _ _ _).1 h
  refine ⟨own, rest, staging, rfl, hown, ?_⟩
  match staging, hrest with
  | .error e, ⟨hnil, heq⟩ => subst hnil heq; simp [Except.toOption]
  | .ok (.started (.error cause)), ⟨hnil, heq⟩ => subst hnil heq; simp [Except.toOption]
  | .ok (.started (.ok ())), ⟨hnil, heq⟩ => subst hnil heq; simp [Except.toOption]
  | .ok (.failed e recorded), hrest =>
    obtain ⟨u, hevent, rfl⟩ := (goes_bind_pure _ _ _).1 hrest
    refine ⟨?_, fun d hd => ⟨e, by rw [← show recorded = some d from hd]⟩⟩
    exact (Orders.plain_recordEvent _ _ _).goes hevent

theorem stageAndStart_panics {announce : Bool} (h : (stageAndStart config a announce).Panics steps) :
    (Staging.stageIfNeeded config a (startStaged announce)).Panics steps := by
  refine ((panics_bind _ _).1 h).resolve_right ?_
  rintro ⟨own, rest, staging, -, -, hrest⟩
  match staging, hrest with
  | .error e, hrest | .ok (.started (.error cause)), hrest | .ok (.started (.ok ())), hrest =>
    exact not_panics_pure _ hrest
  | .ok (.failed e recorded), hrest =>
    exact ((Orders.steady_recordEvent _ _ _).bind fun _ _ _ => steady_pure _) rest hrest

theorem stageAndStart_next {announce : Bool} {outcome : Except ReactionError (Option Diff)}
    (h : (stageAndStart config a announce).Goes steps outcome) :
    ∀ d ∈ outcome.toOption.getD none, d.RecordsFailure := by
  obtain ⟨own, rest, staging, -, hown, -, hnext⟩ := stageAndStart_goes h
  intro d hd
  obtain ⟨e, rfl⟩ := hnext d hd
  rcases Staging.stageIfNeeded_goes hown with ⟨-, b, heq, -⟩ | ⟨-, -, -, e', heq⟩ |
    ⟨-, asks, answer, w, rest, -, -, hends⟩
  · cases heq
  · cases heq
  · cases hends with
    | failed hmoves =>
      exact Staging.moves_failed hmoves

theorem steady_scale (a : Application) : (scale a).Steady := by
  refine (steady_publish _ _).bind fun _ answer _ => ?_
  cases answer with
  | error e => exact steady_pure _
  | ok u => exact (steady_publish _ _).bind fun _ _ _ => steady_pure _

theorem appId_of_after (h : diff.after = some a) : diff.appId = a.id := by
  simp [Diff.appId, h]

theorem delete_proper (a : Application) : (delete a).Only (Step.Proper config app scales) := by
  have hplain {x : Activity Unit} (h : x.Only Step.Plain) : x.Only (Step.Proper config app scales) :=
    h.mono fun _ => .plain
  exact (Orders.only_attempt (Orders.only_stopInstances _ _ fun _ _ => .stop)).bind fun _ =>
    (hplain (Orders.plain_deleteArtifact _ _)).bind fun _ => hplain (Orders.plain_deleteArtifact _ _)

theorem scale_proper {outcome : Except ReactionError Unit} (ha : t.get? app = some a) (hid : a.id = app)
    (hs : a.isStarted) (hscales : scales a) (h : (scale a).Goes steps outcome)
    (hu : t.Undisturbed steps) : ∀ s ∈ steps, s.Proper config app scales := by
  obtain ⟨own, rest, answer, rfl, hown, hrest⟩ := (goes_bind _ _ _).1 h
  obtain ⟨w, rfl⟩ := goes_publish hown
  obtain ⟨rfl, hu⟩ := hu
  intro s hs'
  rcases List.mem_cons.1 hs' with rfl | hs'
  · exact .scale ⟨ha, hid⟩ hs hscales
  · cases answer with
    | error cause =>
      obtain ⟨rfl, -⟩ := hrest
      cases hs'
    | ok u =>
      obtain ⟨answer, hgoes, -⟩ := (goes_bind_pure _ _ _).1 hrest
      obtain ⟨w', rfl⟩ := goes_publish hgoes
      have hfound : w'.store.apps = w.store.apps := hu.1
      obtain rfl := List.mem_singleton.1 hs'
      exact .updated ⟨by rw [hfound]; exact ha, hid⟩

theorem react_proper {reaction : Reaction} {outcome : Except ReactionError (Option Diff)}
    (hreaction : diff.classify = some reaction)
    (hstored : ∀ a, diff.after = some a → t.get? a.id = some a)
    (h : (react config reaction diff).Goes steps outcome) (hu : t.Undisturbed steps) :
    ∀ s ∈ steps, s.Proper config diff.appId diff.Scales := by
  have hstage {announce : Bool} {after : Application} (hafter : diff.after = some after)
      (hr : reaction = .start ∨ reaction = .rollout)
      (h : (stageAndStart config after announce).Goes steps outcome) :
      ∀ s ∈ steps, s.Proper config diff.appId diff.Scales := by
    obtain ⟨own, rest, staging, rfl, hown, hplain, -⟩ := stageAndStart_goes h
    intro s hs
    rcases List.mem_append.1 hs with hs | hs
    · rw [appId_of_after hafter]
      exact stageIfNeeded_proper (hstored after hafter) (started_of_classify hreaction hr hafter) hown
        (Table.undisturbed_append.1 hu).1 s hs
    · exact .plain (hplain s hs)
  unfold react at h
  split at h
  · exact ((delete_proper _).bind fun _ => only_pure _).goes h
  · exact ((Orders.only_stopInstances _ _ fun _ _ => .stop).bind fun _ => only_pure _).goes h
  · exact hstage ‹_› (.inl rfl) h
  · rename_i after hafter
    obtain ⟨answer, hgoes, -⟩ := (goes_bind_pure _ _ _).1 h
    have hstarted : after.isStarted := by
      unfold Diff.classify at hreaction
      simp only [hafter] at hreaction
      grind
    rw [appId_of_after hafter]
    exact scale_proper (hstored after hafter) rfl hstarted ⟨hreaction, hafter⟩ hgoes hu
  · exact hstage ‹_› (.inr rfl) h
  · have honly := (Orders.plain_updateAutoscaling ‹_›).bind fun _ =>
      (only_pure _ : (pure (.ok none) : Activity (Except ReactionError (Option Diff))).Only Step.Plain)
    exact fun s hs => .plain (honly.goes h s hs)
  · obtain ⟨rfl, -⟩ := h
    simp

/-- Only a reaction that stages may panic. -/
theorem react_panics {reaction : Reaction} (h : (react config reaction diff).Panics steps) :
    (reaction = .start ∨ reaction = .rollout) ∧ ∃ a announce, diff.after = some a ∧
      (Staging.stageIfNeeded config a (startStaged announce)).Panics steps := by
  unfold react at h
  split at h
  · exact absurd h (((Orders.steady_attempt (steady_publish _ _)).bind fun _ _ _ =>
      (Orders.steady_deleteArtifact _ _).bind fun _ _ _ => Orders.steady_deleteArtifact _ _).bind
        (fun _ _ _ => steady_pure _) steps)
  · exact absurd h ((steady_publish _ _).bind (fun _ _ _ => steady_pure _) steps)
  · exact ⟨.inl rfl, _, false, ‹_›, stageAndStart_panics h⟩
  · exact absurd h ((steady_scale _).bind (fun _ _ _ => steady_pure _) steps)
  · exact ⟨.inr rfl, _, true, ‹_›, stageAndStart_panics h⟩
  · exact absurd h ((Orders.steady_attempt (steady_publish _ _)).bind (fun _ _ _ => steady_pure _) steps)
  · exact absurd h (not_panics_pure _)

/-- Only a reaction that stages leaves something to be dispatched. -/
theorem react_staged {reaction : Reaction} {outcome : Except ReactionError (Option Diff)} {d : Diff}
    (h : (react config reaction diff).Goes steps outcome) (hd : d ∈ outcome.toOption.getD none) :
    ∃ after announce, diff.after = some after ∧
      (stageAndStart config after announce).Goes steps outcome := by
  unfold react at h
  split at h
  · obtain ⟨_, -, rfl⟩ := (goes_bind_pure _ _ _).1 h
    simp [Except.toOption] at hd
  · obtain ⟨answer, -, rfl⟩ := (goes_bind_pure _ _ _).1 h
    cases answer <;> simp [Except.toOption, Except.mapError, Except.map] at hd
  · exact ⟨_, false, ‹_›, h⟩
  · obtain ⟨answer, -, rfl⟩ := (goes_bind_pure _ _ _).1 h
    cases answer <;> simp [Except.toOption, Except.map] at hd
  · exact ⟨_, true, ‹_›, h⟩
  · obtain ⟨_, -, rfl⟩ := (goes_bind_pure _ _ _).1 h
    simp [Except.toOption] at hd
  · obtain ⟨-, rfl⟩ := h
    simp [Except.toOption] at hd

theorem react_next {reaction : Reaction} {outcome : Except ReactionError (Option Diff)}
    (h : (react config reaction diff).Goes steps outcome) :
    ∀ d ∈ outcome.toOption.getD none, d.RecordsFailure := by
  intro d hd
  obtain ⟨after, announce, -, hstages⟩ := react_staged h hd
  exact stageAndStart_next hstages d hd

/-- The steps of a reaction, if the change calls for one. -/
def Reacts (config : StagingConfig) (diff : Diff) (steps : List Step) : Prop :=
  diff.classify = none ∧ steps = [] ∨ ∃ reaction outcome, diff.classify = some reaction ∧
    (react config reaction diff).Goes steps outcome

def Pushes (after : Option Application) (steps : List Step) : Prop :=
  (∀ a ∈ after, ¬ a.routesPending) ∧ steps = [] ∨
    ∃ a u, after = some a ∧ a.routesPending ∧ (pushRoutes a).Goes steps u

theorem Pushes.plain {after : Option Application} (h : Pushes after steps) : ∀ s ∈ steps, s.Plain := by
  rcases h with ⟨-, rfl⟩ | ⟨a, u, -, -, hpushed⟩
  · simp
  · exact (plain_pushRoutes a).goes hpushed

/-- Whatever becomes of telling the router, it stays at what the reaction left. -/
theorem pushPending_goes (after : Option Application) (recorded : Option Diff)
    {x : Activity (Option Diff)} {next : Option Diff} (h : x.Goes steps next)
    (hx : x = after.elim (pure recorded) fun a =>
      if a.routesPending then do
        pushRoutes a
        return recorded
      else return recorded) :
    Pushes after steps ∧ next = recorded := by
  rw [hx] at h
  cases after with
  | none =>
    obtain ⟨rfl, rfl⟩ := h
    exact ⟨.inl ⟨by simp, rfl⟩, rfl⟩
  | some a =>
    rw [Option.elim_some] at h
    split at h
    · obtain ⟨u, hpushed, rfl⟩ := (goes_bind_pure _ _ _).1 h
      exact ⟨.inr ⟨a, u, rfl, ‹_›, hpushed⟩, rfl⟩
    · rename_i hnone
      obtain ⟨rfl, rfl⟩ := h
      exact ⟨.inl ⟨by rintro _ ⟨⟩; exact hnone, rfl⟩, rfl⟩

/-- A change that calls for no reaction leaves nothing to be dispatched. -/
theorem dispatch_still {next : Option Diff} (hclass : diff.classify = none)
    (h : (dispatch config diff).Goes steps next) : Pushes diff.after steps ∧ next = none := by
  unfold dispatch at h
  simp only [hclass] at h
  exact pushPending_goes diff.after none h (by cases diff.after <;> rfl)

/-- After the reaction nothing but routes are told, and what is left to be dispatched is the record of a
failure. -/
theorem dispatch_goes {next : Option Diff} (h : (dispatch config diff).Goes steps next) :
    ∃ own rest, steps = own ++ rest ∧ Reacts config diff own ∧ Pushes diff.after rest ∧
      ∀ d ∈ next, d.RecordsFailure := by
  cases hclass : diff.classify with
  | none =>
    obtain ⟨hpushes, rfl⟩ := dispatch_still hclass h
    exact ⟨[], steps, rfl, .inl ⟨hclass, rfl⟩, hpushes, by simp⟩
  | some reaction =>
    unfold dispatch at h
    simp only [hclass] at h
    obtain ⟨own, rest, outcome, rfl, hown, hrest⟩ := (goes_bind _ _ _).1 h
    obtain ⟨hpushes, rfl⟩ := pushPending_goes diff.after (outcome.toOption.getD none) hrest
      (by cases diff.after <;> rfl)
    exact ⟨own, rest, rfl, .inr ⟨reaction, outcome, hclass, hown⟩, hpushes, react_next hown⟩

theorem steady_pushPending (after : Option Application) (recorded : Option Diff)
    {x : Activity (Option Diff)} (hx : x = after.elim (pure recorded) fun a =>
      if a.routesPending then do
        pushRoutes a
        return recorded
      else return recorded) : x.Steady := by
  rw [hx]
  cases after with
  | none => exact steady_pure _
  | some a =>
    rw [Option.elim_some]
    split
    · exact (steady_pushRoutes a).bind fun _ _ _ => steady_pure _
    · exact steady_pure _

theorem steady_dispatch (hclass : diff.classify = none) : (dispatch config diff).Steady := by
  unfold dispatch
  simp only [hclass]
  exact steady_pushPending diff.after none (by cases diff.after <;> rfl)

theorem dispatch_panics {reaction : Reaction} (hclass : diff.classify = some reaction)
    (h : (dispatch config diff).Panics steps) : (react config reaction diff).Panics steps := by
  unfold dispatch at h
  simp only [hclass] at h
  refine ((panics_bind _ _).1 h).resolve_right ?_
  rintro ⟨own, rest, outcome, -, -, hrest⟩
  exact steady_pushPending diff.after (outcome.toOption.getD none) (by cases diff.after <;> rfl) rest hrest

theorem steady_follow (fuel : Nat) {next : Option Diff} (h : ∀ d ∈ next, d.RecordsFailure) :
    (follow config fuel next).Steady := by
  induction fuel generalizing next with
  | zero => cases next <;> exact steady_pure _
  | succ fuel ih =>
    cases next with
    | none => exact steady_pure _
    | some diff =>
      have hclass := (h diff rfl).classify
      refine (steady_dispatch hclass).bind fun first next hfirst => ih ?_
      obtain ⟨-, rfl⟩ := dispatch_still hclass hfirst
      simp

theorem follow_plain (fuel : Nat) {next : Option Diff} (h : ∀ d ∈ next, d.RecordsFailure) :
    (follow config fuel next).Only Step.Plain := by
  induction fuel generalizing next with
  | zero => cases next <;> exact only_pure _
  | succ fuel ih =>
    cases next with
    | none => exact only_pure _
    | some diff =>
      have hclass := (h diff rfl).classify
      rintro steps o hends s hs
      rcases (ends_bind _ _ _).1 hends with ⟨-, hpanics⟩ | ⟨first, later, next, rfl, hfirst, hlater⟩
      · exact absurd hpanics (steady_dispatch hclass steps)
      · obtain ⟨hpushes, rfl⟩ := dispatch_still hclass hfirst
        exact (List.mem_append.1 hs).elim (hpushes.plain s) (ih (by simp) later o hlater s)

theorem observe_goes {reaction : Option Reaction} (h : (observe config diff).Goes steps reaction) :
    ∃ own rest, steps = own ++ rest ∧ Reacts config diff own ∧ ∀ s ∈ rest, s.Plain := by
  obtain ⟨first, later, next, rfl, hfirst, hlater⟩ := (goes_bind _ _ _).1 h
  obtain ⟨own, rest, rfl, hreacts, hpushes, hnext⟩ := dispatch_goes hfirst
  obtain ⟨u, hfollows, -⟩ := (goes_bind_pure _ _ _).1 hlater
  refine ⟨own, rest ++ later, by simp, hreacts, fun s hs => ?_⟩
  exact (List.mem_append.1 hs).elim (hpushes.plain s) ((follow_plain 2 hnext).goes hfollows s)

/-- A change is a panic only where staging breaks off. -/
theorem dispatch_breaks (h : (dispatch config diff).Panics steps) : ∃ reaction a,
    diff.classify = some reaction ∧ (reaction = .start ∨ reaction = .rollout) ∧ diff.after = some a ∧
      (a.needsStaging ∧ ¬ a.stagingFailed) ∧ Staging.Breaks config a steps := by
  cases hclass : diff.classify with
  | none => exact absurd h (steady_dispatch hclass steps)
  | some reaction =>
    obtain ⟨hr, a, announce, ha, hstages⟩ := react_panics (dispatch_panics hclass h)
    exact ⟨reaction, a, rfl, hr, ha,
      Staging.stageIfNeeded_panics (fun started b => steady_startStaged announce started b) hstages⟩

/-- No follow-up panics. -/
theorem observe_panics_iff : (observe config diff).Panics steps ↔ (dispatch config diff).Panics steps := by
  refine (panics_bind _ _).trans (or_iff_left ?_)
  rintro ⟨first, later, next, rfl, hfirst, hlater⟩
  obtain ⟨own, rest, -, -, -, hnext⟩ := dispatch_goes hfirst
  exact (steady_follow 2 hnext).bind (fun _ _ _ => steady_pure _) later hlater

theorem observe_proper {o : Option (Option Reaction)} (h : (observe config diff).Ends steps o)
    (hstored : ∀ a, diff.after = some a → t.get? a.id = some a) (hu : t.Undisturbed steps) :
    ∀ s ∈ steps, s.Proper config diff.appId diff.Scales := by
  intro s hs
  cases o with
  | none =>
    obtain ⟨reaction, a, -, -, ha, ⟨hneeds, hfailed⟩, hbreaks⟩ := dispatch_breaks (observe_panics_iff.1 h)
    obtain ⟨-, hfinds⟩ := Table.undisturbed_kept hbreaks.keepsStore hu
    rw [appId_of_after ha]
    obtain hasks | ⟨w, result, rfl, -⟩ := hbreaks.only s hs
    · exact hasks.proper (hstored a ha) (by simp [Application.isUnstaged, hneeds, hfailed])
        (hfinds s hs)
    · exact .plain trivial
  | some reaction =>
    obtain ⟨own, rest, rfl, hreacts, hplain⟩ := observe_goes h
    rcases List.mem_append.1 hs with hs | hs
    · rcases hreacts with ⟨-, rfl⟩ | ⟨reaction, outcome, hclass, hown⟩
      · cases hs
      · exact react_proper hclass hstored hown (Table.undisturbed_append.1 hu).1 s hs
    · exact .plain (hplain s hs)

theorem startStaged_rollsOut {started : UInt32} {answer : Except BusError Unit}
    (h : (startStaged true started a).Goes steps answer) : RollsOut steps := by
  obtain ⟨own, rest, u, rfl, hown, hrest⟩ := (goes_bind _ _ _).1 h
  obtain ⟨w, rfl⟩ := announceVersion_goes hown
  have hlive := Step.calm_publish (w := w) (LiveVersion.codec.write ⟨a.id, a.version⟩)
    (by decide : Subject.hmLiveVersion ≠ Subject.nodeStart ∧ Subject.hmLiveVersion ≠ Subject.nodeStop)
  rcases startRemaining_goes hrest with rfl | ⟨w', indices, rfl⟩
  · exact .of_calm (by simpa using hlive)
  · have hno : Subject.nodeStop ≠ Subject.nodeStart := by decide
    constructor
    · intro past w'' payload rest heq
      match past, heq with
      | [], heq => exact absurd (List.cons.inj heq).1 (hlive w'' payload).1
      | [s], heq =>
        simp only [List.cons_append, List.nil_append, List.cons.injEq, Step.act.injEq,
          Action.publish.injEq] at heq
        obtain ⟨rfl, ⟨-, -, rfl⟩, -⟩ := heq
        exact ⟨w, a, indices, rfl, List.mem_cons_self⟩
      | s :: s' :: past, heq => simp at heq
    · intro w'' payload hs
      simp only [List.cons_append, List.nil_append, List.mem_cons, List.not_mem_nil, or_false] at hs
      rcases hs with hs | hs
      · exact (hlive w'' payload).2 hs.symm
      · simp [hno] at hs

theorem stageAndStart_rollsOut {outcome : Except ReactionError (Option Diff)}
    (h : (stageAndStart config a true).Goes steps outcome) : RollsOut steps := by
  obtain ⟨own, rest, staging, rfl, hown, hplain, -⟩ := stageAndStart_goes h
  refine .append ?_ (.of_plain hplain)
  rcases Staging.stageIfNeeded_goes hown with ⟨-, b, -, hstart⟩ | ⟨-, -, rfl, -⟩ |
    ⟨-, asks, answer, w, rest, rfl, hasks, hends⟩
  · exact startStaged_rollsOut hstart
  · exact .of_plain (by simp)
  · refine .append (.of_calm fun s hs => ((Staging.stageWithRetry_asks a).goes hasks s hs).calm) ?_
    have hrecord : RollsOut [.act w (Staging.record a answer)] := by
      refine .of_plain fun s hs => ?_
      obtain rfl := List.mem_singleton.1 hs
      cases answer <;> trivial
    refine hrecord.append ?_
    cases hends with
    | started hmoves hstart => exact startStaged_rollsOut hstart
    | _ => exact .of_plain (by simp)

theorem react_rollsOut {outcome : Except ReactionError (Option Diff)}
    (h : (react config .rollout diff).Goes steps outcome) : RollsOut steps := by
  obtain ⟨before, after⟩ := diff
  cases after with
  | none =>
    cases before <;> (obtain ⟨rfl, -⟩ := h; exact .of_plain (by simp))
  | some after =>
    cases before <;> exact stageAndStart_rollsOut h

/-- While nobody else writes to the store, what a dispatched change makes the control plane tell of the
application is so in the store when it is told, whatever the stager made of it, also on the way to a
panic. A rollout announces the generation before it starts it, and stops nothing. -/
theorem observe_tells_what_is_stored {o : Option (Option Reaction)}
    (h : (observe config diff).Ends steps o) (hstored : t.get? diff.appId = diff.after)
    (hu : t.Undisturbed steps) :
    (∀ w subject payload, .act w (.publish subject payload) ∈ steps → subject ∈ Subject.generations →
      ∃ a, w.store.apps.get? diff.appId = some a ∧ a.Tells subject payload) ∧
    (diff.classify = some .rollout → RollsOut steps) := by
  constructor
  · intro w subject payload hs hsubject
    have hafter (a : Application) (ha : diff.after = some a) : t.get? a.id = some a := by
      rw [← ha, ← hstored, appId_of_after ha]
    obtain ⟨a, hhas, htells⟩ := (observe_proper h hafter hu _ hs).tells hsubject
    exact ⟨a, hhas.1, htells⟩
  · intro hclass
    cases o with
    | none =>
      obtain ⟨_, a, -, -, -, -, hbreaks⟩ := dispatch_breaks (observe_panics_iff.1 h)
      refine .of_calm fun s hs => ?_
      obtain hasks | ⟨w, result, rfl, -⟩ := hbreaks.only s hs
      · exact hasks.calm
      · exact Step.Plain.calm trivial
    | some reaction =>
      obtain ⟨own, rest, rfl, hreacts, hplain⟩ := observe_goes h
      refine .append ?_ (.of_plain hplain)
      rcases hreacts with ⟨-, rfl⟩ | ⟨reaction, outcome, hclass', hown⟩
      · exact .of_plain (by simp)
      · cases hclass.symm.trans hclass'
        exact react_rollsOut hown

def webGrown : Application :=
  Operation.run .web [.apply { Update.empty with memoryMb := some 512 }]

def webGrownStored : World := .storing webGrown

def webStaged : World :=
  (webGrownStored.perform (Staging.record webGrown (.ok ⟨0, some "droplet-1", none⟩))).2

def webRollout : List Step :=
  let staged := (webStaged.store.apps.get? "web").getD webGrown
  [.ask webGrownStored (Staging.question .default webGrown)
      (.ok [StageReply.codec.write (.staged ⟨0, some "droplet-1", none⟩)]),
    .act webGrownStored (Staging.record webGrown (.ok ⟨0, some "droplet-1", none⟩)),
    .act webStaged (.publish Subject.hmLiveVersion (LiveVersion.codec.write ⟨"web", staged.version⟩)),
    .act webStaged (.publish Subject.nodeStart (RunCommand.codec.write (.ofApp staged)))]

theorem goes_webRollout :
    (observe .default (.updated .web webGrown)).Goes webRollout (some .rollout) := by
  have hclass : (Diff.updated .web webGrown).classify = some .rollout := by decide +kernel
  have hpending : webGrown.routesPending = false := by decide +kernel
  have hreact : (react .default .rollout (.updated .web webGrown)).Goes webRollout (.ok none) :=
    ⟨_, _, _, rfl, by decide, _, _, rfl, _, _, rfl, _, _, rfl, rfl, rfl⟩
  have hdispatch : (dispatch .default (.updated .web webGrown)).Goes webRollout none := by
    unfold dispatch
    simp only [hclass]
    refine (Activity.goes_bind _ _ _).2 ⟨webRollout, [], _, by simp, hreact, ?_⟩
    simp only [Diff.updated, hpending]
    exact ⟨rfl, rfl⟩
  refine (Activity.goes_bind _ _ _).2 ⟨webRollout, [], none, by simp, hdispatch, ?_⟩
  rw [hclass]
  exact ⟨rfl, rfl⟩

/-- The first droplet opened another generation than the change had, and it is that which is told. -/
theorem observe_tells_what_is_stored_web :
    ((webStaged.store.apps.get? "web").any fun a => a.version ≠ webGrown.version) ∧
    (∀ w payload, .act w (.publish Subject.nodeStart payload) ∈ webRollout →
      ∃ a, w.store.apps.get? "web" = some a ∧ a.Tells Subject.nodeStart payload) ∧
    RollsOut webRollout := by
  have hundisturbed : webGrownStored.store.apps.Undisturbed webRollout := ⟨rfl, rfl, rfl, rfl, trivial⟩
  have hstored : webGrownStored.store.apps.get? (Diff.updated .web webGrown).appId =
      (Diff.updated .web webGrown).after := by decide +kernel
  have hid : (Diff.updated .web webGrown).appId = "web" := by decide +kernel
  obtain ⟨htells, hrollsOut⟩ := observe_tells_what_is_stored (Activity.ends_some.2 goes_webRollout) hstored hundisturbed
  refine ⟨by decide +kernel, fun w payload hs => ?_, hrollsOut (by decide +kernel)⟩
  rw [← hid]
  exact htells w _ payload hs (by decide)

end Dispatch

end AppFleet
