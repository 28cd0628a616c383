import AppFleet.Proofs.Application.Verdict
import AppFleet.Proofs.Fleet.Monitor

/-! How the calls of the control plane go about the store. A call writes what it was called for, once;
all else that it stores are verdicts of the stager and the note that the router knows the routes.
Nothing is started and no verdict is recorded except for the application that the call itself wrote.
The router is told of routes that the call stored, and a survey asks about records that it read. -/

namespace AppFleet

structure Doings where
  /-- The applications as its writes and notes left them. -/
  stored : List Application
  asked : Option Request
  /-- The records of the ledger that it listed. -/
  read : List LedgerRecord
  /-- What it published for the router. -/
  told : List Json

def Doings.none : Doings := ⟨[], .none, [], []⟩

def Doings.wrote (a : Application) : Doings := { none with stored := [a] }

/-- An action that leaves the stored applications alone. -/
def Action.Quiet : Action → Prop
  | .putApp _ | .removeApp _ | .changeApp .. => False
  | _ => True

/-- An action that stores, reads, starts and routes nothing. -/
def Action.Idle : Action → Prop
  | .putApp _ | .removeApp _ | .changeApp .. | .mergeStats .. | .liveRecords => False
  | .publish subject _ => subject ≠ Subject.nodeStart ∧ subject ≠ Subject.routerUpdate
  | _ => True

inductive Call.Writes : Call → Action → Prop where
  | create (a : Application) : Writes (.create a) (.putApp a)
  | update (app : AppId) (u : Update) : Writes (.update app u) (.changeApp app (·.apply u))
  | delete (app : AppId) : Writes (.delete app) (.removeApp app)
  | adjust (e : Envelope) (app : AppId) (counts : AdjustInstances) :
      Writes (.message e) (.changeApp app (Respondent.adjusted counts))
  | scaleUp (e : Envelope) (app : AppId) (target : UInt32) :
      Writes (.message e) (.changeApp app (·.apply (.ofInstances target)))

inductive Action.Notes : Action → Prop where
  | verdict (app : AppId) (mark : Application → Except Fault Application) :
      IsVerdict mark → Notes (.changeApp app mark)
  | routesPushed (app : AppId) : Notes (.changeApp app fun stored => .ok stored.routesPushed)

/-- Commands to start instances are passed on as they come, and are no reaction to a change. -/
def Call.RelaysStarts : Call → Prop
  | .message e => e.subject = Subject.hmStart
  | _ => False

/-- Calls after which an application is not to be running. -/
def Call.Stops (app : AppId) : Call → Prop
  | .create a => a.id = app ∧ a.isStopped
  | .update id u => id = app ∧ u.state = some .stopped
  | .delete id => id = app
  | _ => False

def Call.Starts (app : AppId) : Call → Prop
  | .create a => a.id = app ∧ a.isStarted
  | .update id u => id = app ∧ u.state = some .started
  | _ => False

/-- Calls after which an application does not have these bits. -/
def Call.TakesBits (app : AppId) (bits : Option String) : Call → Prop
  | .create a => a.id = app ∧ a.packageHash ≠ bits
  | .update id u => id = app ∧ ∃ hash, u.packageHash = some hash ∧ some hash ≠ bits
  | .delete id => id = app
  | _ => False

def Call.GivesBits (app : AppId) (bits : Option String) : Call → Prop
  | .create a => a.id = app ∧ a.packageHash = bits
  | .update id u => id = app ∧ u.packageHash.isSome ∧ u.packageHash = bits
  | _ => False

/-- The question that staging asks about an application. -/
def Staging.question (config : StagingConfig) (a : Application) : Request :=
  .single Subject.stagerStage (StageRequest.codec.write (.ofApp a)) config.stageMs

def Orders.routing (a : Application) : Json := RouteUpdate.codec.write ⟨a.id, a.routes⟩

/-- What a store of applications under their own ids may answer. -/
def Action.MayAnswer : (action : Action) → action.Answer → Prop
  | .changeApp app change, outcome => ∀ d : Diff, outcome = .ok (some d) → ∃ before made after,
      before.id = app ∧ after.id = app ∧ change before = .ok made ∧
      after = { made with updatedAt := after.updatedAt } ∧ d = .updated before after
  | _, _ => True

def Action.stored : (action : Action) → action.Answer → List Application
  | .putApp a, _ => [a]
  | .changeApp _ _, .ok (some d) => d.after.toList
  | _, _ => []

def Action.read : (action : Action) → action.Answer → List LedgerRecord
  | .liveRecords, records => records
  | _, _ => []

def Action.told : Action → List Json
  | .publish subject payload => if subject = Subject.routerUpdate then [payload] else []
  | _ => []

def Doings.did (g : Doings) (action : Action) (answer : action.Answer) : Doings :=
  { g with
    stored := g.stored ++ action.stored answer
    read := g.read ++ action.read answer
    told := g.told ++ action.told }

/-- The call has written this application, and noted nothing yet. -/
structure Call.Wrote (c : Call) (g : Doings) (a : Application) : Prop where
  stored : g.stored = [a]
  starts : a.isStarted → ¬ c.Stops a.id
  bits : ¬ c.TakesBits a.id a.packageHash

/-- What a call may store, and tell the router. Stats are merged by surveys alone. -/
structure Call.Minds (c : Call) (g : Doings) (action : Action) : Prop where
  apps : action.Quiet ∨ g.stored = [] ∧ c.Writes action ∨ action.Notes
  ledger : ∀ requested reply, action ≠ .mergeStats requested reply
  routes : ∀ payload ∈ action.told, ∃ a ∈ g.stored, payload = Orders.routing a

/-- Owners' calls, which dispatch whatever they write. -/
def Call.Changes : Call → Prop
  | .create _ | .update .. => True
  | _ => False

/-- Routes that an owner's call wrote and the router did not know are not kept from it. -/
def Call.Routed (c : Call) (g : Doings) : Prop :=
  c.Changes → ∀ a, g.stored.head? = some a → a.routesPending → Orders.routing a ∈ g.told

/-- Starts are of the application that the call wrote, as started; a verdict is about it too, and
answers the question about it. -/
def Call.conduct (config : Config) (c : Call) : Monitor Doings where
  allows g action := c.Minds g action ∧
    (∀ payload, action = .publish Subject.nodeStart payload → c.RelaysStarts ∨
      ∃ cmd a, payload = RunCommand.codec.write cmd ∧ g.stored.head? = some a ∧ a.isStarted ∧
        a.id = cmd.appId ∧ ¬ c.Stops a.id) ∧
    (∀ app mark, action = .changeApp app mark → IsVerdict mark → ∃ a, c.Wrote g a ∧
      a.id = app ∧ g.asked = some (Staging.question config.staging a))
  after g action answer g' := action.MayAnswer answer ∧ g' = g.did action answer
  asked g r := { g with asked := some r }
  answers _ := True
  surveys g r := r ∈ g.read
  ends := c.Routed

theorem Action.told_of_ne {subject : String} (h : subject ≠ Subject.routerUpdate) (payload : Json) :
    (publish subject payload).told = [] := if_neg h

theorem Action.told_routerUpdate (payload : Json) :
    (publish Subject.routerUpdate payload).told = [payload] := by
  simp [told]

theorem Action.mem_told_iff {action : Action} {payload : Json} :
    payload ∈ action.told ↔ action = .publish Subject.routerUpdate payload := by
  cases action with
  | publish subject payload' =>
    by_cases h : subject = Subject.routerUpdate
    · subst h
      simp [told_routerUpdate, eq_comm]
    · simp [told_of_ne h, h]
  | _ => simp [told]

theorem Doings.did_publish (g : Doings) (subject : String) (payload : Json)
    (answer : (Action.publish subject payload).Answer) : g.did (.publish subject payload) answer =
      { g with told := g.told ++ (Action.publish subject payload).told } := by
  have hstored : (Action.publish subject payload).stored answer = [] := rfl
  have hread : (Action.publish subject payload).read answer = [] := rfl
  simp only [did, hstored, hread, List.append_nil]

theorem Doings.did_changeApp (g : Doings) (app : AppId)
    (change : Application → Except Fault Application)
    (answer : (Action.changeApp app change).Answer) :
    g.did (.changeApp app change) answer =
      { g with stored := g.stored ++ (Action.changeApp app change).stored answer } := by
  have hread : (Action.changeApp app change).read answer = [] := rfl
  have htold : (Action.changeApp app change).told = [] := rfl
  simp only [did, hread, htold, List.append_nil]

theorem Action.Idle.quiet {action : Action} (h : action.Idle) : action.Quiet := by
  cases action <;> first | exact h.elim | trivial

theorem Action.Quiet.stored {action : Action} (h : action.Quiet) (answer : action.Answer) :
    action.stored answer = [] := by
  cases action <;> first | rfl | exact h.elim

theorem Action.Idle.told {action : Action} (h : action.Idle) : action.told = [] := by
  cases action <;> first | exact told_of_ne h.2 _ | rfl

theorem Action.Idle.did {action : Action} (h : action.Idle) (g : Doings)
    (answer : action.Answer) : g.did action answer = g := by
  have hread : action.read answer = [] := by
    cases action <;> first | rfl | exact h.elim
  simp only [Doings.did, h.quiet.stored, hread, h.told, List.append_nil]

structure Doings.Extends (g g' : Doings) : Prop where
  stored : g.stored <+: g'.stored
  told : g.told <+: g'.told

theorem Doings.Extends.refl (g : Doings) : g.Extends g := ⟨List.prefix_refl _, List.prefix_refl _⟩

theorem Doings.Extends.trans {g g' g'' : Doings} (h : g.Extends g') (h' : g'.Extends g'') :
    g.Extends g'' := ⟨h.stored.trans h'.stored, h.told.trans h'.told⟩

theorem Doings.Extends.head? {g g' : Doings} (h : g.Extends g') {a : Application}
    (ha : g.stored.head? = some a) : g'.stored.head? = some a := by
  obtain ⟨rest, hrest⟩ := h.stored
  rw [← hrest, List.head?_append, ha]
  rfl

structure Doings.Left (g : Doings) (d : Diff) : Prop where
  reaction : d.classify = .none
  stored : ∀ a, d.after = some a → a ∈ g.stored

theorem Doings.Left.extends {g g' : Doings} {d : Diff} (h : g.Left d) (hg : g.Extends g') :
    g'.Left d := ⟨h.reaction, fun a ha => hg.stored.subset (h.stored a ha)⟩

/-- Idle actions are allowed, and leave the monitor where it is. -/
class Monitor.Overlooks (m : Monitor γ) : Prop where
  allows : ∀ {action : Action}, action.Idle → ∀ g, m.allows g action
  after : ∀ {action : Action}, action.Idle → ∀ {g answer g'}, m.after g action answer g' → g' = g

structure Activity.Idle (x : Activity α) : Prop where
  obeys : ∀ {γ : Type} {m : Monitor γ} [m.Overlooks] (g : γ), x.Obeys m (fun _ g' => g' = g) g

instance (config : Config) (c : Call) : (c.conduct config).Overlooks where
  allows {action} h g := by
    refine ⟨⟨.inl h.quiet, ?_, by simp [h.told]⟩, ?_, ?_⟩
    · rintro requested reply rfl
      exact h.elim
    · rintro payload rfl
      exact absurd rfl h.1
    · rintro app mark rfl
      exact h.elim
  after {action} h {g answer g'} hg := by
    rw [hg.2]
    exact h.did g answer

namespace Activity

theorem Idle.pure (a : α) : (Pure.pure a : Activity α).Idle := ⟨fun _ => rfl⟩

theorem Obeys.after_idle {m : Monitor γ} [m.Overlooks] {g : γ} {x : Activity α} {f : α → Activity β}
    {post : β → γ → Prop} (hx : x.Idle) (hf : ∀ a, (f a).Obeys m post g) :
    (x >>= f).Obeys m post g := by
  refine (hx.obeys g).bind ?_
  rintro a g' rfl
  exact hf a

theorem Idle.bind {x : Activity α} {f : α → Activity β} (hx : x.Idle) (hf : ∀ a, (f a).Idle) :
    (x >>= f).Idle :=
  ⟨fun g => .after_idle hx fun a => (hf a).obeys g⟩

theorem idle_perform {action : Action} (h : action.Idle) : (perform action).Idle :=
  ⟨fun g => obeys_perform.2
    ⟨Monitor.Overlooks.allows h g, fun _ _ hg => Monitor.Overlooks.after h hg⟩⟩

variable {config : Config} {c : Call} {g : Doings}

theorem idle_findApp (app : AppId) : (findApp app).Idle := idle_perform trivial

theorem idle_publish {subject : String}
    (h : subject ≠ Subject.nodeStart ∧ subject ≠ Subject.routerUpdate) (payload : Json) :
    (publish subject payload).Idle := by
  have hidle : (Action.publish subject payload).Idle := h
  exact idle_perform hidle

theorem Obeys.extends {post : α → Doings → Prop} {x : Activity α}
    (h : x.Obeys (c.conduct config) post g) :
    x.Obeys (c.conduct config) (fun a g' => post a g' ∧ g.Extends g') g := by
  induction x generalizing g with
  | done a => exact ⟨h, .refl g⟩
  | panic => trivial
  | act action next ih =>
    refine ⟨h.1, fun answer g' hg => ?_⟩
    have hdid : g.Extends g' := by
      rw [hg.2]
      exact ⟨List.prefix_append _ _, List.prefix_append _ _⟩
    exact (ih answer (h.2 answer g' hg)).mono fun a g'' hpost => hpost.imp_right hdid.trans
  | request r next ih =>
    exact fun replies hr => (ih replies (h replies hr)).mono fun a g' hpost =>
      ⟨hpost.1, hpost.2.stored, hpost.2.told⟩
  | sleep ms next ih => exact ih h
  | survey records timeoutMs next ih => exact ⟨h.1, fun report => ih report (h.2 report)⟩

/-- The one thing that a start needs is its application, written as started by the call itself. -/
theorem obeys_publish_start {cmd : RunCommand} {post : Except BusError Unit → Doings → Prop}
    (h : c.RelaysStarts ∨ ∃ a, g.stored.head? = some a ∧ a.isStarted ∧ a.id = cmd.appId ∧
      ¬ c.Stops a.id)
    (hpost : ∀ answer, post answer g) :
    (publish Subject.nodeStart (RunCommand.codec.write cmd)).Obeys (c.conduct config) post g := by
  have htold := Action.told_of_ne (by decide : Subject.nodeStart ≠ Subject.routerUpdate)
    (RunCommand.codec.write cmd)
  refine obeys_perform.2 ⟨⟨⟨.inl trivial, nofun, by simp [htold]⟩, ?_, nofun⟩, ?_⟩
  · intro payload hp
    refine h.imp_right fun ⟨a, ha⟩ => ⟨cmd, a, ?_, ha⟩
    exact (Action.publish.inj hp).2.symm
  · rintro answer g' ⟨-, rfl⟩
    rw [Doings.did_publish, htold, List.append_nil]
    exact hpost answer

theorem obeys_storing {app : AppId} {change : Application → Except Fault Application}
    {post : Except Rejection (Option Diff) → Doings → Prop}
    (hw : g.stored = [] ∧ c.Writes (.changeApp app change) ∨ Action.Notes (.changeApp app change))
    (hv : IsVerdict change → ∃ a, c.Wrote g a ∧ a.id = app ∧
      g.asked = some (Staging.question config.staging a))
    (hrejected : ∀ r, post (.error r) g) (hmissing : post (.ok none) g)
    (hmade : ∀ before made after : Application, before.id = app → after.id = app →
      change before = .ok made → after = { made with updatedAt := after.updatedAt } →
      post (.ok (some (.updated before after))) { g with stored := g.stored ++ [after] }) :
    (changeApp app change).Obeys (c.conduct config) post g := by
  refine obeys_changeApp.2 ⟨⟨⟨.inr hw, nofun, by simp [Action.told]⟩, nofun, ?_⟩, ?_⟩
  · intro app' mark hp hm
    obtain ⟨rfl, rfl⟩ := Action.changeApp.inj hp
    exact hv hm
  · rintro answer g' ⟨hanswer, hdid⟩
    replace hdid := hdid.trans (g.did_changeApp app change _)
    match answer, hanswer, hdid with
    | .error r, _, hdid =>
      obtain rfl : g' = g := by simpa [Action.stored, Except.mapError] using hdid
      exact hrejected r
    | .ok none, _, hdid =>
      obtain rfl : g' = g := by simpa [Action.stored, Except.mapError] using hdid
      exact hmissing
    | .ok (some d), hanswer, hdid =>
      obtain ⟨before, made, after, hb, ha, hc, heq, rfl⟩ := hanswer d rfl
      rw [hdid]
      exact hmade before made after hb ha hc heq

end Activity

namespace Orders

open Activity

theorem idle_attempt {order : Activity (Except BusError Unit)} (h : order.Idle) :
    (attempt order).Idle := h.bind fun _ => Idle.pure _

theorem idle_stopInstances (app : AppId) (instanceIds : List String) :
    (stopInstances app instanceIds).Idle := idle_publish (by decide) _

theorem idle_scale (a : Application) : (scale a).Idle := idle_publish (by decide) _

theorem idle_broadcastUpdated (a : Application) : (broadcastUpdated a).Idle :=
  idle_publish (by decide) _

theorem idle_deleteArtifact (kind : ArtifactKind) (app : AppId) : (deleteArtifact kind app).Idle :=
  idle_attempt (idle_publish (by decide) _)

theorem idle_updateAutoscaling (a : Application) : (updateAutoscaling a).Idle :=
  idle_attempt (idle_publish (by decide) _)

theorem idle_announceVersion (a : Application) : (announceVersion a).Idle :=
  idle_attempt (idle_publish (by decide) _)

theorem idle_recordEvent (app : AppId) (kind : AppEventKind) (message : String) :
    (recordEvent app kind message).Idle := by
  have hclock : (perform .wallClock).Idle := idle_perform trivial
  exact hclock.bind fun now => idle_attempt (idle_publish (by decide) _)

/-- The router is told of routes that the call stored. -/
theorem obeys_updateRoutes {config : Config} {c : Call} {g : Doings} {a : Application}
    (ha : a ∈ g.stored) : (updateRoutes a).Obeys (c.conduct config)
      (fun _ g' => g' = { g with told := g.told ++ [routing a] }) g := by
  have hstart : Subject.nodeStart ≠ Subject.routerUpdate := by decide
  refine obeys_perform.2 ⟨⟨⟨.inl trivial, nofun, ?_⟩, fun payload hp => ?_, nofun⟩, ?_⟩
  · intro payload hp
    exact ⟨a, ha, (Action.publish.inj (Action.mem_told_iff.1 hp)).2.symm⟩
  · exact absurd (Action.publish.inj hp).1.symm hstart
  · rintro answer g' ⟨-, rfl⟩
    rw [Doings.did_publish, Action.told_routerUpdate]
    rfl

end Orders

namespace Staging

open Activity

variable {config : Config} {c : Call} {g : Doings}

theorem obeys_stage (a : Application) : (stage config.staging a).Obeys (c.conduct config)
    (fun _ g' => g' = { g with asked := some (question config.staging a) }) g := by
  unfold stage
  rw [obeys_bind, obeys_ask]
  intro replies _
  cases replies <;> rfl

/-- However often it is asked, the question is the same. -/
theorem obeys_stageFrom (a : Application) (left : Nat) (attempt : UInt32) :
    (stageFrom config.staging a left attempt).Obeys (c.conduct config)
      (fun _ g' => g' = { g with asked := some (question config.staging a) }) g := by
  induction left generalizing g attempt with
  | zero => exact obeys_stage a
  | succ left ih =>
    refine (obeys_stage a).bind ?_
    rintro answer g' rfl
    split
    · rw [obeys_bind, obeys_pause]
      split
      · exact ih _ (g := { g with asked := some (question config.staging a) })
      · trivial
    · rfl

theorem obeys_stageWithRetry (a : Application) :
    (stageWithRetry config.staging a).Obeys (c.conduct config)
      (fun _ g' => g' = { g with asked := some (question config.staging a) }) g := by
  unfold stageWithRetry
  split
  · exact obeys_stageFrom a _ _
  · trivial

theorem obeys_recordStaged {a : Application} (result : StagingResult) (ha : c.Wrote g a)
    (hasked : g.asked = some (question config.staging a)) :
    (recordStaged a.id result).Obeys (c.conduct config) (fun outcome g' => ∀ staged,
      outcome = .ok staged → staged.id = a.id ∧ g'.stored.head? = some a) g := by
  unfold recordStaged
  rw [obeys_bind]
  refine obeys_storing (.inr (.verdict _ _ (.staged result))) (fun _ => ⟨a, ha, rfl, hasked⟩)
    ?_ ?_ ?_
  · intro r
    simp
  · simp
  · intro before made after hb hid hc heq
    simp [Diff.updated, hid, ha.stored]

/-- What records a failure calls for no reaction. -/
theorem obeys_recordFailed {a : Application} (error : StagingError) (ha : c.Wrote g a)
    (hasked : g.asked = some (question config.staging a)) :
    (recordFailed a.id error).Obeys (c.conduct config)
      (fun recorded g' => ∀ d ∈ recorded, g'.Left d) g := by
  unfold recordFailed
  rw [obeys_bind]
  refine obeys_storing (.inr (.verdict _ _ (.failed error.message)))
    (fun _ => ⟨a, ha, rfl, hasked⟩) ?_ ?_ ?_
  · intro r
    simp
  · simp
  · intro before made after hb hid hc heq
    have hnone : (Diff.updated before after).classify = none := by
      rw [heq]
      exact Application.classify_markFailed hc after.updatedAt
    rintro d ⟨⟩
    exact ⟨hnone, fun b hb => by simp [Diff.updated] at hb; simp [hb]⟩

theorem obeys_stageIfNeeded {a : Application} {start : UInt32 → Application → Activity β}
    (ha : c.Wrote g a)
    (hstart : ∀ started b g', b.id = a.id → g'.stored.head? = some a →
      (start started b).Obeys (c.conduct config) (fun _ _ => True) g') :
    (stageIfNeeded config.staging a start).Obeys (c.conduct config) (fun outcome g' =>
      ∀ error recorded, outcome = .ok (.failed error recorded) → ∀ d ∈ recorded, g'.Left d) g := by
  unfold stageIfNeeded
  split
  · refine (hstart 0 a g rfl (by simp [ha.stored])).bind fun outcome g' _ => ?_
    simp
  · split
    · simp
    · refine (obeys_stageWithRetry a).bind ?_
      rintro answer g' rfl
      have ha' : c.Wrote { g with asked := some (question config.staging a) } a :=
        ⟨ha.stored, ha.starts, ha.bits⟩
      cases answer with
      | ok result =>
        have hrecorded : (recordStaged a.id result).Obeys (c.conduct config) _
            { g with asked := some (question config.staging a) } :=
          obeys_recordStaged result ha' rfl
        refine hrecorded.bind fun outcome g' hstaged => ?_
        cases outcome with
        | error e => simp
        | ok staged =>
          obtain ⟨hid, hhead⟩ := hstaged staged rfl
          refine (hstart result.instancesStarted staged g' hid hhead).bind fun outcome g' _ => ?_
          simp
      | error e =>
        have hrecorded : (recordFailed a.id e).Obeys (c.conduct config) _
            { g with asked := some (question config.staging a) } :=
          obeys_recordFailed e ha' rfl
        refine hrecorded.bind fun recorded g' hleft => ?_
        simpa using hleft

end Staging

namespace Dispatch

open Activity

variable {config : Config} {c : Call} {g : Doings}

theorem obeys_startRemaining {a : Application} (started : UInt32)
    (h : ∃ b, g.stored.head? = some b ∧ b.isStarted ∧ b.id = a.id ∧ ¬ c.Stops b.id) :
    (startRemaining a started).Obeys (c.conduct config) (fun _ _ => True) g := by
  unfold startRemaining
  split
  · exact obeys_publish_start (.inr h) fun _ => trivial
  · split
    · trivial
    · exact obeys_publish_start (.inr h) fun _ => trivial

theorem obeys_stageAndStart {a : Application} (announce : Bool) (hstarted : a.isStarted)
    (ha : c.Wrote g a) :
    (stageAndStart config.staging a announce).Obeys (c.conduct config)
      (fun outcome g' => ∀ d ∈ outcome.toOption.getD none, g'.Left d) g := by
  unfold stageAndStart
  refine (Staging.obeys_stageIfNeeded ha ?_).bind fun outcome g' hleft => ?_
  · intro started b g' hid hhead
    have hown : ∃ x, g'.stored.head? = some x ∧ x.isStarted ∧ x.id = b.id ∧ ¬ c.Stops x.id :=
      ⟨a, hhead, hstarted, hid.symm, ha.starts hstarted⟩
    cases announce with
    | true =>
      exact .after_idle (Orders.idle_announceVersion b) fun _ => obeys_startRemaining started hown
    | false => exact obeys_startRemaining started hown
  · match outcome, hleft with
    | .error e, _ => simp [Except.toOption]
    | .ok (.started (.error cause)), _ => simp [Except.toOption]
    | .ok (.started (.ok ())), _ => simp [Except.toOption]
    | .ok (.failed error recorded), hleft =>
      refine .after_idle (Orders.idle_recordEvent _ _ _) fun _ => ?_
      exact hleft error recorded rfl

theorem idle_delete (a : Application) : (delete a).Idle :=
  (Orders.idle_attempt (Orders.idle_stopInstances _ _)).bind fun _ =>
    (Orders.idle_deleteArtifact _ _).bind fun _ => Orders.idle_deleteArtifact _ _

theorem idle_scale (a : Application) : (scale a).Idle := by
  refine (Orders.idle_scale a).bind fun answer => ?_
  cases answer with
  | error e => exact Idle.pure _
  | ok u => exact (Orders.idle_broadcastUpdated a).bind fun _ => Idle.pure _

/-- Only what is to be running is started or rolled out. -/
theorem started_of_classify {diff : Diff} {a : Application} {reaction : Reaction}
    (h : diff.classify = some reaction) (hr : reaction = .start ∨ reaction = .rollout)
    (ha : diff.after = some a) : a.isStarted := by
  unfold Diff.classify at h
  simp only [ha] at h
  by_contra hstarted
  rcases hr with rfl | rfl <;> simp [hstarted] at h <;> grind

theorem obeys_react {diff : Diff} {reaction : Reaction} (hreaction : diff.classify = some reaction)
    (hwrote : ∀ a, diff.after = some a → c.Wrote g a) :
    (react config.staging reaction diff).Obeys (c.conduct config)
      (fun outcome g' => ∀ d ∈ outcome.toOption.getD none, g'.Left d) g := by
  unfold react
  split
  · refine .after_idle (idle_delete _) fun _ => ?_
    simp [Except.toOption]
  · refine .after_idle (Orders.idle_stopInstances _ _) fun outcome => ?_
    cases outcome <;> simp [Except.mapError, Except.map, Except.toOption]
  · exact obeys_stageAndStart false (started_of_classify hreaction (.inl rfl) ‹_›) (hwrote _ ‹_›)
  · refine .after_idle (idle_scale _) fun outcome => ?_
    cases outcome <;> simp [Except.map, Except.toOption]
  · exact obeys_stageAndStart true (started_of_classify hreaction (.inr rfl) ‹_›) (hwrote _ ‹_›)
  · refine .after_idle (Orders.idle_updateAutoscaling _) fun _ => ?_
    simp [Except.toOption]
  · simp [Except.toOption]

theorem obeys_pushRoutes {a : Application} (ha : a ∈ g.stored) : (pushRoutes a).Obeys
    (c.conduct config) (fun _ g' => Orders.routing a ∈ g'.told) g := by
  refine (Orders.obeys_updateRoutes ha).bind ?_
  rintro answer g' rfl
  have htold : Orders.routing a ∈ g.told ++ [Orders.routing a] := List.mem_concat_self
  cases answer with
  | error e => exact htold
  | ok u =>
    rw [obeys_bind]
    refine obeys_storing (.inr (.routesPushed a.id)) (fun hm => ?_) (fun _ => htold) htold
      fun _ _ _ _ _ _ _ => htold
    exact absurd hm (IsVerdict.not_of_keeps_pending fun a b ha hb => by cases hb; exact ha)

/-- Routes that are pending on a change have been told once it has been dispatched. -/
def Tells (diff : Diff) (g : Doings) : Prop :=
  ∀ a, diff.after = some a → a.routesPending → Orders.routing a ∈ g.told

/-- What a dispatch leaves to be dispatched next calls for no reaction. -/
theorem obeys_dispatch {diff : Diff} (hstored : ∀ a, diff.after = some a → a ∈ g.stored)
    (hwrote : ∀ reaction a, diff.classify = some reaction → diff.after = some a → c.Wrote g a) :
    (dispatch config.staging diff).Obeys (c.conduct config)
      (fun next g' => (∀ d ∈ next, g'.Left d) ∧ Tells diff g') g := by
  have hpush (after : Application) (next : Option Diff) (g' : Doings) (hext : g.Extends g')
      (hafter : diff.after = some after) (hnext : ∀ d ∈ next, g'.Left d) :
      (do
        if after.routesPending then pushRoutes after
        return next : Activity (Option Diff)).Obeys (c.conduct config)
          (fun next g' => (∀ d ∈ next, g'.Left d) ∧ Tells diff g') g' := by
    split
    · have hpushed : (pushRoutes after).Obeys (c.conduct config) _ g' :=
        obeys_pushRoutes (hext.stored.subset (hstored after hafter))
      refine hpushed.extends.bind fun _ g'' ⟨htold, hext'⟩ =>
        ⟨fun d hd => (hnext d hd).extends hext', ?_⟩
      intro a ha _
      cases hafter.symm.trans ha
      exact htold
    · rename_i hpending
      refine ⟨hnext, fun a ha hp => ?_⟩
      cases hafter.symm.trans ha
      exact absurd hp hpending
  unfold dispatch
  cases hclass : diff.classify with
  | none =>
    cases hafter : diff.after with
    | none => exact ⟨fun d hd => absurd hd (Option.not_mem_none d), fun a ha => by simp [hafter] at ha⟩
    | some after => exact hpush after none g (.refl g) hafter (by simp)
  | some reaction =>
    have hreact : (react config.staging reaction diff).Obeys (c.conduct config) _ g :=
      obeys_react hclass fun a ha => hwrote reaction a hclass ha
    cases hafter : diff.after with
    | none =>
      exact hreact.bind fun outcome g' hleft => ⟨hleft, fun a ha => by simp [hafter] at ha⟩
    | some after =>
      exact hreact.extends.bind fun outcome g' hpost => hpush after _ g' hpost.2 hafter hpost.1

/-- Whatever follows up a change that calls for no reaction is in order. -/
theorem obeys_follow (fuel : Nat) {next : Option Diff} (h : ∀ d ∈ next, g.Left d) :
    (follow config.staging fuel next).Obeys (c.conduct config) (fun _ _ => True) g := by
  induction fuel generalizing next g with
  | zero => cases next <;> trivial
  | succ fuel ih =>
    cases next with
    | none => trivial
    | some diff =>
      have hdiff := h diff rfl
      refine (obeys_dispatch hdiff.stored fun reaction a hr => ?_).bind fun next g' hnext =>
        ih hnext.1
      rw [hdiff.reaction] at hr
      cases hr

theorem obeys_observe {diff : Diff} (hwrote : ∀ a, diff.after = some a → c.Wrote g a) :
    (observe config.staging diff).Obeys (c.conduct config)
      (fun _ g' => g.Extends g' ∧ Tells diff g') g := by
  have hstored (a : Application) (ha : diff.after = some a) : a ∈ g.stored := by
    simp [(hwrote a ha).stored]
  have hdispatch : (dispatch config.staging diff).Obeys (c.conduct config) _ g :=
    obeys_dispatch hstored fun _ a _ ha => hwrote a ha
  refine hdispatch.extends.bind fun next g' ⟨⟨hleft, htells⟩, hext⟩ => ?_
  refine (obeys_follow 2 hleft).extends.bind fun _ g'' ⟨_, hext'⟩ => ?_
  exact ⟨hext.trans hext', fun a ha hp => hext'.told.subset (htells a ha hp)⟩

end Dispatch

end AppFleet
