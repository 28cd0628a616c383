import AppFleet.Proofs.Application.Unstaged
import AppFleet.Proofs.Fleet.Changes

/-! What a create or an update makes of the stored applications while nothing else goes on, and the
stager stages all it is asked about. Only a start and a rollout stage; an application that comes to need
staging by a scale is left unstaged until a later change starts it or rolls it out. -/

namespace AppFleet

def Staging.staged : Replies → Bool
  | .ok (reply :: _) =>
    match StageReply.codec.read reply with
    | .ok (.staged _) => true
    | _ => false
  | _ => false

/-- The stored applications themselves, which one activity alone changes. -/
def Monitor.alone (ends : Table Application → Prop) : Monitor (Table Application) where
  allows _ _ := True
  after t action answer t' := ∃ w : World, w.store.apps = t ∧ answer = (w.perform action).1 ∧
    t' = (w.perform action).2.store.apps
  asked t _ := t
  answers replies := Staging.staged replies
  surveys _ _ := True
  ends

/-- One application has become as `Q` says, and the others are as they were. -/
structure Table.Becomes (t : Table Application) (app : AppId) (Q : Application → Prop)
    (t' : Table Application) : Prop where
  self : Is Q (t'.get? app)
  others : ∀ id, id ≠ app → t'.get? id = t.get? id

/-- An application waits to be staged if it did before, unless staging was tried and the result could be
recorded. -/
def Application.Waits (before : Application) (tried : Bool) (after : Application) : Prop :=
  after.isUnstaged ↔ before.isUnstaged ∧ ¬ (tried ∧ before.scaling.passes)

/-- An update of a started application to another number of instances leaves it unstaged if it needs
staging then; so does the creation of one with bounds on which no staging result can be recorded. -/
def Call.Leaves (app : AppId) (t : Table Application) : Call → Prop
  | .create a => a.id = app ∧ t.get? app = none ∧ a.isUnstaged ∧ ¬ a.scaling.passes
  | .update id u => id = app ∧ ∃ before after, t.get? app = some before ∧
      before.apply u = .ok after ∧ after.isUnstaged ∧
      (Diff.updated before after).classify = some .scale
  | _ => False

/-- Calls that change an application so that it is started, stopped, scaled or rolled out. -/
def Call.Touches (app : AppId) (t : Table Application) : Call → Prop
  | .create a => a.id = app ∧ t.get? app = none ∧ (Diff.created a).reschedules
  | .update id u => id = app ∧ ∃ before after, t.get? app = some before ∧
      before.apply u = .ok after ∧ (Diff.updated before after).reschedules
  | _ => False

def Call.Outcome (c : Call) (t t' : Table Application) : Prop :=
  ∀ app, Is (·.isUnstaged) (t'.get? app) ↔
    c.Leaves app t ∨ Is (·.isUnstaged) (t.get? app) ∧ ¬ c.Touches app t

variable {ends : Table Application → Prop} {config : StagingConfig} {t t' : Table Application}
  {a : Application} {diff : Diff}

instance : (Monitor.alone ends).Overlooks where
  allows _ _ := trivial
  after {action} h {t answer t'} := by
    rintro ⟨w, rfl, -, rfl⟩
    exact w.perform_quiet h.quiet

theorem Table.Becomes.refl {app : AppId} {Q : Application → Prop} (h : Is Q (t.get? app)) :
    t.Becomes app Q t := ⟨h, fun _ _ => rfl⟩

theorem Table.Becomes.trans {app : AppId} {Q R : Application → Prop} {t'' : Table Application}
    (h : t.Becomes app Q t') (h' : t'.Becomes app R t'') : t.Becomes app R t'' :=
  ⟨h'.self, fun id hid => (h'.others id hid).trans (h.others id hid)⟩

namespace Activity

theorem alone_changeApp {app : AppId} {change : Application → Except Fault Application}
    {post : Except Rejection (Option Diff) → Table Application → Prop}
    (hmissing : t.get? app = none → post (.ok none) t)
    (hrejected : ∀ before r, t.get? app = some before → change before = .error (.rejected r) →
      post (.error r) t)
    (hmade : ∀ before made after t', t.get? app = some before → change before = .ok made →
      after = { made with updatedAt := after.updatedAt } → t.Becomes app (· = after) t' →
      post (.ok (some (.updated before after))) t') :
    (changeApp app change).Obeys (.alone ends) post t := by
  refine obeys_changeApp.2 ⟨trivial, ?_⟩
  rintro answer t' ⟨w, rfl, hanswer, rfl⟩
  simp only [World.perform] at hanswer ⊢
  rcases w.store.changeApp_cases w.wallClock app change with ⟨before, e, hb, hr, heq⟩ | ⟨hb, heq⟩ |
    ⟨before, made, after, hb, hm, hstamp, hchanged, hself, hothers⟩
  · rw [heq] at hanswer ⊢
    cases answer with
    | ok recorded => cases hanswer
    | error r =>
      cases hanswer
      exact hrejected before r hb hr
  · rw [heq] at hanswer ⊢
    cases answer with
    | ok recorded =>
      cases hanswer
      exact hmissing hb
    | error r => cases hanswer
  · rw [hchanged] at hanswer
    cases answer with
    | ok recorded =>
      cases hanswer
      exact hmade before made after _ hb hm hstamp ⟨⟨after, hself, rfl⟩, hothers⟩
    | error r => cases hanswer

theorem alone_publish (subject : String) (payload : Json) :
    (publish subject payload).Obeys (.alone ends) (fun _ t' => t' = t) t := by
  refine obeys_perform.2 ⟨trivial, ?_⟩
  rintro answer t' ⟨w, rfl, -, rfl⟩
  rfl

end Activity

namespace Staging

open Activity

theorem verdict_of_staged (config : StagingConfig) {replies : Replies} (h : staged replies) :
    ∃ payloads result, replies = .ok payloads ∧ verdict config payloads = .ok result := by
  unfold staged at h
  split at h
  · split at h
    · rename_i reply rest result hread
      exact ⟨_, result, rfl, by simp [verdict, hread]⟩
    · cases h
  · cases h

theorem alone_stage (a : Application) : (stage config a).Obeys (.alone ends)
    (fun answer t' => t' = t ∧ ∃ result, answer = .ok result) t := by
  unfold stage
  rw [obeys_bind, obeys_ask]
  intro replies hstaged
  obtain ⟨payloads, result, rfl, hverdict⟩ := verdict_of_staged config hstaged
  exact ⟨rfl, result, hverdict⟩

/-- What is staged at once is not tried again. -/
theorem alone_stageWithRetry (a : Application) : (stageWithRetry config a).Obeys (.alone ends)
    (fun answer t' => t' = t ∧ ∃ result, answer = .ok result) t := by
  unfold stageWithRetry
  split
  · cases UInt32.toNat _ - 1 with
    | zero => exact alone_stage a
    | succ left =>
      refine (alone_stage a).bind ?_
      rintro answer t' ⟨rfl, result, rfl⟩
      exact ⟨rfl, result, rfl⟩
  · trivial

/-- The result is recorded unless the bounds are out of order. -/
theorem alone_recordStaged (ha : t.get? a.id = some a) (hwaits : a.isUnstaged)
    (result : StagingResult) : (recordStaged a.id result).Obeys (.alone ends)
      (fun _ => t.Becomes a.id (a.Waits true)) t := by
  have hmark := Application.markStaged_rejected_iff hwaits result
  unfold recordStaged
  rw [obeys_bind]
  refine alone_changeApp (fun hnone => ?_) (fun before r hbefore hr => ?_)
    fun before made after t' hbefore hmade hstamp hbecomes => ?_
  · rw [hnone] at ha
    cases ha
  · cases ha.symm.trans hbefore
    have hfails := hmark.1 ⟨r, hr⟩
    exact .refl ⟨a, ha, by simp [Application.Waits, hfails]⟩
  · cases ha.symm.trans hbefore
    have hpasses : a.scaling.passes := by
      by_contra hfails
      obtain ⟨r, hr⟩ := hmark.2 hfails
      cases hmade.symm.trans hr
    have hmarked : ¬ made.isUnstaged := Application.markStaged_staged hmade
    have hstaged : ¬ after.isUnstaged := by
      rw [hstamp]
      exact hmarked
    obtain ⟨b, hb, rfl⟩ := hbecomes.self
    exact ⟨⟨b, hb, by simp [Application.Waits, hstaged, hpasses]⟩, hbecomes.others⟩

/-- What waits to be staged is staged, and what is not staged keeps waiting. -/
theorem alone_stageIfNeeded {start : UInt32 → Application → Activity β} (ha : t.get? a.id = some a)
    (hstart : ∀ started b t', (start started b).Obeys (.alone ends) (fun _ t'' => t'' = t') t') :
    (stageIfNeeded config a start).Obeys (.alone ends) (fun outcome t' =>
      (∀ error recorded, outcome = .ok (.failed error recorded) → recorded = none) ∧
      t.Becomes a.id (a.Waits true) t') t := by
  have hkeeps (h : ¬ a.isUnstaged) : t.Becomes a.id (a.Waits true) t :=
    .refl ⟨a, ha, by simp [Application.Waits, h]⟩
  unfold stageIfNeeded
  split
  · refine (hstart 0 a t).bind ?_
    rintro outcome t' rfl
    exact ⟨by simp, hkeeps (by simp_all [Application.isUnstaged])⟩
  · split
    · exact ⟨by simp, hkeeps (by simp_all [Application.isUnstaged])⟩
    · have hwaits : a.isUnstaged := by simp_all [Application.isUnstaged]
      refine (alone_stageWithRetry a).bind ?_
      rintro answer t' ⟨rfl, result, rfl⟩
      -- nobody else was at the store while the stager was asked, so the result is for what was staged
      refine (alone_recordStaged ha hwaits result).bind fun outcome t'' hbecomes => ?_
      cases outcome with
      | error e => exact ⟨by simp, hbecomes⟩
      | ok staged =>
        refine (hstart result.instancesStarted staged t'').bind ?_
        rintro outcome t''' rfl
        exact ⟨by simp, hbecomes⟩

end Staging

namespace Dispatch

open Activity

theorem alone_startRemaining (a : Application) (started : UInt32) :
    (startRemaining a started).Obeys (.alone ends) (fun _ t' => t' = t) t := by
  unfold startRemaining
  split
  · exact alone_publish _ _
  · split
    · rfl
    · exact alone_publish _ _

theorem alone_stageAndStart (announce : Bool) (ha : t.get? a.id = some a) :
    (stageAndStart config a announce).Obeys (.alone ends) (fun outcome t' =>
      outcome.toOption.getD none = none ∧ t.Becomes a.id (a.Waits true) t') t := by
  unfold stageAndStart
  refine (Staging.alone_stageIfNeeded ha ?_).bind ?_
  · intro started b t'
    cases announce with
    | true => exact .after_idle (Orders.idle_announceVersion b) fun _ => alone_startRemaining b started
    | false => exact alone_startRemaining b started
  · rintro outcome t' ⟨hnone, hbecomes⟩
    match outcome, hnone with
    | .error e, _ => exact ⟨rfl, hbecomes⟩
    | .ok (.started (.error cause)), _ => exact ⟨rfl, hbecomes⟩
    | .ok (.started (.ok ())), _ => exact ⟨rfl, hbecomes⟩
    | .ok (.failed error recorded), hnone =>
      refine .after_idle (Orders.idle_recordEvent _ _ _) fun _ => ?_
      exact ⟨hnone error recorded rfl, hbecomes⟩

/-- Only reactions that begin with staging make anything of an application that waits for it. -/
theorem alone_react {reaction : Reaction} (hreaction : diff.classify = some reaction)
    (hafter : diff.after = some a) (ha : t.get? a.id = some a) :
    (react config reaction diff).Obeys (.alone ends) (fun outcome t' =>
      outcome.toOption.getD none = none ∧ t.Becomes a.id (a.Waits diff.stages) t') t := by
  have hkeeps (h : ¬ diff.stages) : t.Becomes a.id (a.Waits diff.stages) t :=
    .refl ⟨a, ha, by simp [Application.Waits, h]⟩
  unfold react
  split
  · simp_all
  · have hstages : ¬ diff.stages := by simp [Diff.stages, hreaction]
    refine .after_idle (Orders.idle_stopInstances _ _) fun outcome => ?_
    cases outcome <;> exact ⟨rfl, hkeeps hstages⟩
  · have hstages : diff.stages := by simp [Diff.stages, hreaction]
    rename_i after hsame
    cases hafter.symm.trans hsame
    rw [hstages]
    exact alone_stageAndStart false ha
  · have hstages : ¬ diff.stages := by simp [Diff.stages, hreaction]
    refine .after_idle (idle_scale _) fun outcome => ?_
    cases outcome <;> exact ⟨rfl, hkeeps hstages⟩
  · have hstages : diff.stages := by simp [Diff.stages, hreaction]
    rename_i after hsame
    cases hafter.symm.trans hsame
    rw [hstages]
    exact alone_stageAndStart true ha
  · have hstages : ¬ diff.stages := by simp [Diff.stages, hreaction]
    refine .after_idle (Orders.idle_updateAutoscaling _) fun _ => ?_
    exact ⟨rfl, hkeeps hstages⟩
  · have hstages : ¬ diff.stages := by simp_all [Diff.stages]
    exact ⟨rfl, hkeeps hstages⟩

/-- That the router knows the routes says nothing about staging. -/
theorem alone_pushRoutes {Q : Application → Prop}
    (hQ : ∀ b updatedAt, Q b → Q { b.routesPushed with updatedAt }) (h : Is Q (t.get? a.id)) :
    (pushRoutes a).Obeys (.alone ends) (fun _ => t.Becomes a.id Q) t := by
  refine (alone_publish _ _).bind ?_
  rintro answer t rfl
  cases answer with
  | error e => exact .refl h
  | ok u =>
    rw [obeys_bind]
    refine alone_changeApp (fun _ => .refl h) (fun _ _ _ _ => .refl h)
      fun before made after t' hbefore hmade hstamp hbecomes => ?_
    obtain ⟨b, hb, hQb⟩ := h
    cases hb.symm.trans hbefore
    cases hmade
    obtain ⟨b', hb', rfl⟩ := hbecomes.self
    refine ⟨⟨b', hb', ?_⟩, hbecomes.others⟩
    rw [hstamp]
    exact hQ before _ hQb

theorem alone_dispatch (hafter : diff.after = some a) (ha : t.get? a.id = some a) :
    (dispatch config diff).Obeys (.alone ends)
      (fun next t' => next = none ∧ t.Becomes a.id (a.Waits diff.stages) t') t := by
  have hpush (t' : Table Application) (hbecomes : t.Becomes a.id (a.Waits diff.stages) t') :
      (do
        if a.routesPending then pushRoutes a
        return none : Activity (Option Diff)).Obeys (.alone ends)
          (fun next t' => next = none ∧ t.Becomes a.id (a.Waits diff.stages) t') t' := by
    split
    · exact (alone_pushRoutes (fun _ _ h => h) hbecomes.self).bind fun _ t'' hpushed =>
        ⟨rfl, hbecomes.trans hpushed⟩
    · exact ⟨rfl, hbecomes⟩
  unfold dispatch
  simp only [hafter]
  cases hclass : diff.classify with
  | none =>
    have hstages : ¬ diff.stages := by simp [Diff.stages, hclass]
    exact hpush t (.refl ⟨a, ha, by simp [Application.Waits, hstages]⟩)
  | some reaction =>
    refine (alone_react hclass hafter ha).bind ?_
    rintro outcome t' ⟨hnone, hbecomes⟩
    rw [hnone]
    exact hpush t' hbecomes

theorem alone_observe (hafter : diff.after = some a) (ha : t.get? a.id = some a) :
    (observe config diff).Obeys (.alone ends) (fun _ => t.Becomes a.id (a.Waits diff.stages)) t := by
  refine (alone_dispatch hafter ha).bind ?_
  rintro next t' ⟨rfl, hbecomes⟩
  exact hbecomes

end Dispatch

theorem Call.Outcome.refl {c : Call} (hleaves : ∀ app, ¬ c.Leaves app t)
    (htouches : ∀ app, ¬ c.Touches app t) : c.Outcome t t := by
  intro app
  simp [hleaves app, htouches app]

namespace ControlPlane

open Activity

theorem alone_create {config : Config} (a : Application) :
    (create config a).Obeys (.alone ends) (fun _ => (Call.create a).Outcome t) t := by
  have hfind : (findApp a.id).Obeys (.alone ends) (fun found t' => found = t.get? a.id ∧ t' = t) t := by
    refine obeys_perform.2 ⟨trivial, ?_⟩
    rintro found t' ⟨w, rfl, rfl, rfl⟩
    exact ⟨rfl, rfl⟩
  refine hfind.bind ?_
  rintro found t' ⟨hfound, rfl⟩
  cases found with
  | some b =>
    have hthere (app : AppId) : ¬ (a.id = app ∧ t'.get? app = none) := by
      rintro ⟨rfl, hnone⟩
      cases hfound.trans hnone
    exact Call.Outcome.refl (fun app h => hthere app ⟨h.1, h.2.1⟩) fun app h => hthere app ⟨h.1, h.2.1⟩
  | none =>
    have hput : (perform (.putApp a)).Obeys (.alone ends) (fun _ t'' => t'' = t'.put a.id a) t' := by
      refine obeys_perform.2 ⟨trivial, ?_⟩
      rintro answer t'' ⟨w, rfl, -, rfl⟩
      rfl
    refine hput.bind ?_
    rintro answer t'' rfl
    have hobserve : (Dispatch.observe config.staging (.created a)).Obeys (.alone ends) _
        (t'.put a.id a) := Dispatch.alone_observe rfl (Table.get?_put_self t' a.id a)
    refine hobserve.bind fun reaction t'' hbecomes app => ?_
    by_cases hid : app = a.id
    · subst hid
      obtain ⟨b, hb, hiff⟩ := hbecomes.self
      have hstarted : a.isUnstaged → a.isStarted := fun h => (Application.isUnstaged_iff.1 h).2.2.1
      rw [Application.Waits, Application.stages_created] at hiff
      rw [hb, is_some, hiff, ← hfound]
      simp only [Call.Leaves, ← hfound, is_none, false_and, or_false, true_and]
      grind
    · rw [hbecomes.others app hid, Table.get?_put_of_ne _ _ hid]
      simp [Call.Leaves, Call.Touches, Ne.symm hid]

theorem alone_update {config : Config} (ht : t.Holds fun _ => True) (app : AppId) (u : Update) :
    (update config app u).Obeys (.alone ends) (fun _ => (Call.update app u).Outcome t) t := by
  unfold update
  rw [obeys_bind]
  refine alone_changeApp (fun hnone => ?_) (fun before r hbefore hr => ?_)
    fun before made after t' hbefore hmade hstamp hbecomes => ?_
  · refine Call.Outcome.refl (fun id h => ?_) fun id h => ?_ <;> obtain ⟨rfl, b, _, hb, -⟩ := h <;>
      cases hnone.symm.trans hb
  · refine Call.Outcome.refl (fun id h => ?_) fun id h => ?_ <;>
      obtain ⟨rfl, b, _, hb, hok, -⟩ := h <;> cases hbefore.symm.trans hb <;> cases hr.symm.trans hok
  · have hid : after.id = app := by
      rw [hstamp]
      exact (Application.apply_id hmade).trans (ht app before hbefore).1
    subst hid
    obtain ⟨b, hb, rfl⟩ := hbecomes.self
    refine (Dispatch.alone_observe (a := b) rfl hb).bind fun reaction t'' hobserved id => ?_
    by_cases hid : id = b.id
    · subst hid
      obtain ⟨final, hfinal, hiff⟩ := hobserved.self
      have hpasses : made.scaling.passes := Application.apply_passes hmade
      have hmade' : made.Waits (Diff.updated before made).stages final := by
        rw [hstamp] at hiff
        exact hiff
      have hwaits : final.isUnstaged ↔ made.isUnstaged ∧ ¬ (Diff.updated before made).stages := by
        simpa [Application.Waits, hpasses] using hmade'
      rw [hfinal, hbefore, is_some, is_some, hwaits, Application.apply_waits hmade]
      simp [Call.Leaves, Call.Touches, hbefore, hmade]
    · rw [hobserved.others id hid, hbecomes.others id hid]
      simp [Call.Leaves, Call.Touches, Ne.symm hid]

end ControlPlane

/-- What a create or an update leaves waiting to be staged, or does not touch, waits after it, and
nothing else does. -/
theorem Call.obeys_alone {c : Call} {config : Config} (hc : c.Changes) (ht : t.Holds fun _ => True) :
    (c.activity config).Obeys (.alone ends) (fun _ => c.Outcome t) t := by
  cases c with
  | create a => exact (ControlPlane.alone_create a).bind fun _ _ houtcome => houtcome
  | update app u => exact (ControlPlane.alone_update ht app u).bind fun _ _ houtcome => houtcome
  | _ => exact hc.elim

end AppFleet
