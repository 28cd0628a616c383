import AppFleet.Proofs.Dispatch.Told

/-! What updates and messages make the control plane do while nobody else writes to the store. Each reads
an application or changes it, once, so what follows is about it as it is stored; and it is scaled only by
a call that changed the number of its instances. -/

namespace AppFleet

/-- Updates and messages: calls that neither create nor delete an application. -/
def Call.tunes : Call → Bool
  | .update .. | .message _ => true
  | _ => false

def Table.Rescaled (t : Table Application) (a : Application) : Prop :=
  ∃ before, t.get? a.id = some before ∧ before.instances ≠ a.instances

/-- The step is about how one application runs, and scales none that has as many instances in the
table. -/
def Step.Tuned (config : StagingConfig) (t : Table Application) (s : Step) : Prop :=
  ∃ app, s.Proper config app t.Rescaled

variable {config : StagingConfig} {t t' : Table Application} {steps : List Step} {app : AppId}

theorem Step.Plain.tuned {s : Step} (h : s.Plain) : s.Tuned config t := ⟨"", .plain h⟩

/-- A change that is scaled is one of the instances. -/
theorem Diff.Scales.rescaled {before after a : Application} (h : (Diff.updated before after).Scales a)
    (hbefore : t.get? after.id = some before) : t.Rescaled a := by
  obtain ⟨hclass, hafter⟩ := h
  cases hafter
  refine ⟨before, hbefore, fun heq => ?_⟩
  simp only [classify, updated, instancesChanged, differs, heq] at hclass
  grind

open Activity

/-- What was changed is dispatched as it is stored since. -/
theorem Dispatch.observe_tuned {before after : Application} {o : Option (Option Reaction)}
    (hbefore : t.get? after.id = some before) (hafter : t'.get? after.id = some after)
    (h : (observe config (.updated before after)).Ends steps o) (hu : t'.Undisturbed steps) :
    ∀ s ∈ steps, s.Tuned config t := by
  intro s hs
  have hstored (a : Application) (ha : (Diff.updated before after).after = some a) :
      t'.get? a.id = some a := by
    cases ha
    exact hafter
  exact ⟨_, (observe_proper h hstored hu s hs).mono fun a hscales => hscales.rescaled hbefore⟩

/-- A change that keeps the id is made once, and what follows begins with what it stored. -/
theorem changeApp_tuned {change : Application → Except Fault Application}
    {f : Except Rejection (Option Diff) → Activity α} {o : Option α} (ht : t.Holds fun _ => True)
    (hid : ∀ a b, change a = .ok b → b.id = a.id) (h : (changeApp app change >>= f).Ends steps o)
    (hu : t.Undisturbed steps)
    (hrejected : ∀ r, (f (.error r)).Only Step.Plain) (hmissing : (f (.ok none)).Only Step.Plain)
    (hmade : ∀ before after rest (t' : Table Application), t.get? after.id = some before →
      t'.get? after.id = some after → (f (.ok (some (.updated before after)))).Ends rest o →
      t'.Undisturbed rest → ∀ s ∈ rest, s.Tuned config t) :
    ∀ s ∈ steps, s.Tuned config t := by
  obtain ⟨w, rest, rfl, hrest⟩ := (changeApp_bind_ends f o).1 h
  obtain ⟨rfl, hu⟩ := hu
  refine List.forall_mem_cons.2 ⟨Step.Plain.tuned trivial, ?_⟩
  change (w.store.changeApp w.wallClock app change).2.apps.Undisturbed rest at hu
  simp only [World.perform] at hrest
  rcases w.store.changeApp_cases w.wallClock app change with ⟨_, e, -, -, heq⟩ | ⟨-, heq⟩ |
    ⟨before, made, after, hb, hm, hstamp, hanswer, hself, -⟩
  · rw [heq] at hrest
    cases e with
    | rejected r => exact fun s hs => (hrejected r rest o hrest s hs).tuned
    | overflow =>
      obtain ⟨-, rfl⟩ := hrest
      simp
  · rw [heq] at hrest
    exact fun s hs => (hmissing rest o hrest s hs).tuned
  · rw [hanswer] at hrest
    obtain rfl : after.id = app := by
      rw [hstamp]
      exact (hid before made hm).trans (ht app before hb).1
    exact hmade before after rest _ hb hself hrest hu

/-- What is found is what is stored. -/
theorem findApp_tuned {f : Option Application → Activity α} {o : Option α}
    (h : (findApp app >>= f).Ends steps o) (hu : t.Undisturbed steps)
    (hf : ∀ rest, (f (t.get? app)).Ends rest o → t.Undisturbed rest → ∀ s ∈ rest, s.Tuned config t) :
    ∀ s ∈ steps, s.Tuned config t := by
  obtain ⟨w, rest, rfl, hrest⟩ := (perform_bind_ends (.findApp app) f o).1 h
  obtain ⟨rfl, hu⟩ := hu
  exact List.forall_mem_cons.2 ⟨Step.Plain.tuned trivial, hf rest hrest hu⟩

theorem ControlPlane.update_tuned {config : Config} {u : Update}
    {o : Option (Except PlaneError Application)} (ht : t.Holds fun _ => True)
    (h : (update config app u).Ends steps o) (hu : t.Undisturbed steps) :
    ∀ s ∈ steps, s.Tuned config.staging t := by
  refine changeApp_tuned ht (fun a b => Application.apply_id) h hu (fun r => only_pure _)
    (only_pure _) ?_
  intro before after rest t' hbefore hafter hrest hu
  obtain ⟨reaction, hends, -⟩ := (ends_bind_pure _ _ _).1 hrest
  exact Dispatch.observe_tuned hbefore hafter hends hu

namespace Respondent

theorem adjusted_id {counts : AdjustInstances} {a b : Application} (h : adjusted counts a = .ok b) :
    b.id = a.id := by
  unfold adjusted at h
  split at h
  · cases h
    rfl
  · exact Application.apply_id h

theorem adjust_tuned {counts : AdjustInstances} {o : Option (Except ReactionError AdjustOutcome)}
    (ht : t.Holds fun _ => True) (h : (adjust config app counts).Ends steps o)
    (hu : t.Undisturbed steps) : ∀ s ∈ steps, s.Tuned config t := by
  refine changeApp_tuned ht (fun a b => adjusted_id) h hu (fun r => only_pure _) (only_pure _) ?_
  intro before after rest t' hbefore hafter hrest hu
  dsimp only at hrest
  split at hrest
  · split at hrest
    · rename_i after' heq _
      cases heq
      split at hrest
      · obtain ⟨reaction, hends, -⟩ := (ends_bind_pure _ _ _).1 hrest
        exact Dispatch.observe_tuned hbefore hafter hends hu
      · exact only_pure _ _ _ hrest
    · exact only_pure _ _ _ hrest
  · exact only_pure _ _ _ hrest

theorem forward_ends {order : Activity (Except BusError Unit)}
    {o : Option (Except ReactionError CommandOutcome)} (h : (forward order).Ends steps o) :
    ∃ answer, order.Ends steps answer := by
  rcases (ends_bind _ _ _).1 h with ⟨-, hpanics⟩ | ⟨own, none, answer, rfl, hown, hrest⟩
  · exact ⟨none, hpanics⟩
  · cases answer <;> (obtain ⟨rfl, -⟩ := (ends_pure _ _).1 hrest; exact ⟨some _, by simpa using hown⟩)

/-- Instances are not started of an application that has failed. -/
theorem start_tuned {request : StartInstances} {o : Option (Except ReactionError CommandOutcome)}
    (ht : t.Holds fun _ => True) (h : (start request).Ends steps o) (hu : t.Undisturbed steps) :
    ∀ s ∈ steps, s.Tuned config t := by
  refine findApp_tuned h hu fun rest hrest hu => ?_
  cases ha : t.get? request.droplet with
  | none =>
    rw [ha] at hrest
    exact only_pure _ _ _ hrest
  | some a =>
    rw [ha] at hrest
    dsimp only at hrest
    split at hrest
    · rename_i hneeds
      obtain ⟨hs, hfailed⟩ : a.isStarted ∧ ¬ a.stagingFailed := by
        simp only [needsInstances, Bool.and_eq_true, Bool.not_eq_true'] at hneeds
        simp [hneeds]
      obtain ⟨answer, hends⟩ := forward_ends hrest
      obtain ⟨w, rfl⟩ := ends_publish hends
      obtain rfl := hu.1
      exact List.forall_mem_singleton.2
        ⟨_, .start ⟨ha, (ht _ a ha).1⟩ hs fun h => absurd h hfailed⟩
    · exact only_pure _ _ _ hrest

theorem only_forward {P : Step → Prop} {order : Activity (Except BusError Unit)} (h : order.Only P) :
    (forward order).Only P := by
  refine h.bind fun answer => ?_
  cases answer <;> exact only_pure _

theorem stop_tuned (request : StopInstances) : (stop request).Only (Step.Tuned config t) := by
  have hstop : (Orders.stopInstances request.droplet (request.instances.map (·.1))).Only
      (Step.Tuned config t) := Orders.only_stopInstances _ _ fun _ _ => ⟨"", .stop⟩
  have hplain {x : Activity Unit} (h : x.Only Step.Plain) : x.Only (Step.Tuned config t) :=
    h.mono fun _ => Step.Plain.tuned
  have hfind : (findApp request.droplet).Only (Step.Tuned config t) :=
    only_perform fun _ => Step.Plain.tuned trivial
  refine hfind.bind fun found => ?_
  cases found with
  | none => exact only_forward hstop
  | some a =>
    dsimp only
    split
    · exact (hplain (Orders.plain_recordEvent _ _ _)).bind fun _ => only_pure _
    · exact only_forward hstop

theorem plain_queryAutoscaling (app : AppId) : (queryAutoscaling app).Only Step.Plain := by
  have hfind : (findApp app).Only Step.Plain := only_perform fun _ => trivial
  refine hfind.bind fun found => ?_
  cases found with
  | none => exact only_pure _
  | some a => exact Orders.plain_updateAutoscaling a

theorem handle_tuned {subject : String} {payload : Json} {o : Option Unit} (ht : t.Holds fun _ => True)
    (h : (handle config subject payload).Ends steps o) (hu : t.Undisturbed steps) :
    ∀ s ∈ steps, s.Tuned config t := by
  unfold handle at h
  split at h
  · rename_i command _
    cases command with
    | start request =>
      obtain ⟨outcome, hends, -⟩ := (ends_bind_pure _ _ _).1 h
      exact start_tuned ht hends hu
    | stop request => exact ((stop_tuned request).bind fun _ => only_pure _) _ _ h
    | adjust app counts =>
      obtain ⟨outcome, hends, -⟩ := (ends_bind_pure _ _ _).1 h
      exact adjust_tuned ht hends hu
    | queryAutoscaling app => exact fun s hs => (plain_queryAutoscaling app _ _ h s hs).tuned
  · split at h
    · exact fun s hs => (Orders.plain_recordEvent _ _ _ _ _ h s hs).tuned
    · exact only_pure _ _ _ h

end Respondent

theorem Ledger.plain_handleHeartbeat (payload : Json) : (handleHeartbeat payload).Only Step.Plain := by
  unfold handleHeartbeat
  split
  · exact only_perform fun _ => trivial
  · exact only_pure _

theorem Node.plain_handleStatus (payload : Json) : (handleStatus payload).Only Step.Plain := by
  unfold handleStatus
  split
  · exact only_perform fun _ => trivial
  · exact only_pure _

namespace ScalePolicy

theorem scaleUp_tuned {p : ScalePolicy} {cpu : Float} {o : Option (Except ScaleError Decision)}
    (ht : t.Holds fun _ => True) (h : (p.scaleUp app cpu).Ends steps o)
    (hu : t.Undisturbed steps) : ∀ s ∈ steps, s.Tuned p.staging t := by
  refine findApp_tuned h hu fun rest hrest hu => ?_
  cases ha : t.get? app with
  | none =>
    rw [ha] at hrest
    exact only_pure _ _ _ hrest
  | some a =>
    rw [ha] at hrest
    dsimp only at hrest
    simp only [evaluate, bind_assoc, pure_bind] at hrest
    obtain ⟨w, _, rfl, hlooks⟩ := (perform_bind_ends _ _ o).1 hrest
    obtain ⟨w', later, rfl, hlater⟩ := (perform_bind_ends _ _ o).1 hlooks
    obtain ⟨rfl, hfound, hu⟩ := hu
    change w'.store.apps = w.store.apps at hfound
    change w'.store.apps.Undisturbed later at hu
    rw [hfound] at hu
    refine List.forall_mem_cons.2 ⟨Step.Plain.tuned trivial, ?_⟩
    refine List.forall_mem_cons.2 ⟨Step.Plain.tuned trivial, ?_⟩
    split at hlater
    · exact only_pure _ _ _ hlater
    · refine changeApp_tuned ht (fun a b => Application.apply_id) hlater hu (fun r => only_pure _)
        (only_pure _) ?_
      intro before after rest t' hbefore hafter hrest hu
      obtain ⟨w, rest, rfl, hobserves⟩ := (perform_bind_ends _ _ o).1 hrest
      obtain ⟨rfl, hu⟩ := hu
      obtain ⟨reaction, hends, -⟩ := (ends_bind_pure _ _ _).1 hobserves
      exact List.forall_mem_cons.2
        ⟨Step.Plain.tuned trivial, Dispatch.observe_tuned hbefore hafter hends hu⟩

theorem handleSignal_tuned {config : Config} {payload : Json} {o : Option (Option Decision)}
    (ht : t.Holds fun _ => True)
    (h : (handleSignal (ControlPlane.policy config) payload).Ends steps o)
    (hu : t.Undisturbed steps) : ∀ s ∈ steps, s.Tuned config.staging t := by
  unfold handleSignal at h
  split at h
  · rename_i p signal hp _
    obtain ⟨outcome, hends, -⟩ := (ends_bind_pure _ _ _).1 h
    rw [← policy_staging hp]
    exact scaleUp_tuned ht hends hu
  · exact only_pure _ _ _ h

end ScalePolicy

namespace ControlPlane

theorem handler_tuned {config : Config} {e : Envelope} {handle : Envelope → Activity Unit} {o : Option Unit}
    (hlookup : (handlers config).lookup e.subject = some handle) (ht : t.Holds fun _ => True)
    (h : (handle e).Ends steps o) (hu : t.Undisturbed steps) : ∀ s ∈ steps, s.Tuned config.staging t := by
  rcases handler_cases hlookup with rfl | rfl | rfl | rfl
  · exact fun s hs => (Ledger.plain_handleHeartbeat _ _ _ h s hs).tuned
  · exact fun s hs => (Node.plain_handleStatus _ _ _ h s hs).tuned
  · exact Respondent.handle_tuned ht h hu
  · obtain ⟨decision, hends, -⟩ := (ends_bind_pure _ _ _).1 h
    exact ScalePolicy.handleSignal_tuned ht hends hu

end ControlPlane

/-- While nobody else writes to the store, an update or a message starts and stages what is stored,
as it is stored, and scales it only when its instances are other than they were. -/
theorem Call.tuned {config : Config} {c : Call} {o : Option Unit} (hc : c.tunes) (ht : t.Holds fun _ => True)
    (h : (c.activity config).Ends steps o) (hu : t.Undisturbed steps) :
    ∀ s ∈ steps, s.Tuned config.staging t := by
  cases c with
  | update app update =>
    obtain ⟨outcome, hends, -⟩ := (ends_bind_pure _ _ _).1 h
    exact ControlPlane.update_tuned ht hends hu
  | message e =>
    simp only [activity] at h
    split at h
    · exact ControlPlane.handler_tuned ‹_› ht h hu
    · exact only_pure _ _ _ h
  | _ => cases hc

end AppFleet
