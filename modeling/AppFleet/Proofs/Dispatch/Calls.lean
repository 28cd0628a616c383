import AppFleet.Proofs.Dispatch.Conduct

/-! Every call of the control plane keeps to its conduct: the calls of its own, the commands and the
signals that it listens to, and what it does from time to time. -/

namespace AppFleet

open Activity

variable {config : Config} {c : Call} {g : Doings}

theorem Dispatch.obeys_observe_wrote {diff : Diff} {a : Application} (h : diff.after = some a)
    (ha : c.Wrote g a) :
    (observe config.staging diff).Obeys (c.conduct config) (fun _ => c.Routed) g := by
  have hwrote (b : Application) (hb : diff.after = some b) : c.Wrote g b := by
    cases h.symm.trans hb
    exact ha
  refine (obeys_observe hwrote).mono fun _ g' ⟨hext, htells⟩ _ b hb hp => ?_
  have hfirst : g'.stored.head? = some a := hext.head? (by simp [ha.stored])
  cases hfirst.symm.trans hb
  exact htells a h hp

/-- A change that leaves pending packages pending is no verdict, so it can be a call's own write. -/
theorem obeys_write {app : AppId} {change : Application → Except Fault Application}
    {f : Except Rejection (Option Diff) → Activity α} {post : α → Doings → Prop}
    (hw : c.Writes (.changeApp app change))
    (hkeeps : ∀ a b : Application, a.package = .pending → change a = .ok b → b.package = .pending)
    (hrejected : ∀ r, (f (.error r)).Obeys (c.conduct config) post .none)
    (hmissing : (f (.ok none)).Obeys (c.conduct config) post .none)
    (hmade : ∀ before made after : Application, change before = .ok made →
      after = { made with updatedAt := after.updatedAt } →
      (f (.ok (some (.updated before after)))).Obeys (c.conduct config) post (.wrote after)) :
    (changeApp app change >>= f).Obeys (c.conduct config) post .none := by
  rw [obeys_bind]
  refine obeys_storing (.inl ⟨rfl, hw⟩) (fun hm => ?_) hrejected hmissing ?_
  · exact absurd hm (IsVerdict.not_of_keeps_pending hkeeps)
  · exact fun before made after _ _ hchange heq => hmade before made after hchange heq

theorem Call.wrote_message (e : Envelope) (a : Application) :
    (Call.message e).Wrote (.wrote a) a :=
  ⟨rfl, fun _ => not_false, not_false⟩

/-- A call that wrote nothing keeps no routes from the router. -/
theorem Call.routed_none (c : Call) : c.Routed .none := by
  intro _ a ha
  cases ha

namespace Respondent

theorem adjusted_pending {counts : AdjustInstances} {a b : Application} (ha : a.package = .pending)
    (h : adjusted counts a = .ok b) : b.package = .pending := by
  unfold adjusted at h
  split at h
  · cases h
    exact ha
  · exact Application.apply_pending ha h

theorem idle_forward {order : Activity (Except BusError Unit)} (h : order.Idle) :
    (forward order).Idle := by
  refine h.bind fun answer => ?_
  cases answer <;> exact Idle.pure _

theorem idle_stop (request : StopInstances) : (stop request).Idle := by
  refine (idle_findApp _).bind fun found => ?_
  cases found with
  | none => exact idle_forward (Orders.idle_stopInstances _ _)
  | some a =>
    simp only
    split
    · exact (Orders.idle_recordEvent _ _ _).bind fun _ => Idle.pure _
    · exact idle_forward (Orders.idle_stopInstances _ _)

theorem obeys_start {request : StartInstances} (hc : c.RelaysStarts) :
    (start request).Obeys (c.conduct config) (fun _ _ => True) g := by
  refine .after_idle (idle_findApp _) fun found => ?_
  cases found with
  | none => trivial
  | some a =>
    simp only
    split
    · unfold forward
      rw [obeys_bind]
      refine obeys_publish_start (.inl hc) fun answer => ?_
      cases answer <;> trivial
    · trivial

theorem obeys_adjust {e : Envelope} (app : AppId) (counts : AdjustInstances) :
    (adjust config.staging app counts).Obeys (Call.conduct config (.message e)) (fun _ _ => True)
      .none := by
  refine obeys_write (.adjust e app counts) (fun a b => adjusted_pending) (fun _ => trivial) trivial ?_
  intro before made after hchange heq
  dsimp only
  split
  · rename_i after' hafter
    cases hafter
    split
    · split
      · exact (Dispatch.obeys_observe_wrote rfl (Call.wrote_message e after)).bind
          fun _ _ _ => trivial
      · trivial
    · trivial
  · trivial

/-- Commands to start instances come on one subject only. -/
theorem decode_start {subject : String} {payload : Json} {request : StartInstances}
    (h : Command.decode subject payload = .ok (.start request)) : subject = Subject.hmStart := by
  by_contra hs
  unfold Command.decode at h
  simp only [hs, if_false, bind, Except.bind, pure, Except.pure] at h
  repeat' split at h
  all_goals cases h

theorem obeys_handle {e : Envelope} :
    (handle config.staging e.subject e.payload).Obeys (Call.conduct config (.message e))
      (fun _ _ => True) .none := by
  unfold handle
  split
  · rename_i command hdecode
    cases command with
    | start request =>
      have hrelays : (Call.message e).RelaysStarts := decode_start hdecode
      exact (obeys_start hrelays).bind fun _ _ _ => trivial
    | stop request => exact .after_idle (idle_stop request) fun _ => trivial
    | adjust app counts => exact (obeys_adjust app counts).bind fun _ _ _ => trivial
    | queryAutoscaling app =>
      refine .after_idle (idle_findApp app) fun found => ?_
      cases found with
      | none => trivial
      | some a => exact ((Orders.idle_updateAutoscaling a).obeys _).mono fun _ _ _ => trivial
  · split
    · exact ((Orders.idle_recordEvent _ _ _).obeys _).mono fun _ _ _ => trivial
    · trivial

end Respondent

namespace ScalePolicy

theorem idle_evaluate (p : ScalePolicy) (a : Application) (cpu : Float) : (p.evaluate a cpu).Idle := by
  have hclock : (perform .clock).Idle := idle_perform trivial
  have hlast : (perform (.lastScaleUp p.id a.id)).Idle := idle_perform trivial
  exact hclock.bind fun now => hlast.bind fun last => Idle.pure _

theorem policy_staging {p : ScalePolicy} (h : ControlPlane.policy config = some p) :
    p.staging = config.staging := by
  unfold ControlPlane.policy at h
  split at h
  · cases h
    rfl
  · cases h

theorem obeys_scaleUp {p : ScalePolicy} (hp : p.staging = config.staging) {e : Envelope}
    (app : AppId) (cpu : Float) :
    (p.scaleUp app cpu).Obeys (Call.conduct config (.message e)) (fun _ _ => True) .none := by
  refine .after_idle (idle_findApp app) fun found => ?_
  cases found with
  | none => trivial
  | some a =>
    refine .after_idle (p.idle_evaluate a cpu) fun decision => ?_
    cases decision with
    | noChange => trivial
    | scaleTo target =>
      refine obeys_write (.scaleUp e app target) (fun a b => Application.apply_pending)
        (fun _ => trivial) trivial ?_
      intro before made after hchange heq
      have hnote : (perform (.noteScaleUp p.id app)).Idle := idle_perform trivial
      refine .after_idle hnote fun _ => ?_
      rw [hp]
      exact (Dispatch.obeys_observe_wrote rfl (Call.wrote_message e after)).bind
        fun _ _ _ => trivial

theorem obeys_handleSignal {e : Envelope} :
    (handleSignal (ControlPlane.policy config) e.payload).Obeys (Call.conduct config (.message e))
      (fun _ _ => True) .none := by
  unfold handleSignal
  split
  · exact (obeys_scaleUp (policy_staging ‹_›) _ _).bind fun _ _ _ => trivial
  · trivial

end ScalePolicy

theorem Ledger.idle_handleHeartbeat (payload : Json) : (handleHeartbeat payload).Idle := by
  unfold handleHeartbeat
  split
  · exact idle_perform trivial
  · exact Idle.pure _

/-- A sweep asks about the records that it has listed. -/
theorem Ledger.obeys_sweep (timeoutMs : UInt64) :
    (sweep timeoutMs).Obeys (c.conduct config) (fun _ _ => True) g := by
  have hlist : (perform .liveRecords).Obeys (c.conduct config)
      (fun (records : List LedgerRecord) g' => ∀ r ∈ records, r ∈ g'.read) g := by
    refine obeys_perform.2 ⟨⟨⟨.inl trivial, nofun, by simp [Action.told]⟩, nofun, nofun⟩, ?_⟩
    rintro records g' ⟨-, rfl⟩ r hr
    exact List.mem_append_right _ hr
  exact hlist.bind fun records g' hread => ⟨hread, fun report => trivial⟩

theorem Node.idle_handleStatus (payload : Json) : (handleStatus payload).Idle := by
  unfold handleStatus
  split
  · exact idle_perform trivial
  · exact Idle.pure _

theorem Node.obeys_identify (timeoutMs : UInt64) (node : NodeId) :
    (identify timeoutMs node).Obeys (c.conduct config) (fun _ _ => True) g := by
  unfold identify
  rw [obeys_bind, obeys_ask]
  intro replies _
  split
  · split
    · rename_i status _
      have hstatus : (perform (.ingestStatus status)).Idle := idle_perform trivial
      exact .after_idle hstatus fun _ => trivial
    · trivial
  · trivial

namespace ControlPlane

theorem wrote_create (a : Application) : (Call.create a).Wrote (.wrote a) a := by
  refine ⟨rfl, ?_, fun h => h.2 rfl⟩
  rintro hs ⟨-, hstop⟩
  simp [Application.isStarted, Application.isStopped] at hs hstop
  simp [hs] at hstop

theorem obeys_create (a : Application) : (create config a).Obeys (Call.conduct config (.create a))
    (fun _ => (Call.create a).Routed) .none := by
  refine .after_idle (idle_findApp a.id) fun found => ?_
  cases found with
  | some b => exact Call.routed_none _
  | none =>
    have hput : (perform (.putApp a)).Obeys (Call.conduct config (.create a))
        (fun _ g' => g' = .wrote a) .none :=
      obeys_perform.2 ⟨⟨⟨.inr (.inl ⟨rfl, .create a⟩), nofun, by simp [Action.told]⟩, nofun, nofun⟩,
        fun _ _ hg => hg.2⟩
    refine hput.bind ?_
    rintro _ g' rfl
    exact (Dispatch.obeys_observe_wrote rfl (wrote_create a)).bind fun _ _ hrouted => hrouted

theorem wrote_update {app : AppId} {u : Update} {before made after : Application}
    (h : before.apply u = .ok made) (ha : after = { made with updatedAt := after.updatedAt }) :
    (Call.update app u).Wrote (.wrote after) after := by
  refine ⟨rfl, fun hs ⟨_, hstop⟩ => ?_, fun ⟨_, hash, hbits, hne⟩ => hne ?_⟩
  · rw [ha, Application.isStarted, Application.apply_desired h, hstop] at hs
    simp at hs
  · rw [ha, Application.apply_packageHash h, hbits]
    rfl

theorem obeys_update (app : AppId) (u : Update) :
    (update config app u).Obeys (Call.conduct config (.update app u))
      (fun _ => (Call.update app u).Routed) .none := by
  refine obeys_write (.update app u) (fun a b => Application.apply_pending)
    (fun _ => Call.routed_none _) (Call.routed_none _) ?_
  intro before made after hchange heq
  exact (Dispatch.obeys_observe_wrote rfl (wrote_update hchange heq)).bind fun _ _ hrouted => hrouted

theorem obeys_delete (app : AppId) :
    (delete config app).Obeys (Call.conduct config (.delete app)) (fun _ _ => True) .none := by
  have hremove : (perform (.removeApp app)).Obeys (Call.conduct config (.delete app))
      (fun _ _ => True) .none :=
    obeys_perform.2 ⟨⟨⟨.inr (.inl ⟨rfl, .delete app⟩), nofun, by simp [Action.told]⟩, nofun, nofun⟩,
      fun _ _ _ => trivial⟩
  refine hremove.bind fun found g' _ => ?_
  cases found with
  | none => trivial
  | some before =>
    have hgone (a : Application) : (Diff.deleted before).after ≠ some a := by simp [Diff.deleted]
    exact (Dispatch.obeys_observe fun a ha => absurd ha (hgone a)).bind fun _ _ _ => trivial

/-- What may handle a message; all commands have one handler. -/
theorem handler_cases {subject : String} {handle : Envelope → Activity Unit}
    (h : (handlers config).lookup subject = some handle) :
    (handle = fun e => Ledger.handleHeartbeat e.payload) ∨
      (handle = fun e => Node.handleStatus e.payload) ∨ handle = respond config ∨
      handle = (fun e => do
        let _ ← ScalePolicy.handleSignal (policy config) e.payload) := by
  have hmem : (subject, handle) ∈ handlers config := by
    obtain ⟨before, after, heq, -⟩ := List.lookup_eq_some_iff.1 h
    simp [heq]
  simp only [handlers, List.mem_cons, Prod.mk.injEq, List.not_mem_nil, or_false] at hmem
  rcases hmem with h | h | h | h | h | h | h <;> simp [h.2]

theorem obeys_handler {e : Envelope} {handle : Envelope → Activity Unit}
    (h : (handlers config).lookup e.subject = some handle) :
    (handle e).Obeys (Call.conduct config (.message e)) (fun _ _ => True) .none := by
  rcases handler_cases h with rfl | rfl | rfl | rfl
  · exact ((Ledger.idle_handleHeartbeat _).obeys _).mono fun _ _ _ => trivial
  · exact ((Node.idle_handleStatus _).obeys _).mono fun _ _ _ => trivial
  · exact Respondent.obeys_handle
  · exact ScalePolicy.obeys_handleSignal.bind fun _ _ _ => trivial

end ControlPlane

theorem Call.activity_signal (config : Config) {e : Envelope}
    (h : e.subject = Subject.autoscaleScaleUp) : (Call.message e).activity config = (do
      let _ ← ScalePolicy.handleSignal (ControlPlane.policy config) e.payload) := by
  simp only [activity, h]
  rfl

/-- Every call keeps to its conduct. -/
theorem Call.obeys_conduct (c : Call) :
    (c.activity config).Obeys (c.conduct config) (fun _ => c.Routed) .none := by
  cases c with
  | create a => exact (ControlPlane.obeys_create a).bind fun _ _ hrouted => hrouted
  | update app u => exact (ControlPlane.obeys_update app u).bind fun _ _ hrouted => hrouted
  | delete app => exact (ControlPlane.obeys_delete app).bind fun _ _ _ => False.elim
  | message e =>
    simp only [activity]
    split
    · exact (ControlPlane.obeys_handler ‹_›).mono fun _ _ _ => False.elim
    · exact False.elim
  | sweep => exact (Ledger.obeys_sweep _).bind fun _ _ _ => False.elim
  | identify node => exact (Node.obeys_identify _ node).bind fun _ _ _ => False.elim

end AppFleet
