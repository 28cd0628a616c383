import AppFleet.Proofs.Autoscale.Signals
import AppFleet.Proofs.Fleet.Changes

/-! What a scale-up makes of the count. It is decided about the application as it was looked up, and
carried out on what is stored by then: whoever raised the count in between may find it lowered, though
never above the maximum that is stored. -/

namespace AppFleet

open Activity

structure Decision.Grows (a : Application) (target : UInt32) : Prop where
  started : a.isStarted
  enabled : a.scaling.enabled
  above : a.instances < target
  within : ∀ most ∈ a.scaling.maxInstances, target ≤ most

theorem Decision.grows_of_make {a : Application} {cpu : Float} {cooldown now : UInt64}
    {last : Option UInt64} {target : UInt32} (h : make a cpu cooldown now last = .scaleTo target) :
    Grows a target := by
  obtain ⟨hstarted, henabled, -, habove, hwithin⟩ := make_scaleTo h
  exact ⟨hstarted, henabled, habove, hwithin⟩

def Action.lookedUp (before : Option (AppId × Application)) :
    (action : Action) → action.Answer → Option (AppId × Application)
  | .findApp app, answer => answer.map (app, ·)
  | _, _ => before

def Call.IsSignal : Call → Prop
  | .message e => e.subject = Subject.autoscaleScaleUp
  | _ => False

/-- A signal asks for a count that was decided about the application that it looked up last. -/
def Call.informed (c : Call) : Monitor (Option (AppId × Application)) where
  allows found action := action.Quiet ∨ action.Notes ∨ c.Writes action ∧
    (c.IsSignal → ∃ app a target, found = some (app, a) ∧ Decision.Grows a target ∧
      action = .changeApp app (·.apply (.ofInstances target)))
  after found action answer found' := action.MayAnswer answer ∧ found' = action.lookedUp found answer
  asked found _ := found
  answers _ := True
  surveys _ _ := True
  ends _ := True

variable {config : Config} {c : Call} {found : Option (AppId × Application)}

/-- A signal that has written has only notes left. -/
theorem Call.conduct_implies_informed :
    (c.conduct config).Implies c.informed fun g _ => c.IsSignal → g.stored ≠ [] where
  allows g h action hrel hallows := by
    rcases hallows.1.apps with hquiet | ⟨hnone, hwrites⟩ | hnotes
    · exact .inl hquiet
    · exact .inr (.inr ⟨hwrites, fun hsignal => absurd hnone (hrel hsignal)⟩)
    · exact .inr (.inl hnotes)
  after g h action answer h' hrel hafter :=
    ⟨g.did action answer, ⟨hafter.1, rfl⟩, fun hsignal => by simp [Doings.did, hrel hsignal]⟩
  asked g h r hrel := hrel
  answers _ _ := trivial
  surveys _ _ _ _ _ := trivial

namespace ScalePolicy

variable {p : ScalePolicy} {a : Application} {e : Envelope}

theorem informed_evaluate (cpu : Float) : (p.evaluate a cpu).Obeys c.informed
    (fun decision found' => found' = found ∧ ∀ target, decision = .scaleTo target →
      Decision.Grows a target) found := by
  refine obeys_perform.2 ⟨.inl trivial, ?_⟩
  rintro now found' ⟨-, rfl⟩
  refine obeys_perform.2 ⟨.inl trivial, ?_⟩
  rintro last found' ⟨-, rfl⟩
  exact ⟨rfl, fun target => Decision.grows_of_make⟩

theorem informed_carryOut (hp : p.staging = config.staging) {app : AppId} {decision : Decision}
    (h : ∀ target, decision = .scaleTo target → Decision.Grows a target) :
    (p.carryOut app decision).Obeys (Call.message e).informed (fun _ _ => True) (some (app, a)) := by
  cases decision with
  | noChange => trivial
  | scaleTo target =>
    have hscales : (changeApp app (·.apply (.ofInstances target))).Obeys (Call.message e).informed
        (fun answer _ => ∀ d, answer = .ok (some d) → ∃ after, d.after = some after)
        (some (app, a)) := by
      refine obeys_changeApp.2 ⟨.inr (.inr ⟨.scaleUp e app target, fun _ => ?_⟩), ?_⟩
      · exact ⟨app, a, target, rfl, h target rfl, rfl⟩
      · rintro answer found' ⟨hanswer, -⟩ d rfl
        obtain ⟨_, _, after, -, -, -, -, rfl⟩ := hanswer d rfl
        exact ⟨after, rfl⟩
    refine hscales.bind fun answer found' hanswer => ?_
    match answer with
    | .error r => trivial
    | .ok none => trivial
    | .ok (some d) =>
      obtain ⟨after, hafter⟩ := hanswer d rfl
      refine obeys_perform.2 ⟨.inl trivial, fun _ found'' _ => ?_⟩
      have hobserve : (Dispatch.observe p.staging d).Obeys ((Call.message e).conduct config) _ _ :=
        hp ▸ Dispatch.obeys_observe_wrote hafter (Call.wrote_message e after)
      exact (hobserve.implied Call.conduct_implies_informed fun _ => by simp [Doings.wrote]).bind
        fun _ _ _ => trivial

theorem informed_scaleUp (hp : p.staging = config.staging) (app : AppId) (cpu : Float) :
    (p.scaleUp app cpu).Obeys (Call.message e).informed (fun _ _ => True) found := by
  rw [scaleUp_eq]
  refine obeys_perform.2 ⟨.inl trivial, ?_⟩
  rintro answer found' ⟨-, rfl⟩
  cases answer with
  | none => trivial
  | some a =>
    refine (informed_evaluate cpu).bind ?_
    rintro decision found' ⟨rfl, hgrows⟩
    exact informed_carryOut hp hgrows

end ScalePolicy

theorem Call.obeys_informed (c : Call) :
    (c.activity config).Obeys c.informed (fun _ _ => True) none := by
  by_cases hsignal : c.IsSignal
  · cases c with
    | message e =>
      rw [activity_signal config hsignal]
      have hhandled : (ScalePolicy.handleSignal (ControlPlane.policy config) e.payload).Obeys
          (Call.message e).informed (fun _ _ => True) none := by
        unfold ScalePolicy.handleSignal
        split
        · exact (ScalePolicy.informed_scaleUp (ScalePolicy.policy_staging ‹_›) _ _).bind
            fun _ _ _ => trivial
        · trivial
      exact hhandled.bind fun _ _ _ => trivial
    | _ => exact hsignal.elim
  · exact (c.obeys_conduct.implied conduct_implies_informed fun h => absurd h hsignal).mono
      fun _ _ _ => trivial

/-- What a change leaves of an application: another one, none of it, or one that the change rejects. -/
theorem World.perform_changeApp (w : World) (id : AppId)
    (change : Application → Except Fault Application) {app : AppId} {b : Application}
    (hb : w.store.apps.get? app = some b) :
    ∃ c, (w.perform (.changeApp id change)).2.store.apps.get? app = some c ∧
      ((id = app → ∃ r, change b = .error r) ∧ c = b ∨
        id = app ∧ ∃ made, change b = .ok made ∧ c = { made with updatedAt := c.updatedAt }) := by
  simp only [perform]
  rcases w.store.changeApp_cases w.wallClock id change with ⟨before, r, hbefore, hr, heq⟩ |
    ⟨hnone, heq⟩ | ⟨before, made, after, hbefore, hm, ha, -, hself, hother⟩
  · refine ⟨b, by rw [heq]; exact hb, .inl ⟨?_, rfl⟩⟩
    rintro rfl
    cases hb.symm.trans hbefore
    exact ⟨r, hr⟩
  · refine ⟨b, by rw [heq]; exact hb, .inl ⟨?_, rfl⟩⟩
    rintro rfl
    cases hb.symm.trans hnone
  · by_cases hid : id = app
    · subst hid
      cases hb.symm.trans hbefore
      exact ⟨after, hself, .inr ⟨rfl, made, hm, ha⟩⟩
    · exact ⟨b, (hother app (Ne.symm hid)).trans hb, .inl ⟨fun h => absurd h hid, rfl⟩⟩

/-- Neither what is noted nor what is not written changes a count. -/
theorem World.perform_sameCount (w : World) {action : Action} (h : action.Quiet ∨ action.Notes)
    {app : AppId} {b : Application} (hb : w.store.apps.get? app = some b) :
    ∃ c, (w.perform action).2.store.apps.get? app = some c ∧ b.SameCount c := by
  rcases h with hquiet | hnotes
  · exact ⟨b, by rw [w.perform_quiet hquiet]; exact hb, rfl, rfl⟩
  · cases hnotes with
    | verdict id mark hm =>
      obtain ⟨c, hc, ⟨-, rfl⟩ | ⟨-, made, hmade, hstamp⟩⟩ := w.perform_changeApp id mark hb
      · exact ⟨c, hc, rfl, rfl⟩
      · have hsame := hm.sameCount hmade
        exact ⟨c, hc, by rw [hstamp]; exact hsame.instances, by rw [hstamp]; exact hsame.scaling⟩
    | routesPushed id =>
      obtain ⟨c, hc, ⟨-, rfl⟩ | ⟨-, made, hmade, hstamp⟩⟩ :=
        w.perform_changeApp id (fun stored => .ok stored.routesPushed) hb
      · exact ⟨c, hc, rfl, rfl⟩
      · cases hmade
        exact ⟨c, hc, by rw [hstamp]; rfl, by rw [hstamp]; rfl⟩

def Action.growth (app : AppId) (target : UInt32) : Action :=
  .changeApp app (·.apply (.ofInstances target))

theorem World.perform_growth (w : World) (target : UInt32) {app : AppId} {before : Application}
    (h : w.store.apps.get? app = some before) :
    ∃ after, (w.perform (.growth app target)).2.store.apps.get? app = some after ∧
      after.scaling = before.scaling ∧
      (before.scaling.enabled → before.instances < after.instances →
        ∀ most ∈ before.scaling.maxInstances, after.instances ≤ most) ∧
      (before.instances ≤ after.instances ↔ (before.scaling.passes → before.KeepsUp target)) := by
  obtain ⟨after, hafter, ⟨hrejects, rfl⟩ | ⟨-, made, hmade, hstamp⟩⟩ :=
    w.perform_changeApp app (·.apply (.ofInstances target)) h
  · obtain ⟨r, hr⟩ := hrejects rfl
    have hfails : ¬ after.scaling.passes := fun hpasses => by
      obtain ⟨b, hb⟩ := Application.apply_ofInstances_iff.2 hpasses
      cases hr.symm.trans hb
    exact ⟨after, hafter, rfl, fun _ hup => absurd hup (UInt32.lt_irrefl _),
      by simp [hfails]⟩
  · have hpasses : before.scaling.passes := Application.apply_ofInstances_iff.1 ⟨made, hmade⟩
    have hscaling : after.scaling = made.scaling := by rw [hstamp]
    have hcount : after.instances = made.instances := by rw [hstamp]
    refine ⟨after, hafter, hscaling.trans (Application.count_of_apply hmade).2.1, ?_, ?_⟩
    · rw [hcount]
      exact Application.within_of_raised hmade
    · rw [hcount, Application.keepsUp_iff hmade]
      simp [hpasses]

namespace Fleet

variable {w : World} {es : List Event} {i : Nat}

/-- What a task found is what was stored when it looked it up, at a turn of its own. -/
def LookedUp (config : Config) (s : Fleet) (es : List Event) (i : Nat) (_ : Call) (_ : List Request)
    (found : Option (AppId × Application)) : Prop :=
  ∀ app a, found = some (app, a) → ∃ past, past ++ [.turn i] <+: es ∧
    (run config s past).next? i = some (.findApp app) ∧ (run config s past).apps.get? app = some a

theorem LookedUp.snoc {s : Fleet} {c : Call} {asked asked' : List Request}
    {found : Option (AppId × Application)} (h : LookedUp config s es i c asked found) (e : Event) :
    LookedUp config s (es ++ [e]) i c asked' found := by
  intro app a hfound
  exact Finds.snoc (h app a hfound) e

theorem tracks_informed (w : World) : Tracks config (start w) (fun _ => True) Call.informed
    (Table.Holds fun _ => True) (LookedUp config (start w)) := by
  refine ⟨fun _ _ => trivial, ?_, ?_, ?_, ?_⟩
  · intro es c _
    refine ⟨none, ?_, c.obeys_informed⟩
    rintro app a ⟨⟩
  · exact fun es e i c asked found _ h => h.snoc e
  · intro es i t found action ht ha hI hR hallows
    obtain ⟨hholds, hanswer⟩ := Call.perform_own hallows hI
    refine ⟨hholds, _, ⟨hanswer, rfl⟩, ?_⟩
    have hkept : LookedUp config (start w) (es ++ [.turn i]) i t.call t.asked found := hR.snoc (.turn i)
    cases action with
    | findApp app =>
      intro app' a hfound
      have hlooked : (run config (start w) es).next? i = some (.findApp app) := by
        simp [next?, ht, ha]
      obtain ⟨b, hb, heq⟩ := Option.map_eq_some_iff.1 hfound
      cases heq
      exact hb ▸ finds_turn hlooked
    | _ => exact hkept
  · exact fun es i c asked found r _ h => h.snoc (.turn i)

/-- What the next turn of a signal may make of a stored count: it grows as was decided about the
application that the same task looked up, or it stays. -/
theorem turn_of_signal (hw : w.store.apps.Holds fun _ => True) {c : Call}
    (hc : (run config (start w) es).call? i = some c) (hsignal : c.IsSignal) {action : Action}
    (hnext : (run config (start w) es).next? i = some action) :
    action.Quiet ∨ action.Notes ∨ ∃ app target k a, action = .growth app target ∧
      k < es.length ∧ es[k]? = some (.turn i) ∧
      (run config (start w) (es.take k)).next? i = some (.findApp app) ∧
      appAt config w es k app = some a ∧ Decision.Grows a target := by
  obtain ⟨t, ht, rfl⟩ := Option.map_eq_some_iff.1 hc
  obtain ⟨t', ht', haction⟩ := Option.bind_eq_some_iff.1 hnext
  cases ht.symm.trans ht'
  obtain ⟨found, hfound, hobeys⟩ := ((tracks_informed w).run rfl hw es fun _ _ => trivial).2 i t ht
  refine (hobeys.allows haction).imp_right (.imp_right ?_)
  rintro ⟨-, hinformed⟩
  obtain ⟨app, a, target, rfl, hgrows, haction⟩ := hinformed hsignal
  obtain ⟨k, hk, hturn, hlooked, hstored⟩ := Finds.at_turn (hfound app a rfl)
  exact ⟨app, target, k, a, haction, hk, hturn, hlooked, hstored, hgrows⟩

/-- What is stored of an application after a turn of a signal has the bounds from before, and has not
risen above their maximum while autoscaling is on. Its count is another only by a growth that was
decided about the application as the same task looked it up at an earlier turn. Carried out on what is
stored by now, the growth lowers the count exactly if the bounds pass and do not keep it up. -/
theorem scaleUp_keeps_count_iff (hw : w.store.apps.Holds fun _ => True) {c : Call}
    (hc : (run config (start w) es).call? i = some c) (hsignal : c.IsSignal) {app : AppId}
    {before : Application} (hbefore : (run config (start w) es).apps.get? app = some before) :
    ∃ after, (run config (start w) (es ++ [.turn i])).apps.get? app = some after ∧
      after.scaling = before.scaling ∧
      (before.scaling.enabled → before.instances < after.instances →
        ∀ most ∈ before.scaling.maxInstances, after.instances ≤ most) ∧
      (∀ target, (run config (start w) es).next? i = some (.growth app target) →
        (before.instances ≤ after.instances ↔ (before.scaling.passes → before.KeepsUp target))) ∧
      (after.instances = before.instances ∨ ∃ target k a,
        (run config (start w) es).next? i = some (.growth app target) ∧
        k < es.length ∧ es[k]? = some (.turn i) ∧
        (run config (start w) (es.take k)).next? i = some (.findApp app) ∧
        appAt config w es k app = some a ∧ Decision.Grows a target) := by
  rw [run_snoc, apps_turn]
  set s := run config (start w) es
  cases hnext : s.next? i with
  | none =>
    exact ⟨before, hbefore, rfl, fun _ hup => absurd hup (UInt32.lt_irrefl _), nofun, .inl rfl⟩
  | some action =>
    have hturn := turn_of_signal hw hc hsignal hnext
    by_cases hgrowth : ∃ target, action = .growth app target
    · obtain ⟨target, rfl⟩ := hgrowth
      obtain ⟨after, hafter, hscaling, hwithin, -⟩ := s.world.perform_growth target hbefore
      refine ⟨after, hafter, hscaling, hwithin, fun target' hsame => ?_, ?_⟩
      · obtain ⟨_, hafter', -, -, hiff⟩ := s.world.perform_growth target' hbefore
        rw [← Option.some.inj hsame] at hafter'
        cases hafter.symm.trans hafter'
        exact hiff
      · rcases hturn with hquiet | hnotes | ⟨app', target', k, a, heq, hdecided⟩
        · exact hquiet.elim
        · obtain ⟨_, hafter', hkept⟩ := s.world.perform_sameCount (.inr hnotes) hbefore
          cases hafter.symm.trans hafter'
          exact .inl hkept.instances
        · obtain ⟨rfl, -⟩ := Action.changeApp.inj heq
          exact .inr ⟨target', k, a, by rw [heq], hdecided⟩
    -- whatever else a signal does next leaves the count of this application alone
    · have hsame : ∃ after, (s.world.perform action).2.store.apps.get? app = some after ∧
          before.SameCount after := by
        rcases hturn with hquiet | hnotes | ⟨app', target, -, -, rfl, -⟩
        · exact s.world.perform_sameCount (.inl hquiet) hbefore
        · exact s.world.perform_sameCount (.inr hnotes) hbefore
        · obtain ⟨after, hafter, ⟨-, rfl⟩ | ⟨rfl, -⟩⟩ := s.world.perform_changeApp app' _ hbefore
          · exact ⟨after, hafter, rfl, rfl⟩
          · exact absurd ⟨target, rfl⟩ hgrowth
      obtain ⟨after, hafter, hkept⟩ := hsame
      refine ⟨after, hafter, hkept.scaling, fun _ hup => ?_, fun target heq => ?_, .inl hkept.instances⟩
      · rw [hkept.instances] at hup
        exact absurd hup (UInt32.lt_irrefl _)
      · exact absurd ⟨target, Option.some.inj heq⟩ hgrowth

def webSignal : Call := .message ⟨Subject.autoscaleScaleUp, ScalePolicy.webBusy, none⟩

/-- A signal about an application of two instances is decided, and its owner raises the count and the
maximum to five before it is carried out. -/
def raiseMeanwhile : List Event :=
  [.call webSignal, .turn 0, .turn 0, .turn 0,
    .call (.update "web" { Update.ofInstances 5 with maxInstances := some 5 }), .turn 1]

def webRaised : Application :=
  { Application.bounded 3 with
    instances := 5
    scaling := { (Application.bounded 3).scaling with maxInstances := some 5 }
    updatedAt := 7 }

theorem apps_raiseMeanwhile :
    (run .default (start (.storing (.bounded 3))) raiseMeanwhile).apps.get? "web" = some webRaised := rfl

theorem next_raiseMeanwhile : (run .default (start (.storing (.bounded 3))) raiseMeanwhile).next? 0 =
    some (.growth "web" 3) := by
  have hdecided : (run .default (start (.storing (.bounded 3))) raiseMeanwhile).next? 0 =
      Stage.action? 0 (.asleep 0 ((ScalePolicy.webPolicy.carryOut "web"
        (.make (.bounded 3) (Float.ofNat 100) 60 0 none) >>= fun outcome => pure outcome.toOption) >>=
          fun _ => pure ())) := rfl
  rw [hdecided, Decision.make_bounded rfl]
  rfl

theorem instances_raiseMeanwhile : ((run .default (start (.storing (.bounded 3)))
    (raiseMeanwhile ++ [.turn 0])).apps.get? "web").map (·.instances) = some 3 := by
  rw [run_snoc, apps_turn, next_raiseMeanwhile]
  rfl

theorem scaleUp_keeps_count_iff_web : ∃ after, (run .default (start (.storing (.bounded 3)))
      (raiseMeanwhile ++ [.turn 0])).apps.get? "web" = some after ∧
    (webRaised.instances ≤ after.instances ↔ (webRaised.scaling.passes → webRaised.KeepsUp 3)) ∧
    after.instances = 3 ∧ ∃ target k a, raiseMeanwhile[k]? = some (.turn 0) ∧
      appAt .default (.storing (.bounded 3)) raiseMeanwhile k "web" = some a ∧
      Decision.Grows a target := by
  have hc : (run .default (start (.storing (.bounded 3))) raiseMeanwhile).call? 0 = some webSignal := rfl
  have hsignal : webSignal.IsSignal := rfl
  obtain ⟨after, hafter, -, -, hiff, hdecided⟩ :=
    scaleUp_keeps_count_iff (World.holds_storing (.bounded 3)) hc hsignal apps_raiseMeanwhile
  have hcount := instances_raiseMeanwhile
  rw [hafter, Option.map_some, Option.some.injEq] at hcount
  refine ⟨after, hafter, hiff 3 next_raiseMeanwhile, hcount, ?_⟩
  rcases hdecided with hkept | ⟨target, k, a, -, -, hk, -, ha, hgrows⟩
  · rw [hcount] at hkept
    exact absurd hkept (by decide)
  · exact ⟨target, k, a, hk, ha, hgrows⟩

theorem scaleUp_lowers : ¬ ∀ (config : Config) (w : World) (es : List Event) (i : Nat) (c : Call)
    (app : AppId) (before after : Application), w.store.apps.Holds (fun _ => True) →
    (run config (start w) es).call? i = some c → c.IsSignal →
    (run config (start w) es).apps.get? app = some before →
    (run config (start w) (es ++ [.turn i])).apps.get? app = some after →
    before.instances ≤ after.instances := by
  intro h
  obtain ⟨after, hafter, hcount⟩ := Option.map_eq_some_iff.1 instances_raiseMeanwhile
  have hkept := h .default (.storing (.bounded 3)) raiseMeanwhile 0 webSignal "web" webRaised after
    (World.holds_storing (.bounded 3)) rfl rfl apps_raiseMeanwhile hafter
  rw [hcount] at hkept
  exact absurd hkept (by decide)

end Fleet

end AppFleet
