import AppFleet.Proofs.Fleet.Changes
import AppFleet.Proofs.Fleet.Sent
import AppFleet.Proofs.Message.RoundTrip

/-! What the router was told last. A call tells it the routes of a change when the reaction is over, as
they were when the change was stored. A reaction may take long, so the routes of an older change may be
told after those of a newer one; they are the stored ones exactly if the owner took back what it ordered
in between. -/

namespace AppFleet

open Fleet

/-- The routes of an application that the router learns from a message, if it is about them. -/
def Sent.routes? (app : AppId) (m : Sent) : Option (List String) :=
  if m.subject = Subject.routerUpdate ∧ m.request.isNone ∧ !m.refused then
    match RouteUpdate.codec.read m.payload with
    | .ok u => if u.appId = app then some u.routes else none
    | .error _ => none
  else none

/-- The routes of an application that the router was told last. -/
def Fleet.lastTold (s : Fleet) (app : AppId) : Option (List String) :=
  (s.world.link.sent.filterMap (Sent.routes? app)).getLast?

def Call.TakesRoutes (app : AppId) (routes : List String) : Call → Prop
  | .create a => a.id = app ∧ a.routes ≠ routes
  | .update id u => id = app ∧ ∃ others, u.routes = some others ∧ others ≠ routes
  | .delete id => id = app
  | _ => False

def Call.GivesRoutes (app : AppId) (routes : List String) : Call → Prop
  | .create a => a.id = app ∧ a.routes = routes
  | .update id u => id = app ∧ u.routes = some routes
  | _ => False

theorem routes_orderedBy (app : AppId) (routes : List String) :
    OrderedBy (fun a => a.routes = routes) app (·.TakesRoutes app routes)
      (·.GivesRoutes app routes) := by
  constructor
  · refine ⟨fun a b h => by simp [h.routes], fun a hid ha => ⟨hid, by simpa using ha⟩,
      fun u a b ha hb hnot => ⟨rfl, ?_⟩, fun _ => rfl⟩
    simp only [is_some, not_not, Application.apply_routes hb] at ha hnot
    cases hu : u.routes with
    | none => simp [hu, ha] at hnot
    | some others => exact ⟨others, rfl, by simpa [hu] using hnot⟩
  · refine ⟨fun a b h => by simp [h.routes], fun a hid ha => ⟨hid, is_some.1 ha⟩,
      fun u a b ha hb hnow => ⟨rfl, ?_⟩, fun h => absurd h is_none⟩
    simp only [is_some, Application.apply_routes hb] at ha hnow
    cases hu : u.routes with
    | none => simp [hu, ha] at hnow
    | some others => simpa [hu] using hnow

/-- Routes become pending by owners' changes alone. -/
theorem routesPending_madeBy (app : AppId) :
    MadeBy (Is fun a => a.routesPending) app Call.Changes :=
  ⟨fun a b h => by simpa using h.routesPending, fun _ _ _ => trivial, fun _ _ _ _ _ _ => trivial,
    fun h => absurd h is_none⟩

theorem Sent.routes?_routing {m : Sent} {a : Application} (hs : m.subject = Subject.routerUpdate)
    (hr : m.request = none) (hm : m.refused = false) (hp : m.payload = Orders.routing a)
    (app : AppId) : m.routes? app = if a.id = app then some a.routes else none := by
  have hread : RouteUpdate.codec.read (Orders.routing a) = .ok ⟨a.id, a.routes⟩ :=
    RouteUpdate.codec_faithful _
  simp [routes?, hs, hr, hm, hp, hread]

/-- What an action makes an application, it has stored. -/
theorem World.stored_of_changed {w : World} {action : Action} {app : AppId} {a : Application}
    (hbefore : w.store.apps.get? app ≠ some a)
    (hafter : (w.perform action).2.store.apps.get? app = some a) :
    action.stored (w.perform action).1 = [a] := by
  by_cases hquiet : action.Quiet
  · rw [w.perform_quiet hquiet] at hafter
    exact absurd hafter hbefore
  · cases action with
    | putApp b =>
      by_cases hid : app = b.id
      · subst hid
        have hself : (w.store.apps.put b.id b).get? b.id = some b := Table.get?_put_self _ _ _
        cases hself.symm.trans hafter
        rfl
      · have hother := Table.get?_put_of_ne w.store.apps b hid
        exact absurd (hother.symm.trans hafter) hbefore
    | removeApp id =>
      by_cases hid : app = id
      · subst hid
        have hself : (w.store.apps.erase app).get? app = none := Table.get?_erase_self _ _
        cases hself.symm.trans hafter
      · have hother := Table.get?_erase_of_ne w.store.apps hid
        exact absurd (hother.symm.trans hafter) hbefore
    | changeApp id change =>
      simp only [World.perform, Action.stored] at hafter ⊢
      rcases w.store.changeApp_cases w.wallClock id change with ⟨_, r, -, -, heq⟩ | ⟨-, heq⟩ |
        ⟨before, made, after, -, -, -, hanswer, hself, hother⟩
      · rw [heq] at hafter
        exact absurd hafter hbefore
      · rw [heq] at hafter
        exact absurd hafter hbefore
      · by_cases hid : app = id
        · subst hid
          cases hself.symm.trans hafter
          simp [hanswer, Diff.updated]
        · exact absurd ((hother app hid).symm.trans hafter) hbefore
    | _ => exact absurd trivial hquiet

namespace Fleet

variable {config : Config} {s : Fleet} {w : World} {es : List Event} {i : Nat} {app : AppId}

theorem call?_mono {past : List Event} {c : Call} (hpast : past <+: es)
    (h : (run config s past).call? i = some c) : (run config s es).call? i = some c := by
  obtain ⟨rest, rfl⟩ := hpast
  induction rest using List.reverseRecOn with
  | nil => simpa using h
  | append_singleton rest e ih =>
    obtain ⟨t, ht, hcall⟩ := Option.map_eq_some_iff.1 ih
    have hi := (List.getElem?_eq_some_iff.1 ht).1
    rw [← List.append_assoc, run_snoc]
    by_cases he : e = .turn i
    · subst he
      simp [call?, step, takeTurn_task ht, hcall]
    · simp [call?, step_task_of_ne he hi, ht, hcall]

/-- Routes that become pending are the first that the call behind it stores. -/
theorem log_stores_of_pending (hw : w.store.apps.Holds fun _ => True) {past : List Event} {e : Event}
    (hnot : ¬ Is (fun a => a.routesPending) ((run config (start w) past).apps.get? app))
    (hnow : Is (fun a => a.routesPending) ((run config (start w) (past ++ [e])).apps.get? app)) :
    ∃ i c a, (run config (start w) past).call? i = some c ∧ c.Changes ∧ a.id = app ∧
      a.routesPending ∧ log (stores i) config (start w) (past ++ [e]) = [a] := by
  obtain ⟨a, ha, hpending⟩ := hnow
  have hid : a.id = app := (holds_run hw _ app a ha).1
  have hwas : (run config (start w) past).apps.get? app ≠ some a := fun h => hnot ⟨a, h, hpending⟩
  rw [run_snoc] at ha
  rcases step_apps config (run config (start w) past) e with ⟨i, t, action, rfl, ht, haction, heq⟩ | heq
  · rw [heq] at ha
    obtain ⟨g, hrecorded, hobeys⟩ := run_obeys hw past ht
    obtain ⟨hnone, hchanges⟩ := (routesPending_madeBy app).perform (hobeys.allows haction).1.apps
      hnot ⟨a, ha, hpending⟩
    have hnext : (run config (start w) past).next? i = some action := by simp [next?, ht, haction]
    refine ⟨i, t.call, a, by simp [call?, ht], hchanges, hid, hpending, ?_⟩
    rw [log_snoc, ← hrecorded.stored, hnone, stores_turn hnext, World.stored_of_changed hwas ha,
      List.nil_append]
  · rw [heq] at ha
    exact absurd ha hwas

/-- A task stored routes of an application at one of its turns, and told the router at another. -/
structure Pushed (config : Config) (w : World) (es : List Event) (app : AppId) (routes : List String)
    (i k j : Nat) : Prop where
  order : k < j ∧ j < es.length
  stores : es[k]? = some (.turn i)
  stored : AppIs config w es (k + 1) app (fun a => a.routes = routes)
  tells : es[j]? = some (.turn i)
  told : (run config (start w) (es.take j)).next? i =
    some (.publish Subject.routerUpdate (RouteUpdate.codec.write ⟨app, routes⟩))

theorem pushed_of_sent (hw : w.store.apps.Holds fun _ => True) (hsent : w.link.sent = []) {m : Sent}
    (hm : m ∈ (run config (start w) es).world.link.sent) {routes : List String}
    (hroutes : m.routes? app = some routes) : ∃ i k j, Pushed config w es app routes i k j := by
  have hkind : m.subject = Subject.routerUpdate ∧ m.request.isNone ∧ !m.refused := by
    by_contra hnot
    rw [Sent.routes?, if_neg hnot] at hroutes
    cases hroutes
  obtain ⟨hsubject, hrequest, haccepted⟩ := hkind
  have hlog : m ∈ log sends config (start w) es := by
    have hstart : (start w).world.link.sent = [] := hsent
    rwa [sent_run, hstart, List.nil_append] at hm
  obtain ⟨past, e, hpast, he⟩ := exists_of_mem_log hlog
  cases e with
  | turn i =>
    simp only [sends] at he
    cases ht : (run config (start w) past).tasks[i]? with
    | none => simp [ht] at he
    | some t =>
      rw [ht] at he
      obtain ⟨haction, -⟩ := Stage.action?_of_sends he (Option.isNone_iff_eq_none.1 hrequest)
      rw [hsubject] at haction
      obtain ⟨g, hrecorded, hobeys⟩ := run_obeys hw past ht
      obtain ⟨a, ha, hpayload⟩ := (hobeys.allows haction).1.routes m.payload
        (Action.mem_told_iff.2 rfl)
      rw [Sent.routes?_routing hsubject (Option.isNone_iff_eq_none.1 hrequest)
        (by simpa using haccepted) hpayload] at hroutes
      obtain ⟨hid, hsame⟩ := Option.ite_none_right_eq_some.1 hroutes
      cases hsame
      subst hid
      obtain ⟨before, hbefore, hstored⟩ := hrecorded.own a ha
      obtain ⟨hlt, hturn, -, htake⟩ := at_of_past
        (hbefore.trans ((List.prefix_append past [.turn i]).trans hpast))
      obtain ⟨hj, hjturn, hjtake, -⟩ := at_of_past hpast
      have hnext : (run config (start w) past).next? i =
          some (.publish Subject.routerUpdate (Orders.routing a)) := by
        simp [next?, ht, haction, hpayload]
      refine ⟨i, before.length, past.length, ⟨(at_of_past hbefore).1, hj⟩, hturn, ?_, hjturn, ?_⟩
      · rw [AppIs, appAt, htake]
        exact ⟨a, hstored, rfl⟩
      · rw [hjtake]
        exact hnext
  | _ => cases he

/-- What a task told the router was sent, and arrived unless it was refused. -/
theorem sent_of_told {s : Fleet} {P : Application → Prop} {c : Call} {asked : List Request} {g : Doings}
    (hbus : ∀ m ∈ (run config s es).world.link.sent, m.subject = Subject.routerUpdate → ¬ m.refused)
    (h : Recorded P config s es i c asked g) {a : Application} (ha : Orders.routing a ∈ g.told) :
    ∃ m ∈ (run config s es).world.link.sent,
      ∀ app, m.routes? app = if a.id = app then some a.routes else none := by
  obtain ⟨past, hpast, hnext⟩ := h.told _ ha
  obtain ⟨t, ht, haction⟩ := Option.bind_eq_some_iff.1 hnext
  have hsends := Stage.sends_of_action? (w := (run config s past).world) haction
  have hm : _ ∈ (run config s es).world.link.sent := (sent_mono hpast).subset (by
    rw [run_snoc, step_sent]
    exact List.mem_append_right _ (by simpa [sends, ht] using hsends))
  exact ⟨_, hm, Sent.routes?_routing rfl rfl (by simpa using hbus _ hm rfl) rfl⟩

/-- Once all calls have returned, the router has been told something of every application whose
routes were ever pending, if it could be told. -/
theorem lastTold_isSome (hw : w.store.apps.Holds fun a => ¬ a.routesPending)
    (hreturned : (run config (start w) es).allReturned)
    (hbus : ∀ m ∈ (run config (start w) es).world.link.sent, m.subject = Subject.routerUpdate →
      ¬ m.refused) {k : Nat} (hpending : AppIs config w es k app (fun a => a.routesPending)) :
    ∃ routes, (run config (start w) es).lastTold app = some routes := by
  have hall : w.store.apps.Holds fun _ => True := hw.own
  have hbegin : ¬ AppIs config w (es.take k) 0 app (fun a => a.routesPending) := by
    rintro ⟨a, ha, hp⟩
    exact (hw app a ha).2 hp
  have hend : AppIs config w (es.take k) (es.take k).length app (fun a => a.routesPending) := by
    rw [AppIs, appAt, List.take_length]
    exact hpending
  -- the call that made them pending first
  obtain ⟨l, -, hl, hnot, hnow, -⟩ :=
    comes_of_end (routesPending_madeBy app) hall (Nat.zero_le _) hbegin hend
  have hsplit := List.take_append_getElem hl
  rw [appAt, ← hsplit] at hnow
  obtain ⟨i, c, a, hc, hchanges, hid, hp, hstored⟩ := log_stores_of_pending hall hnot hnow
  have hpast : (es.take k).take l ++ [(es.take k)[l]] <+: es := by
    rw [hsplit]
    exact (List.take_prefix _ _).trans (List.take_prefix _ _)
  obtain ⟨t, ht, rfl⟩ := Option.map_eq_some_iff.1
    (call?_mono ((List.prefix_append _ _).trans hpast) hc)
  obtain ⟨g, hrecorded, hobeys⟩ := run_obeys hall es ht
  have hhead : g.stored.head? = some a := by
    have hlog : log (stores i) config (start w) _ <+: _ := log_mono hpast
    obtain ⟨rest, hrest⟩ := hlog
    rw [hrecorded.stored, ← hrest, hstored]
    rfl
  -- it has returned, so it has told them
  have hrouted : t.call.Routed g := by
    have hfinished := List.all_eq_true.1 hreturned t (List.mem_of_getElem? ht)
    cases hstage : t.stage with
    | finished u =>
      rw [hstage] at hobeys
      exact hobeys
    | _ => simp [hstage, Stage.isFinished] at hfinished
  obtain ⟨m, hm, hroutes⟩ := sent_of_told hbus hrecorded (hrouted hchanges a hhead hp)
  have hmem : a.routes ∈ (run config (start w) es).world.link.sent.filterMap (Sent.routes? app) :=
    List.mem_filterMap.2 ⟨m, hm, by simpa [hid] using hroutes app⟩
  exact ⟨_, List.getLast?_eq_some_getLast (List.ne_nil_of_mem hmem)⟩

/-- Once all calls have returned, the router knows last what some call stored and told it. Those are
the stored routes exactly if every call of the owner that took them since was followed by one that
gave them back. -/
theorem lastTold_iff (hw : w.store.apps.Holds fun a => ¬ a.routesPending) (hsent : w.link.sent = [])
    (hreturned : (run config (start w) es).allReturned)
    (hbus : ∀ m ∈ (run config (start w) es).world.link.sent, m.subject = Subject.routerUpdate →
      ¬ m.refused) {n : Nat} (hpending : AppIs config w es n app (fun a => a.routesPending))
    {a : Application} (ha : (run config (start w) es).apps.get? app = some a) :
    ∃ routes i k j, (run config (start w) es).lastTold app = some routes ∧
      Pushed config w es app routes i k j ∧
      (routes = a.routes ↔ MadeGood config w es (k + 1) app (fun b => b.routes = routes)
        (·.TakesRoutes app routes) (·.GivesRoutes app routes)) := by
  have hall : w.store.apps.Holds fun _ => True := hw.own
  obtain ⟨routes, hlast⟩ := lastTold_isSome hw hreturned hbus hpending
  obtain ⟨m, hm, hroutes⟩ := List.mem_filterMap.1 (List.mem_of_getLast? hlast)
  obtain ⟨i, k, j, hpushed⟩ := pushed_of_sent hall hsent hm hroutes
  have hk : k + 1 ≤ es.length := Nat.le_of_lt (Nat.lt_of_le_of_lt hpushed.order.1 hpushed.order.2)
  have hnow := appIs_iff_madeGood (routes_orderedBy app routes) hall hk hpushed.stored
  rw [AppIs, appAt, List.take_length, ha, is_some] at hnow
  exact ⟨routes, i, k, j, hlast, hpushed, by rw [← hnow, eq_comm]⟩

end Fleet

def Application.routed : Application := Operation.run (.new "web" "web")
  [.apply { Update.empty with
    state := some .started
    packageHash := some "bits-1"
    routes := some ["old.example.com"] }]

namespace Fleet

def routeWhileStaging : List Event :=
  [.call (.create .routed), .turn 0, .turn 0, .turn 0,
    .call (.update "web" { Update.empty with routes := some ["new.example.com"] }), .turn 1, .turn 1,
    .turn 1, .turn 1,
    .deliver ⟨Subject.inbox 0, StageReply.codec.write (.staged ⟨0, none, none⟩), none⟩, .turn 0, .turn 0,
    .turn 0, .turn 0, .turn 0, .turn 0]

theorem settled_routeWhileStaging :
    (run .default (start (.initial 0 0 0)) routeWhileStaging).allReturned ∧
      (run .default (start (.initial 0 0 0)) routeWhileStaging).world.link.sent.all (!·.refused) := by
  decide +kernel

theorem pending_routeWhileStaging : AppIs .default (.initial 0 0 0) routeWhileStaging 3 "web"
    (fun a => a.routesPending) := by
  have hstored : appAt .default (.initial 0 0 0) routeWhileStaging 3 "web" = some .routed := by
    decide +kernel
  exact ⟨.routed, hstored, rfl⟩

theorem routes_routeWhileStaging :
    ((run .default (start (.initial 0 0 0)) routeWhileStaging).apps.get? "web").map
        (fun a => (a.routes, a.routesPending)) = some (["new.example.com"], false) ∧
      (run .default (start (.initial 0 0 0)) routeWhileStaging).lastTold "web" =
        some ["old.example.com"] := by
  decide +kernel

theorem lastTold_iff_web : ∃ i k j,
    Pushed .default (.initial 0 0 0) routeWhileStaging "web" ["old.example.com"] i k j ∧
      (["old.example.com"] = ["new.example.com"] ↔
        MadeGood .default (.initial 0 0 0) routeWhileStaging (k + 1) "web"
          (fun a => a.routes = ["old.example.com"]) (·.TakesRoutes "web" ["old.example.com"])
          (·.GivesRoutes "web" ["old.example.com"])) := by
  obtain ⟨hreturned, hbus⟩ := settled_routeWhileStaging
  obtain ⟨hstored, htold⟩ := routes_routeWhileStaging
  obtain ⟨a, ha, hroutes⟩ := Option.map_eq_some_iff.1 hstored
  obtain ⟨routes, i, k, j, hlast, hpushed, hiff⟩ := lastTold_iff (Table.holds_empty _) rfl hreturned
    (fun m hm _ => by simpa using List.all_eq_true.1 hbus m hm) pending_routeWhileStaging ha
  cases htold.symm.trans hlast
  rw [(Prod.mk.inj hroutes).1] at hiff
  exact ⟨i, k, j, hpushed, hiff⟩

theorem tells_older_routes : ¬ ∀ (config : Config) (w : World) (es : List Event) (app : AppId)
    (n : Nat) (a : Application), w.store.apps.Holds (fun a => ¬ a.routesPending) →
    w.link.sent = [] → (run config (start w) es).allReturned →
    (∀ m ∈ (run config (start w) es).world.link.sent, ¬ m.refused) →
    AppIs config w es n app (fun a => a.routesPending) →
    (run config (start w) es).apps.get? app = some a → ¬ a.routesPending →
    (run config (start w) es).lastTold app = some a.routes := by
  intro h
  obtain ⟨hreturned, hbus⟩ := settled_routeWhileStaging
  obtain ⟨hstored, htold⟩ := routes_routeWhileStaging
  obtain ⟨a, ha, hroutes⟩ := Option.map_eq_some_iff.1 hstored
  obtain ⟨hnew, hpushed⟩ := Prod.mk.inj hroutes
  have hsame := h .default (.initial 0 0 0) routeWhileStaging "web" 3 a (Table.holds_empty _) rfl hreturned
    (fun m hm => by simpa using List.all_eq_true.1 hbus m hm) pending_routeWhileStaging ha
    (by simp [hpushed])
  rw [htold, hnew] at hsame
  simp at hsame

end Fleet

end AppFleet
