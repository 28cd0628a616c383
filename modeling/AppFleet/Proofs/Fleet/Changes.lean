import AppFleet.Proofs.Fleet.Stored

/-! How an application comes to be other than it was. Only its owner's calls say whether it is to run,
which bits it has and where its routes are; what takes one of these from it, or gives it back, is a
turn of such a call. -/

namespace AppFleet

/-- Of what its owner orders of an application, nothing is new. -/
structure Application.KeepsOrder (a b : Application) : Prop where
  desired : b.desired = a.desired
  packageHash : b.packageHash = a.packageHash
  routes : b.routes = a.routes
  routesPending : b.routesPending → a.routesPending

/-- What is stored under an id, as far as its owner orders it: only these calls make it so. -/
structure MadeBy (O : Option Application → Prop) (app : AppId) (T : Call → Prop) : Prop where
  order : ∀ a b : Application, a.KeepsOrder b → O (some b) → O (some a)
  create : ∀ a, a.id = app → O (some a) → T (.create a)
  update : ∀ u a b, ¬ O (some a) → a.apply u = .ok b → O (some b) → T (.update app u)
  delete : O none → T (.delete app)

/-- An application is stored and is as `Q` says. -/
def Is (Q : Application → Prop) (o : Option Application) : Prop := ∃ a, o = some a ∧ Q a

@[simp] theorem is_some {Q : Application → Prop} {a : Application} : Is Q (some a) ↔ Q a := by
  simp [Is]

@[simp] theorem is_none {Q : Application → Prop} : ¬ Is Q none := by simp [Is]

/-- What `Q` says of an application is taken from it by some calls only, and given to it by some. -/
structure OrderedBy (Q : Application → Prop) (app : AppId) (Takes Gives : Call → Prop) : Prop where
  takes : MadeBy (¬ Is Q ·) app Takes
  gives : MadeBy (Is Q) app Gives

section

variable {w : World} {c : Call} {app : AppId} {O : Option Application → Prop} {T : Call → Prop}

/-- What is noted, and what a message makes a call write, is no order. -/
theorem keeps_order {id : AppId} {change : Application → Except Fault Application}
    (h : (∃ e, Call.Writes (.message e) (.changeApp id change)) ∨ Action.Notes (.changeApp id change))
    {a b : Application} (hb : change a = .ok b) : a.KeepsOrder b := by
  have happly {count : UInt32} (hb : a.apply (.ofInstances count) = .ok b) : a.KeepsOrder b := by
    obtain ⟨hroutes, hpending⟩ := Application.apply_routes_none hb rfl
    exact ⟨Application.apply_desired hb, Application.apply_packageHash hb, hroutes, by simp [hpending]⟩
  rcases h with ⟨e, h⟩ | h
  · cases h with
    | adjust e app counts =>
      simp only [Respondent.adjusted] at hb
      split at hb
      · cases hb
        exact ⟨rfl, rfl, rfl, fun h => h⟩
      · exact happly hb
    | scaleUp e app target => exact happly hb
  · cases h with
    | verdict app mark hm =>
      exact ⟨hm.desired hb, hm.packageHash hb, (hm.routes hb).1, by simp [(hm.routes hb).2]⟩
    | routesPushed app =>
      cases hb
      exact ⟨rfl, rfl, rfl, by simp [Application.routesPushed]⟩

theorem MadeBy.changeApp (h : MadeBy O app T) {id : AppId}
    {change : Application → Except Fault Application} (hbefore : ¬ O (w.store.apps.get? app))
    (hafter : O ((w.perform (.changeApp id change)).2.store.apps.get? app)) :
    id = app ∧ ∃ a b, ¬ O (some a) ∧ change a = .ok b ∧ O (some b) := by
  simp only [World.perform] at hafter
  rcases w.store.changeApp_cases w.wallClock id change with ⟨_, r, -, -, heq⟩ | ⟨-, heq⟩ |
    ⟨before, made, after, hb, hm, hstamp, -, hself, hother⟩
  · rw [heq] at hafter
    exact absurd hafter hbefore
  · rw [heq] at hafter
    exact absurd hafter hbefore
  · by_cases hid : app = id
    · subst hid
      rw [hself, hstamp] at hafter
      rw [hb] at hbefore
      have hmade := h.order made { made with updatedAt := after.updatedAt }
        ⟨rfl, rfl, rfl, fun h => h⟩ hafter
      exact ⟨rfl, before, made, hbefore, hm, hmade⟩
    · rw [hother app hid] at hafter
      exact absurd hafter hbefore

theorem MadeBy.keeps (h : MadeBy O app T) {id : AppId}
    {change : Application → Except Fault Application}
    (hno : (∃ e, Call.Writes (.message e) (.changeApp id change)) ∨
      Action.Notes (.changeApp id change)) (hbefore : ¬ O (w.store.apps.get? app)) :
    ¬ O ((w.perform (.changeApp id change)).2.store.apps.get? app) := by
  intro hafter
  obtain ⟨-, a, b, hoa, hb, hob⟩ := h.changeApp hbefore hafter
  exact hoa (h.order a b (keeps_order hno hb) hob)

theorem MadeBy.perform (h : MadeBy O app T) {action : Action} {wrote : Prop}
    (ha : action.Quiet ∨ wrote ∧ c.Writes action ∨ action.Notes)
    (hbefore : ¬ O (w.store.apps.get? app))
    (hafter : O ((w.perform action).2.store.apps.get? app)) : wrote ∧ T c := by
  rcases ha with hquiet | ⟨hwrote, hwrites⟩ | hnotes
  · rw [w.perform_quiet hquiet] at hafter
    exact absurd hafter hbefore
  · refine ⟨hwrote, ?_⟩
    cases hwrites with
    | create b =>
      by_cases hid : app = b.id
      · subst hid
        have hself : (w.store.apps.put b.id b).get? b.id = some b := Table.get?_put_self _ _ _
        exact h.create b rfl (hself ▸ hafter)
      · have hother := Table.get?_put_of_ne w.store.apps b hid
        exact absurd (hother ▸ hafter) hbefore
    | update id u =>
      obtain ⟨rfl, a, b, hoa, hb, hob⟩ := h.changeApp hbefore hafter
      exact h.update u a b hoa hb hob
    | delete id =>
      by_cases hid : app = id
      · subst hid
        have hself : (w.store.apps.erase app).get? app = none := Table.get?_erase_self _ _
        exact h.delete (hself ▸ hafter)
      · have hother := Table.get?_erase_of_ne w.store.apps hid
        exact absurd (hother ▸ hafter) hbefore
    | adjust e id counts => exact absurd hafter (h.keeps (.inl ⟨e, .adjust e id counts⟩) hbefore)
    | scaleUp e id target => exact absurd hafter (h.keeps (.inl ⟨e, .scaleUp e id target⟩) hbefore)
  · cases hnotes with
    | verdict id mark hm => exact absurd hafter (h.keeps (.inr (.verdict id mark hm)) hbefore)
    | routesPushed id => exact absurd hafter (h.keeps (.inr (.routesPushed id)) hbefore)

end

namespace Fleet

section

variable (config : Config) (w : World) (es : List Event)

def appAt (n : Nat) (app : AppId) : Option Application :=
  (run config (start w) (es.take n)).apps.get? app

/-- After the first `n` events an application is stored and is as `Q` says. -/
def AppIs (n : Nat) (app : AppId) (Q : Application → Prop) : Prop :=
  Is Q (appAt config w es n app)

def IsTurnOf (n : Nat) (T : Call → Prop) : Prop :=
  ∃ i c, es[n]? = some (.turn i) ∧ (run config (start w) (es.take n)).call? i = some c ∧ T c

def Loses (n : Nat) (app : AppId) (Q : Application → Prop) (T : Call → Prop) : Prop :=
  AppIs config w es n app Q ∧ ¬ AppIs config w es (n + 1) app Q ∧ IsTurnOf config w es n T

def Gains (n : Nat) (app : AppId) (Q : Application → Prop) (T : Call → Prop) : Prop :=
  ¬ AppIs config w es n app Q ∧ AppIs config w es (n + 1) app Q ∧ IsTurnOf config w es n T

/-- Whatever calls took from an application after the first `k` events, other calls gave back
later. -/
def MadeGood (k : Nat) (app : AppId) (Q : Application → Prop) (Takes Gives : Call → Prop) : Prop :=
  ∀ j, k ≤ j → j < es.length → Loses config w es j app Q Takes →
    ∃ l, j < l ∧ l < es.length ∧ Gains config w es l app Q Gives

def TakenBack (k : Nat) (app : AppId) (Q : Application → Prop) (Takes Gives : Call → Prop) : Prop :=
  ∀ j, k ≤ j → j < es.length → Gains config w es j app Q Gives →
    ∃ l, j < l ∧ l < es.length ∧ Loses config w es l app Q Takes

end

variable {config : Config} {w : World} {es : List Event} {app : AppId} {Q : Application → Prop}
  {Takes Gives : Call → Prop} {O : Option Application → Prop}

theorem isTurnOf_of_madeBy {T : Call → Prop} (h : MadeBy O app T)
    (hw : w.store.apps.Holds fun _ => True) {n : Nat} (hn : n < es.length)
    (hbefore : ¬ O (appAt config w es n app)) (hafter : O (appAt config w es (n + 1) app)) :
    IsTurnOf config w es n T := by
  have htake : es.take (n + 1) = es.take n ++ [es[n]] := by
    rw [List.take_add_one, List.getElem?_eq_getElem hn, Option.toList_some]
  rw [appAt, htake, run_snoc] at hafter
  rcases step_apps config (run config (start w) (es.take n)) es[n] with
    ⟨i, t, action, he, ht, ha, heq⟩ | heq
  · rw [heq] at hafter
    obtain ⟨g, -, hobeys⟩ := run_obeys hw (es.take n) ht
    refine ⟨i, t.call, by rw [List.getElem?_eq_getElem hn, he], by simp [call?, ht], ?_⟩
    exact (h.perform (hobeys.allows ha).1.apps hbefore hafter).2
  · rw [heq] at hafter
    exact absurd hafter hbefore

/-- What is otherwise at the end came to be so in between. -/
theorem comes_of_end {T : Call → Prop} (h : MadeBy O app T) (hw : w.store.apps.Holds fun _ => True)
    {m : Nat} (hm : m ≤ es.length) (hnot : ¬ O (appAt config w es m app))
    (hend : O (appAt config w es es.length app)) :
    ∃ l, m ≤ l ∧ l < es.length ∧ ¬ O (appAt config w es l app) ∧
      O (appAt config w es (l + 1) app) ∧ IsTurnOf config w es l T := by
  have hlt : m < es.length := by
    refine Nat.lt_of_le_of_ne hm fun heq => hnot ?_
    rw [heq]
    exact hend
  by_cases hnext : O (appAt config w es (m + 1) app)
  · exact ⟨m, Nat.le_refl m, hlt, hnot, hnext, isTurnOf_of_madeBy h hw hlt hnot hnext⟩
  · obtain ⟨l, hml, hl, hcomes⟩ := comes_of_end h hw hlt hnext hend
    exact ⟨l, by omega, hl, hcomes⟩
termination_by es.length - m

/-- From one moment at which it holds to the end, past every change to where that was undone. -/
theorem holds_at_end (h : MadeBy (¬ O ·) app Takes) (hw : w.store.apps.Holds fun _ => True) {k m : Nat}
    (hundone : ∀ j, k ≤ j → j < es.length → O (appAt config w es j app) →
      ¬ O (appAt config w es (j + 1) app) → IsTurnOf config w es j Takes →
      ∃ l, j < l ∧ l < es.length ∧ O (appAt config w es (l + 1) app))
    (hkm : k ≤ m) (hm : m ≤ es.length) (his : O (appAt config w es m app)) :
    O (appAt config w es es.length app) := by
  by_cases heq : m = es.length
  · exact heq ▸ his
  · have hlt : m < es.length := by omega
    by_cases hnext : O (appAt config w es (m + 1) app)
    · exact holds_at_end h hw hundone (by omega) hlt hnext
    · have hturn := isTurnOf_of_madeBy h hw hlt (not_not_intro his) hnext
      obtain ⟨l, hml, hl, hback⟩ := hundone m hkm hlt his hnext hturn
      exact holds_at_end h hw hundone (by omega) hl hback
termination_by es.length - m

/-- What holds at one moment holds at the end exactly if every call that changed it since was followed
by one that undid that. -/
theorem holds_iff_undone (takes : MadeBy (¬ O ·) app Takes) (gives : MadeBy O app Gives)
    (hw : w.store.apps.Holds fun _ => True) {k : Nat} (hk : k ≤ es.length)
    (his : O (appAt config w es k app)) : O (appAt config w es es.length app) ↔
      ∀ j, k ≤ j → j < es.length → O (appAt config w es j app) →
        ¬ O (appAt config w es (j + 1) app) → IsTurnOf config w es j Takes →
        ∃ l, j < l ∧ l < es.length ∧ ¬ O (appAt config w es l app) ∧
          O (appAt config w es (l + 1) app) ∧ IsTurnOf config w es l Gives := by
  constructor
  · rintro hend j - hj - hlost -
    obtain ⟨l, hjl, hl, hcomes⟩ := comes_of_end gives hw hj hlost hend
    exact ⟨l, hjl, hl, hcomes⟩
  · intro hundone
    refine holds_at_end takes hw (fun j hkj hj hwas hlost hturn => ?_) (Nat.le_refl k) hk his
    obtain ⟨l, hjl, hl, -, hback, -⟩ := hundone j hkj hj hwas hlost hturn
    exact ⟨l, hjl, hl, hback⟩

theorem appIs_iff_madeGood (h : OrderedBy Q app Takes Gives) (hw : w.store.apps.Holds fun _ => True)
    {k : Nat} (hk : k ≤ es.length) (his : AppIs config w es k app Q) :
    AppIs config w es es.length app Q ↔ MadeGood config w es k app Q Takes Gives := by
  simp only [MadeGood, Loses, Gains, and_imp]
  exact holds_iff_undone h.takes h.gives hw hk his

theorem not_appIs_iff_takenBack (h : OrderedBy Q app Takes Gives)
    (hw : w.store.apps.Holds fun _ => True) {k : Nat} (hk : k ≤ es.length)
    (hnot : ¬ AppIs config w es k app Q) :
    ¬ AppIs config w es es.length app Q ↔ TakenBack config w es k app Q Takes Gives := by
  have hgives : MadeBy (¬ ¬ Is Q ·) app Gives := by simpa only [not_not] using h.gives
  have hiff := holds_iff_undone hgives h.takes hw hk hnot
  simp only [not_not] at hiff
  simp only [TakenBack, Loses, Gains, and_imp]
  exact hiff

/-- At a turn of its own a task looked up what was stored under an id. -/
def Finds (config : Config) (s : Fleet) (es : List Event) (i : Nat) (app : AppId)
    (found : Option Application) : Prop :=
  ∃ past, past ++ [.turn i] <+: es ∧ (run config s past).next? i = some (.findApp app) ∧
    (run config s past).apps.get? app = found

variable {s : Fleet} {i : Nat} {found : Option Application}

theorem Finds.snoc (h : Finds config s es i app found) (e : Event) :
    Finds config s (es ++ [e]) i app found := by
  obtain ⟨past, hpast, hlooked⟩ := h
  exact ⟨past, hpast.trans (List.prefix_append es [e]), hlooked⟩

theorem finds_turn (hnext : (run config s es).next? i = some (.findApp app)) :
    Finds config s (es ++ [.turn i]) i app ((run config s es).world.perform (.findApp app)).1 :=
  ⟨es, List.prefix_refl _, hnext, rfl⟩

theorem Finds.at_turn (h : Finds config (start w) es i app found) :
    ∃ k < es.length, es[k]? = some (.turn i) ∧
      (run config (start w) (es.take k)).next? i = some (.findApp app) ∧
      appAt config w es k app = found := by
  obtain ⟨past, hpast, hlooked, hfound⟩ := h
  obtain ⟨hlt, hturn, htake, -⟩ := at_of_past hpast
  rw [← htake] at hlooked hfound
  exact ⟨past.length, hlt, hturn, hlooked, hfound⟩

end Fleet

end AppFleet
