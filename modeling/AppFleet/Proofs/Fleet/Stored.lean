import AppFleet.Proofs.Dispatch.Calls

/-! What the runs of a fleet store. An application stays under its own id, and what every write and
every note keeps holds of all that is stored; what a call wrote was stored at one of its own turns. -/

namespace AppFleet

variable {P : Application → Prop} {config : Config} {c : Call} {w : World}

/-- Every application is stored under its own id, and is as `P` says. -/
def Table.Holds (P : Application → Prop) (t : Table Application) : Prop :=
  ∀ id a, t.get? id = some a → a.id = id ∧ P a

theorem Table.holds_empty (P : Application → Prop) : (empty : Table Application).Holds P := by
  intro id a h
  simp at h

theorem Table.Holds.own {t : Table Application} (h : t.Holds P) : t.Holds fun _ => True :=
  fun id a ha => ⟨(h id a ha).1, trivial⟩

theorem Table.Holds.put {t : Table Application} (h : t.Holds P) {a : Application} (ha : P a) :
    (t.put a.id a).Holds P := by
  intro id b hb
  by_cases hid : id = a.id
  · subst hid
    rw [get?_put_self] at hb
    cases hb
    exact ⟨rfl, ha⟩
  · rw [get?_put_of_ne _ _ hid] at hb
    exact h id b hb

theorem Table.Holds.erase {t : Table Application} (h : t.Holds P) (app : AppId) :
    (t.erase app).Holds P := by
  intro id b hb
  by_cases hid : id = app
  · subst hid
    simp at hb
  · rw [get?_erase_of_ne _ hid] at hb
    exact h id b hb

/-- What no write and no note takes from an application. -/
def Lasting (P : Application → Prop) : Prop :=
  ∀ c app change, Call.Writes c (.changeApp app change) ∨ Action.Notes (.changeApp app change) →
    ∀ a b updatedAt, P a → change a = .ok b → P { b with updatedAt }

theorem lasting_true : Lasting fun _ => True := fun _ _ _ _ _ _ _ _ _ => trivial

def Call.Brings (P : Application → Prop) : Call → Prop
  | .create a => P a
  | _ => True

theorem Call.brings_true (c : Call) : c.Brings fun _ => True := by cases c <;> trivial

theorem Store.changeApp_cases (s : Store) (now : UInt64) (id : AppId)
    (change : Application → Except Fault Application) :
    (∃ before r, s.apps.get? id = some before ∧ change before = .error r ∧
      s.changeApp now id change = (.error r, s)) ∨
    (s.apps.get? id = none ∧ s.changeApp now id change = (.ok none, s)) ∨
    ∃ before made after, s.apps.get? id = some before ∧ change before = .ok made ∧
      after = { made with updatedAt := after.updatedAt } ∧
      (s.changeApp now id change).1 = .ok (some (.updated before after)) ∧
      (s.changeApp now id change).2.apps.get? id = some after ∧
      ∀ other, other ≠ id → (s.changeApp now id change).2.apps.get? other = s.apps.get? other := by
  unfold changeApp
  cases hb : s.apps.get? id with
  | none => exact .inr (.inl ⟨rfl, rfl⟩)
  | some before =>
    cases hm : change before with
    | error r => exact .inl ⟨before, r, rfl, hm, by simp [hm]⟩
    | ok made =>
      refine .inr (.inr ⟨before, made, ?_⟩)
      by_cases heq : made = before
      · subst heq
        exact ⟨made, rfl, hm, rfl, by simp [hm], by simp [hm, hb], by simp [hm]⟩
      · refine ⟨{ made with updatedAt := now }, rfl, hm, rfl, by simp [hm, heq], by simp [hm, heq], ?_⟩
        intro other hne
        simp [hm, heq, Table.get?_put_of_ne _ _ hne]

theorem World.perform_quiet {action : Action} (h : action.Quiet) (w : World) :
    (w.perform action).2.store.apps = w.store.apps := by
  cases action <;> first | rfl | exact h.elim

theorem Action.Quiet.mayAnswer {action : Action} (h : action.Quiet) (answer : action.Answer) :
    action.MayAnswer answer := by
  cases action <;> first | exact h.elim | trivial

namespace Call

theorem keeps_id {app : AppId} {change : Application → Except Fault Application}
    (h : c.Writes (.changeApp app change) ∨ Action.Notes (.changeApp app change)) {a b : Application}
    (hb : change a = .ok b) : b.id = a.id := by
  rcases h with h | h
  · cases h with
    | update app u => exact Application.apply_id hb
    | adjust e app counts =>
      simp only [Respondent.adjusted] at hb
      split at hb
      · cases hb
        rfl
      · exact Application.apply_id hb
    | scaleUp e app target => exact Application.apply_id hb
  · cases h with
    | verdict app mark hm => exact hm.id hb
    | routesPushed app => cases hb; rfl

theorem changeApp_holds {app : AppId} {change : Application → Except Fault Application}
    (hP : Lasting P)
    (h : c.Writes (.changeApp app change) ∨ Action.Notes (.changeApp app change))
    (hw : w.store.apps.Holds P) :
    (w.perform (.changeApp app change)).2.store.apps.Holds P ∧
      Action.MayAnswer (.changeApp app change) (w.perform (.changeApp app change)).1 ∧
      ∀ a ∈ Action.stored (.changeApp app change) (w.perform (.changeApp app change)).1,
        (w.perform (.changeApp app change)).2.store.apps.get? a.id = some a := by
  simp only [World.perform, Action.MayAnswer, Action.stored]
  rcases w.store.changeApp_cases w.wallClock app change with ⟨_, r, -, -, heq⟩ | ⟨-, heq⟩ |
    ⟨before, made, after, hb, hm, ha, hanswer, hself, hother⟩
  · simp [heq, hw]
  · refine ⟨by simpa [heq] using hw, fun d hd => ?_, by simp [heq]⟩
    rw [heq] at hd
    cases hd
  · have hid : after.id = app := by
      rw [ha]
      exact (keeps_id h hm).trans (hw app before hb).1
    refine ⟨?_, ?_, ?_⟩
    · intro id b hstored
      by_cases hne : id = app
      · subst hne
        cases hself.symm.trans hstored
        refine ⟨hid, ?_⟩
        rw [ha]
        exact hP c id change h before made _ (hw id before hb).2 hm
      · exact hw id b ((hother id hne).symm.trans hstored)
    · intro d hd
      cases hanswer.symm.trans hd
      exact ⟨before, made, after, (hw app before hb).1, hid, hm, ha, rfl⟩
    · intro a hstored
      simp only [hanswer, Diff.updated, Option.toList, List.mem_singleton] at hstored
      rw [hstored, hid]
      exact hself

theorem perform_holds {action : Action} (hP : Lasting P) (hc : c.Brings P)
    (ha : action.Quiet ∨ c.Writes action ∨ action.Notes) (hw : w.store.apps.Holds P) :
    (w.perform action).2.store.apps.Holds P ∧ action.MayAnswer (w.perform action).1 ∧
      ∀ a ∈ action.stored (w.perform action).1,
        (w.perform action).2.store.apps.get? a.id = some a := by
  rcases ha with hquiet | ha
  · rw [w.perform_quiet hquiet, hquiet.stored]
    exact ⟨hw, hquiet.mayAnswer _, by simp⟩
  · cases action with
    | putApp a =>
      rcases ha with hwrites | hnotes
      · cases hwrites
        refine ⟨hw.put hc, trivial, fun b hb => ?_⟩
        cases List.mem_singleton.1 hb
        exact Table.get?_put_self _ _ _
      · cases hnotes
    | removeApp app => exact ⟨hw.erase app, trivial, by simp [Action.stored]⟩
    | changeApp app change => exact changeApp_holds hP ha hw
    | _ => rcases ha with h | h <;> cases h

/-- Every write leaves applications under their own ids, whatever else a monitor asks of it. -/
theorem perform_own {p : Prop} {action : Action}
    (ha : action.Quiet ∨ action.Notes ∨ c.Writes action ∧ p)
    (hw : w.store.apps.Holds fun _ => True) :
    ((w.perform action).2.store.apps.Holds fun _ => True) ∧
      action.MayAnswer (w.perform action).1 := by
  obtain ⟨hholds, hanswer, -⟩ :=
    perform_holds lasting_true c.brings_true (ha.imp_right fun h => h.symm.imp_left And.left) hw
  exact ⟨hholds, hanswer⟩

end Call

namespace Fleet

def stores (i : Nat) (s : Fleet) : Event → List Application
  | .turn j => if j = i then (s.next? i).elim [] fun a => a.stored (s.world.perform a).1 else []
  | _ => []

/-- What is known of a call in a run: all that it did it did at turns of its own, and it last asked the
last of its requests. -/
structure Recorded (P : Application → Prop) (config : Config) (s : Fleet) (es : List Event) (i : Nat)
    (c : Call) (asked : List Request) (g : Doings) : Prop where
  brings : c.Brings P
  stored : g.stored = log (stores i) config s es
  own : ∀ a ∈ g.stored, ∃ past, past ++ [.turn i] <+: es ∧
    (run config s (past ++ [.turn i])).apps.get? a.id = some a
  asked : asked.getLast? = g.asked
  read : ∀ r ∈ g.read, ∃ past, past <+: es ∧ r ∈ (run config s past).world.store.ledger.toList
  told : ∀ payload ∈ g.told, ∃ past, past ++ [.turn i] <+: es ∧
    (run config s past).next? i = some (.publish Subject.routerUpdate payload)

variable {s : Fleet}

theorem stores_turn {i : Nat} {action : Action} (h : s.next? i = some action) :
    stores i s (.turn i) = action.stored (s.world.perform action).1 := by
  simp [stores, h]

theorem stores_of_not {i : Nat} {e : Event} (h : e = .turn i → s.next? i = none) :
    stores i s e = [] := by
  cases e with
  | turn j =>
    by_cases hj : j = i
    · simp [stores, hj, h (hj ▸ rfl)]
    · simp [stores, hj]
  | _ => rfl

theorem Recorded.snoc {es : List Event} {i : Nat} {asked : List Request} {g : Doings}
    (h : Recorded P config s es i c asked g) {e : Event}
    (he : e = .turn i → (run config s es).next? i = none) :
    Recorded P config s (es ++ [e]) i c asked g := by
  have hmore : es <+: es ++ [e] := List.prefix_append es [e]
  refine ⟨h.brings, by simp [h.stored, stores_of_not he], fun a ha => ?_, h.asked, fun r hr => ?_,
    fun payload hp => ?_⟩
  · obtain ⟨past, hpast, hstored⟩ := h.own a ha
    exact ⟨past, hpast.trans hmore, hstored⟩
  · obtain ⟨past, hpast, hread⟩ := h.read r hr
    exact ⟨past, hpast.trans hmore, hread⟩
  · obtain ⟨past, hpast, htold⟩ := h.told payload hp
    exact ⟨past, hpast.trans hmore, htold⟩

theorem length_tasks_le (config : Config) (s : Fleet) (e : Event) :
    s.tasks.length ≤ (step config s e).tasks.length := by
  cases e with
  | call c => simp [step]
  | turn i =>
    simp only [step, takeTurn]
    split <;> simp
  | _ => exact Nat.le_refl _

theorem log_stores_of_le {es : List Event} {i : Nat} (h : (run config s es).tasks.length ≤ i) :
    log (stores i) config s es = [] := by
  induction es using List.reverseRecOn with
  | nil => rfl
  | append_singleton es e ih =>
    rw [run_snoc] at h
    have hbefore := Nat.le_trans (length_tasks_le config (run config s es) e) h
    have hnext : (run config s es).next? i = none := by
      simp [next?, List.getElem?_eq_none hbefore]
    rw [log_snoc, ih hbefore, stores_of_not fun _ => hnext, List.nil_append]

theorem mem_ledger_of_read {w : World} {action : Action} {r : LedgerRecord}
    (h : r ∈ action.read (w.perform action).1) : r ∈ w.store.ledger.toList := by
  cases action with
  | liveRecords => exact (List.mem_filter.1 h).1
  | _ => cases h

theorem Recorded.act {es : List Event} {i : Nat} {t : Task} {g : Doings} {action : Action}
    (h : Recorded P config s es i t.call t.asked g) (ht : (run config s es).tasks[i]? = some t)
    (ha : t.stage.action? (run config s es).now = some action)
    (hstored : ∀ a ∈ action.stored ((run config s es).world.perform action).1,
      ((run config s es).world.perform action).2.store.apps.get? a.id = some a) :
    Recorded P config s (es ++ [.turn i]) i t.call t.asked
      (g.did action ((run config s es).world.perform action).1) := by
  have hmore : es <+: es ++ [.turn i] := List.prefix_append es _
  have hnext : (run config s es).next? i = some action := by simp [next?, ht, ha]
  refine ⟨h.brings, by simp [Doings.did, h.stored, stores_turn hnext], fun a hmem => ?_, h.asked,
    fun r hr => ?_, fun payload hp => ?_⟩
  · rcases List.mem_append.1 hmem with hold | hnew
    · obtain ⟨past, hpast, hwas⟩ := h.own a hold
      exact ⟨past, hpast.trans hmore, hwas⟩
    · refine ⟨es, List.prefix_refl _, ?_⟩
      have happs : (run config s (es ++ [.turn i])).apps =
          ((run config s es).world.perform action).2.store.apps := by
        rw [run_snoc, step, takeTurn, ht]
        exact congrArg (·.store.apps) (Stage.turn_world ha)
      rw [happs]
      exact hstored a hnew
  · rcases List.mem_append.1 hr with hold | hnew
    · obtain ⟨past, hpast, hwas⟩ := h.read r hold
      exact ⟨past, hpast.trans hmore, hwas⟩
    · exact ⟨es, hmore, mem_ledger_of_read hnew⟩
  · rcases List.mem_append.1 hp with hold | hnew
    · obtain ⟨past, hpast, hwas⟩ := h.told payload hold
      exact ⟨past, hpast.trans hmore, hwas⟩
    · exact ⟨es, List.prefix_refl _, by rw [hnext, Action.mem_told_iff.1 hnew]⟩

/-- The first write was stored at a turn of the call's own. -/
theorem Recorded.first {es : List Event} {i : Nat} {asked : List Request} {g : Doings}
    (h : Recorded P config s es i c asked g) (a : Application) (ha : g.stored.head? = some a) :
    ∃ k < es.length, es[k]? = some (.turn i) ∧
      (run config s (es.take (k + 1))).apps.get? a.id = some a := by
  obtain ⟨past, hpast, hstored⟩ := h.own a (List.mem_of_mem_head? ha)
  obtain ⟨hlt, hturn, -, htake⟩ := at_of_past hpast
  exact ⟨past.length, hlt, hturn, by rw [htake]; exact hstored⟩

theorem tracks_conduct (hP : Lasting P) : Tracks config s (Call.Brings P) (Call.conduct config)
    (Table.Holds P) (Recorded P config s) := by
  refine ⟨fun _ _ => trivial, ?_, ?_, ?_, ?_⟩
  · intro es c hc
    have hstored : log (stores (run config s es).tasks.length) config s (es ++ [.call c]) = [] := by
      rw [log_snoc, log_stores_of_le (Nat.le_refl _)]
      rfl
    exact ⟨.none, ⟨hc, hstored.symm, by simp [Doings.none], rfl, by simp [Doings.none],
      by simp [Doings.none]⟩, c.obeys_conduct⟩
  · exact fun es e i c asked g he h => h.snoc he
  · intro es i t g action ht ha hI hR hallows
    obtain ⟨hholds, hanswer, hstored⟩ := Call.perform_holds hP hR.brings
      (hallows.1.apps.imp_right fun h => h.imp_left And.right) hI
    exact ⟨hholds, _, ⟨hanswer, rfl⟩, hR.act ht ha hstored⟩
  · intro es i c asked g r hnone h
    have hsnoc := h.snoc (e := .turn i) fun _ => hnone
    exact ⟨hsnoc.brings, hsnoc.stored, hsnoc.own, by simp [Call.conduct], hsnoc.read, hsnoc.told⟩

theorem run_conduct (hP : Lasting P) (hw : w.store.apps.Holds P) (es : List Event)
    (hes : ∀ c, Event.call c ∈ es → c.Brings P) :
    (run config (start w) es).apps.Holds P ∧ ∀ i t, (run config (start w) es).tasks[i]? = some t →
      ∃ g, Recorded P config (start w) es i t.call t.asked g ∧
        t.stage.Obeys (t.call.conduct config) g :=
  (tracks_conduct (s := start w) hP).run rfl hw es hes

theorem holds_run (hw : w.store.apps.Holds fun _ => True) (es : List Event) :
    (run config (start w) es).apps.Holds fun _ => True :=
  (run_conduct lasting_true hw es fun c _ => c.brings_true).1

/-- Whatever the calls are, as long as applications begin under their own ids. -/
theorem run_obeys (hw : w.store.apps.Holds fun _ => True) (es : List Event) {i : Nat} {t : Task}
    (ht : (run config (start w) es).tasks[i]? = some t) :
    ∃ g, Recorded (fun _ => True) config (start w) es i t.call t.asked g ∧
      t.stage.Obeys (t.call.conduct config) g :=
  (run_conduct lasting_true hw es fun c _ => c.brings_true).2 i t ht

end Fleet

end AppFleet
