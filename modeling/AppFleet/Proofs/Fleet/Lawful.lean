import AppFleet.Proofs.Fleet.Stored

/-! Stored applications are lawful: whatever calls, commands, signals and verdicts come, and in
whatever order their turns are taken, no stored application is one that its lifecycle could not have
made. -/

namespace AppFleet

def Operation.Reaches (a : Application) : Prop :=
  ∃ id name ops, run (.new id name) ops = a

theorem Operation.Reaches.lawful {a : Application} (h : Reaches a) : a.Lawful := by
  obtain ⟨id, name, ops, rfl⟩ := h
  exact run_lawful (Application.new_lawful id name) ops

theorem Respondent.adjusted_lawful {counts : AdjustInstances} {a b : Application} (ha : a.Lawful)
    (h : adjusted counts a = .ok b) : b.Lawful := by
  unfold adjusted at h
  split at h
  · cases h
    exact ha
  · exact Application.apply_lawful ha h

theorem lasting_lawful : Lasting Application.Lawful := by
  intro c app change hchange a b updatedAt ha hb
  refine Application.Lawful.of_routes ?_ b.routes b.routesPending updatedAt
  rcases hchange with hwrites | hnotes
  · cases hwrites with
    | update app u => exact Application.apply_lawful ha hb
    | adjust e app counts => exact Respondent.adjusted_lawful ha hb
    | scaleUp e app target => exact Application.apply_lawful ha hb
  · cases hnotes with
    | verdict app mark hm => exact hm.lawful ha hb
    | routesPushed app =>
      cases hb
      exact Application.routesPushed_lawful ha

namespace Fleet

/-- Every run of operations on a new application, and every run of a fleet whose applications began as
such runs, leaves lawful applications, which start, stop and restage whenever they are told to. -/
theorem lawful_throughout :
    (∀ id name ops, (Operation.run (.new id name) ops).Lawful ∧
      (Operation.run (.new id name) ops).Unhindered) ∧
    ∀ (config : Config) (w : World) (es : List Event), w.store.apps.Holds Operation.Reaches →
      (∀ a, Event.call (.create a) ∈ es → Operation.Reaches a) →
      ∀ app a, (run config (start w) es).apps.get? app = some a → a.Lawful ∧ a.Unhindered := by
  constructor
  · intro id name ops
    have hlawful := Operation.run_lawful (Application.new_lawful id name) ops
    exact ⟨hlawful, hlawful.unhindered⟩
  · intro config w es hw hes app a ha
    have hbegin : w.store.apps.Holds Application.Lawful := fun id b hb =>
      ⟨(hw id b hb).1, (hw id b hb).2.lawful⟩
    have hbrings (c : Call) (hc : Event.call c ∈ es) : c.Brings Application.Lawful := by
      cases c with
      | create b => exact (hes b hc).lawful
      | _ => trivial
    have hlawful := ((run_conduct lasting_lawful hbegin es hbrings).1 app a ha).2
    exact ⟨hlawful, hlawful.unhindered⟩

def createAndGrow : List Event :=
  [.call (.create (Operation.run (.new "web" "web") [.start, .restage])), .turn 0, .turn 0,
    .call (.update "web" (.ofInstances 3)), .turn 1]

theorem lawful_throughout_web :
    ∃ a, (run .default (start (.initial 0 0 0)) createAndGrow).apps.get? "web" = some a ∧
      a.instances = 3 ∧ a.generation = 2 ∧ a.Lawful ∧ a.Unhindered := by
  have hstored : (run .default (start (.initial 0 0 0)) createAndGrow).apps.get? "web" =
      some { Operation.run (.new "web" "web") [.start, .restage] with instances := 3 } := rfl
  refine ⟨_, hstored, rfl, rfl, ?_⟩
  refine lawful_throughout.2 .default (.initial 0 0 0) createAndGrow (Table.holds_empty _) ?_ _ _
    hstored
  intro a ha
  have heq : a = Operation.run (.new "web" "web") [.start, .restage] := by
    simpa [createAndGrow] using ha
  exact ⟨"web", "web", _, heq.symm⟩

end Fleet

end AppFleet
