import AppFleet.Proofs.Activity.Course
import AppFleet.Proofs.Fleet.Changes

/-! Creations. A creation looks whether its id is taken at one turn and stores its application at another,
and nobody looks again in between. What it stores replaces nothing exactly if all that others created
under the id meanwhile was deleted again. -/

namespace AppFleet

open Activity

def Call.Creates (app : AppId) : Call → Prop
  | .create a => a.id = app
  | _ => False

/-- How a creation goes. If its id is taken it does nothing but look; otherwise it stores what it was
called for, and succeeds whatever comes of that. -/
inductive ControlPlane.Creation (a : Application) :
    List Step → Except PlaneError Application → Prop where
  | refused {w : World} {b : Application} : w.store.apps.get? a.id = some b →
      (w.perform (.findApp a.id)).2 = w →
      Creation a [.act w (.findApp a.id)] (.error (.alreadyThere a.id))
  | stored {w w' : World} {rest : List Step} : w.store.apps.get? a.id = none →
      Creation a (.act w (.findApp a.id) :: .act w' (.putApp a) :: rest) (.ok a)

theorem ControlPlane.create_goes {config : Config} {a : Application} {steps : List Step}
    {answer : Except PlaneError Application} (h : (create config a).Goes steps answer) :
    Creation a steps answer := by
  obtain ⟨own, rest, found, rfl, hown, hrest⟩ := (goes_bind _ _ _).1 h
  obtain ⟨w, rfl, rfl⟩ := (goes_perform _ _).1 hown
  cases hfound : w.store.apps.get? a.id with
  | some b =>
    have hanswer : (w.perform (.findApp a.id)).1 = some b := hfound
    rw [hanswer] at hrest
    obtain ⟨rfl, rfl⟩ := hrest
    exact .refused hfound rfl
  | none =>
    have hanswer : (w.perform (.findApp a.id)).1 = none := hfound
    rw [hanswer] at hrest
    obtain ⟨put, later, u, rfl, hput, hlater⟩ := (goes_bind _ _ _).1 hrest
    obtain ⟨w', rfl, -⟩ := (goes_perform _ _).1 hput
    obtain ⟨reaction, -, rfl⟩ := (goes_bind_pure _ _ _).1 hlater
    exact .stored hfound

def Action.missing (before : Option AppId) : (action : Action) → action.Answer → Option AppId
  | .findApp app, none => some app
  | .findApp _, some _ => none
  | _, _ => before

def Call.looking (c : Call) : Monitor (Option AppId) where
  allows missing action := action.Quiet ∨ action.Notes ∨ c.Writes action ∧
    ∀ a, action = .putApp a → missing = some a.id
  after missing action answer missing' :=
    action.MayAnswer answer ∧ missing' = action.missing missing answer
  asked missing _ := missing
  answers _ := True
  surveys _ _ := True
  ends _ := True

variable {config : Config} {c : Call}

theorem Call.conduct_implies_looking :
    (c.conduct config).Implies c.looking fun g _ => (∃ a, c = .create a) → g.stored ≠ [] where
  allows g missing action hrel hallows := by
    rcases hallows.1.apps with hquiet | ⟨hnone, hwrites⟩ | hnotes
    · exact .inl hquiet
    · refine .inr (.inr ⟨hwrites, ?_⟩)
      rintro a rfl
      cases hwrites
      exact absurd hnone (hrel ⟨a, rfl⟩)
    · exact .inr (.inl hnotes)
  after g missing action answer missing' hrel hafter :=
    ⟨g.did action answer, ⟨hafter.1, rfl⟩, fun hcreate => by simp [Doings.did, hrel hcreate]⟩
  asked g missing r hrel := hrel
  answers _ _ := trivial
  surveys _ _ _ _ _ := trivial

theorem ControlPlane.looking_create (a : Application) :
    (create config a).Obeys (Call.create a).looking (fun _ _ => True) none := by
  refine obeys_perform.2 ⟨.inl trivial, ?_⟩
  rintro found missing ⟨-, rfl⟩
  cases found with
  | some b => trivial
  | none =>
    refine obeys_perform.2 ⟨.inr (.inr ⟨.create a, ?_⟩), fun _ missing _ => ?_⟩
    · rintro b ⟨⟩
      rfl
    · have hobserve : (Dispatch.observe config.staging (.created a)).Obeys
          ((Call.create a).conduct config) _ _ := Dispatch.obeys_observe_wrote rfl (wrote_create a)
      exact (hobserve.implied Call.conduct_implies_looking fun _ => by simp [Doings.wrote]).bind
        fun _ _ _ => trivial

theorem Call.obeys_looking (c : Call) :
    (c.activity config).Obeys c.looking (fun _ _ => True) none := by
  by_cases hcreate : ∃ a, c = .create a
  · obtain ⟨a, rfl⟩ := hcreate
    exact (ControlPlane.looking_create a).bind fun _ _ _ => trivial
  · exact (c.obeys_conduct.implied conduct_implies_looking fun h => absurd h hcreate).mono
      fun _ _ _ => trivial

namespace Fleet

variable {w : World} {es : List Event} {i : Nat}

def FoundMissing (config : Config) (s : Fleet) (es : List Event) (i : Nat) (_ : Call)
    (_ : List Request) (missing : Option AppId) : Prop :=
  ∀ app, missing = some app → Finds config s es i app none

theorem FoundMissing.snoc {s : Fleet} {asked asked' : List Request} {missing : Option AppId}
    (h : FoundMissing config s es i c asked missing) (e : Event) :
    FoundMissing config s (es ++ [e]) i c asked' missing :=
  fun app happ => (h app happ).snoc e

theorem tracks_looking (w : World) : Tracks config (start w) (fun _ => True) Call.looking
    (Table.Holds fun _ => True) (FoundMissing config (start w)) := by
  refine ⟨fun _ _ => trivial, ?_, ?_, ?_, ?_⟩
  · intro es c _
    refine ⟨none, ?_, c.obeys_looking⟩
    rintro app ⟨⟩
  · exact fun es e i c asked missing _ h => h.snoc e
  · intro es i t missing action ht ha hI hR hallows
    obtain ⟨hholds, hanswer⟩ := Call.perform_own hallows hI
    refine ⟨hholds, _, ⟨hanswer, rfl⟩, ?_⟩
    have hkept : FoundMissing config (start w) (es ++ [.turn i]) i t.call t.asked missing :=
      hR.snoc (.turn i)
    cases action with
    | findApp app =>
      intro app' happ
      have hlooked : (run config (start w) es).next? i = some (.findApp app) := by
        simp [next?, ht, ha]
      have hfinds := finds_turn hlooked
      cases hfound : ((run config (start w) es).world.perform (.findApp app)).1 with
      | some b =>
        rw [hfound] at happ
        cases happ
      | none =>
        rw [hfound] at happ hfinds
        cases happ
        exact hfinds
    | _ => exact hkept
  · exact fun es i c asked missing r _ h => h.snoc (.turn i)

/-- What a creation stores is what it was called for, and nothing was found under its id at an earlier
turn. -/
theorem put_of_missing (hw : w.store.apps.Holds fun _ => True) {a b : Application}
    (hc : (run config (start w) es).call? i = some (.create a))
    (hnext : (run config (start w) es).next? i = some (.putApp b)) :
    b = a ∧ ∃ k, k < es.length ∧ es[k]? = some (.turn i) ∧
      (run config (start w) (es.take k)).next? i = some (.findApp a.id) ∧
      appAt config w es k a.id = none := by
  obtain ⟨t, ht, hcall⟩ := Option.map_eq_some_iff.1 hc
  obtain ⟨t', ht', haction⟩ := Option.bind_eq_some_iff.1 hnext
  cases ht.symm.trans ht'
  obtain ⟨missing, hmissing, hobeys⟩ := ((tracks_looking w).run rfl hw es fun _ _ => trivial).2 i t ht
  rw [hcall] at hobeys
  rcases hobeys.allows haction with hquiet | hnotes | ⟨hwrites, hlooked⟩
  · exact hquiet.elim
  · cases hnotes
  · cases hwrites
    exact ⟨rfl, (hmissing a.id (hlooked a rfl)).at_turn⟩

/-- Applications come to be stored by creations alone, and to be stored no longer by deletions. -/
theorem stored_orderedBy (app : AppId) :
    OrderedBy (fun _ => True) app (· = .delete app) (·.Creates app) := by
  constructor
  · exact ⟨by simp, by simp, by simp, fun _ => rfl⟩
  · exact ⟨by simp, fun _ hid _ => hid, by simp, by simp⟩

/-- A creation whose id is taken fails, and does nothing but look. Any other succeeds, and stores
what it was called for after nothing was found under the id at an earlier turn of its own. What it
replaces is nothing exactly if whatever others created under the id since was deleted again. -/
theorem create_replaces_none_iff (hw : w.store.apps.Holds fun _ => True) {a b : Application}
    (hc : (run config (start w) es).call? i = some (.create a))
    (hnext : (run config (start w) es).next? i = some (.putApp b)) :
    (∀ steps answer, (ControlPlane.create config a).Goes steps answer →
      ControlPlane.Creation a steps answer) ∧
    b = a ∧ (run config (start w) (es ++ [.turn i])).apps.get? a.id = some a ∧
    ∃ k, k < es.length ∧ es[k]? = some (.turn i) ∧
      (run config (start w) (es.take k)).next? i = some (.findApp a.id) ∧
      appAt config w es k a.id = none ∧
      ((run config (start w) es).apps.get? a.id = none ↔
        TakenBack config w es k a.id (fun _ => True) (· = .delete a.id) (·.Creates a.id)) := by
  obtain ⟨rfl, k, hk, hturn, hlooked, hnone⟩ := put_of_missing hw hc hnext
  refine ⟨fun steps answer => ControlPlane.create_goes, rfl, ?_, k, hk, hturn, hlooked, hnone, ?_⟩
  · rw [run_snoc, apps_turn, hnext]
    exact Table.get?_put_self _ _ _
  · have hnot : ¬ AppIs config w es k b.id fun _ => True := by
      rw [AppIs, hnone]
      exact is_none
    rw [← not_appIs_iff_takenBack (stored_orderedBy b.id) hw (Nat.le_of_lt hk) hnot, AppIs, appAt,
      List.take_length]
    cases (run config (start w) es).apps.get? b.id <;> simp

/-- Two creations of one application look before either stores it, and the second one stores it
first. -/
def createTwice : List Event :=
  [.call (.create (.new "web" "web")), .turn 0, .call (.create (.new "web" "web")), .turn 1, .turn 1]

theorem create_replaces_none_iff_web :
    let es := createTwice ++ [.call (.delete "web"), .turn 2]
    (run .default (start (.initial 0 0 0)) es).apps.get? "web" = none ∧
    ∃ k, es[k]? = some (.turn 0) ∧ TakenBack .default (.initial 0 0 0) es k "web" (fun _ => True)
      (· = .delete "web") (·.Creates "web") := by
  intro es
  have hc : (run .default (start (.initial 0 0 0)) es).call? 0 =
      some (.create (.new "web" "web")) := rfl
  have hnext : (run .default (start (.initial 0 0 0)) es).next? 0 =
      some (.putApp (.new "web" "web")) := rfl
  have hnone : (run .default (start (.initial 0 0 0)) es).apps.get? "web" = none := rfl
  obtain ⟨-, -, -, k, -, hk, -, -, hiff⟩ := create_replaces_none_iff (Table.holds_empty _) hc hnext
  exact ⟨hnone, k, hk, hiff.1 hnone⟩

/-- The other creation has succeeded and its application was scaled when the first one stores. -/
theorem create_replaces : ¬ ∀ (config : Config) (w : World) (es : List Event) (i : Nat)
    (a b : Application), w.store.apps.Holds (fun _ => True) →
    (run config (start w) es).call? i = some (.create a) →
    (run config (start w) es).next? i = some (.putApp b) →
    (run config (start w) es).apps.get? a.id = none := by
  intro h
  let es := createTwice ++ [.call (.update "web" (.ofInstances 3)), .turn 2]
  have hnone := h .default (.initial 0 0 0) es 0 (.new "web" "web") (.new "web" "web")
    (Table.holds_empty _) rfl rfl
  have hscaled : ((run .default (start (.initial 0 0 0)) es).apps.get?
      (Application.new "web" "web").id).map (·.instances) = some 3 := rfl
  rw [hnone] at hscaled
  cases hscaled

end Fleet

end AppFleet
