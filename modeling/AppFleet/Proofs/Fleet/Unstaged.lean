import AppFleet.Proofs.Dispatch.Alone

/-! Applications that are left unstaged although the stager stages all it is asked about. Creates and
updates come one at a time, so each finds the applications as the last one left them; which of them
wait to be staged is decided by the last call that touched them. -/

namespace AppFleet

namespace Fleet

def answers? (s : Fleet) (i : Nat) : Option Replies :=
  s.tasks[i]?.bind (·.stage.replies? s.now s.world)

/-- Creates and updates, each when all before it have returned. -/
def oneAtATime (s : Fleet) : Event → Bool
  | .call (.create _) | .call (.update ..) => s.allReturned
  | .call _ => false
  | _ => true

def staging (s : Fleet) : Event → Bool
  | .turn i => (s.answers? i).all Staging.staged
  | _ => true

/-- Every event of a run is as `ok` says of it when it comes. -/
def throughout (ok : Fleet → Event → Bool) (config : Config) (s : Fleet) (es : List Event) : Bool :=
  (log (fun s e => [ok s e]) config s es).all id

/-- All tasks are over but the latest, which works on the applications alone. -/
inductive Serial (s : Fleet) (Q : Table Application → Prop) : Prop where
  | fresh : s.tasks = [] → Q s.apps → Serial s Q
  | latest (ended : List Task) (t : Task) : s.tasks = ended ++ [t] →
      (∀ t ∈ ended, t.stage.isFinished) → t.stage.Obeys (.alone Q) s.apps → Serial s Q

section

variable (config : Config) (w : World) (es : List Event)

def CallsAt (n : Nat) (T : Table Application → Call → Prop) : Prop :=
  ∃ c, es[n]? = some (.call c) ∧ T (run config (start w) (es.take n)).apps c

/-- Some call left an application waiting to be staged, and none has touched it since. -/
def LeftUnstaged (app : AppId) : Prop :=
  ∃ n, CallsAt config w es n (Call.Leaves app) ∧
    ∀ m, n < m → ¬ CallsAt config w es m (Call.Touches app)

end

variable {ok : Fleet → Event → Bool} {config : Config} {s : Fleet} {w : World} {es : List Event}
  {e : Event} {Q : Table Application → Prop} {app : AppId}

theorem throughout_snoc : throughout ok config s (es ++ [e]) ↔
    throughout ok config s es ∧ ok (run config s es) e := by
  simp [throughout]

theorem callsAt_snoc {n : Nat} {T : Table Application → Call → Prop} :
    CallsAt config w (es ++ [e]) n T ↔ CallsAt config w es n T ∨
      n = es.length ∧ ∃ c, e = .call c ∧ T (run config (start w) es).apps c := by
  unfold CallsAt
  rcases Nat.lt_trichotomy n es.length with hn | rfl | hn
  · have hne : n ≠ es.length := Nat.ne_of_lt hn
    rw [List.getElem?_append_left hn, List.take_append_of_le_length (Nat.le_of_lt hn)]
    simp [hne]
  · simp
  · have hne : n ≠ es.length := Nat.ne_of_gt hn
    have hbeyond : (es ++ [e])[n]? = none := List.getElem?_eq_none (by simp; omega)
    simp [hbeyond, hne, List.getElem?_eq_none (Nat.le_of_lt hn)]

/-- What is left unstaged after one more event. -/
theorem leftUnstaged_snoc : LeftUnstaged config w (es ++ [e]) app ↔
    (∃ c, e = .call c ∧ c.Leaves app (run config (start w) es).apps) ∨
      LeftUnstaged config w es app ∧
        ¬ ∃ c, e = .call c ∧ c.Touches app (run config (start w) es).apps := by
  have hlt {n : Nat} {T : Table Application → Call → Prop} (h : CallsAt config w es n T) :
      n < es.length := by
    obtain ⟨c, hc, -⟩ := h
    exact (List.getElem?_eq_some_iff.1 hc).1
  simp only [LeftUnstaged, callsAt_snoc]
  constructor
  · rintro ⟨n, hleaves | ⟨rfl, hleaves⟩, hsince⟩
    · refine .inr ⟨⟨n, hleaves, fun m hm h => hsince m hm (.inl h)⟩, fun htouches => ?_⟩
      exact hsince es.length (hlt hleaves) (.inr ⟨rfl, htouches⟩)
    · exact .inl hleaves
  · rintro (hleaves | ⟨⟨n, hleaves, hsince⟩, hnot⟩)
    · refine ⟨es.length, .inr ⟨rfl, hleaves⟩, fun m hm h => ?_⟩
      rcases h with h | ⟨rfl, -⟩
      · exact absurd (hlt h) (by omega)
      · exact absurd hm (Nat.lt_irrefl _)
    · refine ⟨n, .inl hleaves, fun m hm h => ?_⟩
      exact h.elim (hsince m hm) fun h => hnot h.2

theorem obeys_turn_alone {stage : Stage Unit} {now : Nat} (h : stage.Obeys (.alone Q) w.store.apps)
    (hstaged : ∀ replies, stage.replies? now w = some replies → Staging.staged replies) :
    (stage.turn now w).1.Obeys (.alone Q) (stage.turn now w).2.store.apps := by
  match ha : stage.action? now, hr : stage.request? now with
  | some action, _ =>
    rw [Stage.turn_world ha]
    exact h.turn_act ha ⟨w, rfl, rfl, rfl⟩
  | none, some r =>
    rw [Stage.turn_apps w ha]
    exact h.turn_request hr hstaged
  | none, none =>
    rw [Stage.turn_apps w ha]
    exact h.turn_other ha hr hstaged

theorem takeTurn_of_none {i : Nat} (h : s.tasks[i]? = none) : s.takeTurn i = s := by
  simp [takeTurn, h]

theorem takeTurn_of_isOver {i : Nat} {t : Task} (ht : s.tasks[i]? = some t)
    (h : t.stage.isOver) : s.takeTurn i = s := by
  obtain ⟨c, asked, stage⟩ := t
  obtain ⟨hi, hget⟩ := List.getElem?_eq_some_iff.1 ht
  have hset : s.tasks.set i ⟨c, asked, stage⟩ = s.tasks := by
    rw [← hget]
    exact List.set_getElem_self hi
  cases stage with
  | finished u | panicked => simp [takeTurn, ht, Stage.turn, Stage.request?, hset]
  | _ => simp [Stage.isOver] at h

namespace Serial

theorem of_allReturned (h : s.Serial Q) (hall : s.allReturned) : Q s.apps := by
  cases h with
  | fresh _ hQ => exact hQ
  | latest ended t htasks _ hobeys =>
    have hfinished := List.all_eq_true.1 hall t (by simp [htasks])
    cases hstage : t.stage with
    | finished u =>
      rw [hstage] at hobeys
      exact hobeys
    | _ => simp [hstage, Stage.isFinished] at hfinished

theorem call (hall : s.allReturned) {c : Call}
    (h : (c.activity config).Obeys (.alone Q) (fun _ => Q) s.apps) :
    (step config s (.call c)).Serial Q :=
  .latest s.tasks _ rfl (fun t ht => List.all_eq_true.1 hall t ht) h

theorem turn (h : s.Serial Q) {i : Nat} (hstaging : s.staging (.turn i)) : (s.takeTurn i).Serial Q := by
  cases h with
  | fresh htasks hQ =>
    rw [takeTurn_of_none (by simp [htasks])]
    exact .fresh htasks hQ
  | latest ended t htasks hended hobeys =>
    rcases Nat.lt_trichotomy i ended.length with hi | rfl | hi
    · have ht : s.tasks[i]? = some ended[i] := by
        rw [htasks, List.getElem?_append_left hi, List.getElem?_eq_getElem hi]
      rw [takeTurn_of_isOver ht (Stage.isOver_of_isFinished (hended _ (List.getElem_mem hi)))]
      exact .latest ended t htasks hended hobeys
    · have ht : s.tasks[ended.length]? = some t := by simp [htasks]
      have hturn : s.takeTurn ended.length = { s with
          world := (t.stage.turn s.now s.world).2
          tasks := ended ++ [{ t with
            asked := t.asked ++ (t.stage.request? s.now).toList
            stage := (t.stage.turn s.now s.world).1 }] } := by
        simp [takeTurn, htasks]
      rw [hturn]
      refine .latest ended _ rfl hended (obeys_turn_alone hobeys fun replies hreplies => ?_)
      simpa [staging, answers?, ht, hreplies] using hstaging
    · have hnone : s.tasks[i]? = none := List.getElem?_eq_none (by simp [htasks]; omega)
      rw [takeTurn_of_none hnone]
      exact .latest ended t htasks hended hobeys

end Serial

/-- One call after the other leaves unstaged what the last to touch it left so. -/
theorem serial_run (hw : w.store.apps.Holds fun a => ¬ a.isUnstaged)
    (hcalls : throughout oneAtATime config (start w) es)
    (hstaging : throughout staging config (start w) es) :
    (run config (start w) es).Serial fun t =>
      ∀ app, Is (·.isUnstaged) (t.get? app) ↔ LeftUnstaged config w es app := by
  have hall : w.store.apps.Holds fun _ => True := hw.own
  induction es using List.reverseRecOn with
  | nil =>
    refine .fresh rfl fun app => iff_of_false ?_ ?_
    · rintro ⟨a, ha, hunstaged⟩
      exact (hw app a ha).2 hunstaged
    · rintro ⟨n, ⟨c, hc, -⟩, -⟩
      simp at hc
  | append_singleton es e ih =>
    obtain ⟨hcalls, hcall⟩ := throughout_snoc.1 hcalls
    obtain ⟨hstaging, hturn⟩ := throughout_snoc.1 hstaging
    have hserial := ih hcalls hstaging
    rw [run_snoc]
    cases e with
    | call c =>
      -- only here does it change which applications should be waiting
      have hreturned : (run config (start w) es).allReturned ∧ c.Changes := by
        cases c <;> first | exact ⟨hcall, trivial⟩ | cases hcall
      refine .call hreturned.1 ?_
      refine (Call.obeys_alone hreturned.2 (holds_run hall es)).mono fun _ t houtcome app => ?_
      rw [houtcome app, hserial.of_allReturned hreturned.1 app, leftUnstaged_snoc]
      simp
    | turn i =>
      simp only [leftUnstaged_snoc, reduceCtorEq, false_and, exists_false, false_or, not_false_eq_true,
        and_true]
      exact hserial.turn hturn
    | _ =>
      simp only [leftUnstaged_snoc, reduceCtorEq, false_and, exists_false, false_or, not_false_eq_true,
        and_true]
      cases hserial with
      | fresh htasks hQ => exact .fresh htasks hQ
      | latest ended t htasks hended hobeys => exact .latest ended t htasks hended hobeys

/-- With creates and updates that come one at a time, each when the one before has returned, and a
stager that stages all it is asked about, an application needs staging once all have returned, and
has not failed, exactly if the last call that touched it left it so. -/
theorem unstaged_iff (hw : w.store.apps.Holds fun a => ¬ a.isUnstaged)
    (hcalls : throughout oneAtATime config (start w) es)
    (hstaging : throughout staging config (start w) es)
    (hall : (run config (start w) es).allReturned) {a : Application}
    (ha : (run config (start w) es).apps.get? app = some a) :
    a.needsStaging ∧ ¬ a.stagingFailed ↔ LeftUnstaged config w es app := by
  have hleft := (serial_run hw hcalls hstaging).of_allReturned hall app
  rw [ha, is_some] at hleft
  rw [← hleft]
  simp [Application.isUnstaged]

end Fleet

def Application.unscaled : Application := Operation.run (.new "web" "web")
  [.apply { Update.empty with
    state := some .started
    instances := some 0
    packageHash := some "bits-1" }]

namespace Fleet

def scaleFromNone : List Event :=
  [.call (.create .unscaled), .turn 0, .turn 0, .turn 0, .turn 0,
    .call (.update "web" (.ofInstances 1)), .turn 1, .turn 1, .turn 1, .turn 1]

def growAfterScale : List Event :=
  scaleFromNone ++
    [.call (.update "web" { Update.empty with memoryMb := some 512 }), .turn 2, .turn 2,
      .deliver ⟨Subject.inbox 0, StageReply.codec.write (.staged ⟨0, none, none⟩), none⟩,
      .turn 2, .turn 2, .turn 2, .turn 2, .turn 2]

theorem apps_scaleFromNone :
    throughout oneAtATime .default (start (.initial 0 0 0)) scaleFromNone ∧
      throughout staging .default (start (.initial 0 0 0)) scaleFromNone ∧
      (run .default (start (.initial 0 0 0)) scaleFromNone).allReturned ∧
      (run .default (start (.initial 0 0 0)) scaleFromNone).apps.get? "web" =
        some { Application.unscaled with instances := 1 } := by
  decide +kernel

theorem apps_growAfterScale :
    throughout oneAtATime .default (start (.initial 0 0 0)) growAfterScale ∧
      throughout staging .default (start (.initial 0 0 0)) growAfterScale ∧
      (run .default (start (.initial 0 0 0)) growAfterScale).allReturned ∧
      ((run .default (start (.initial 0 0 0)) growAfterScale).apps.get? "web").any (·.isStaged) := by
  decide +kernel

theorem unstaged_iff_web : LeftUnstaged .default (.initial 0 0 0) scaleFromNone "web" ∧
    ¬ LeftUnstaged .default (.initial 0 0 0) growAfterScale "web" := by
  constructor
  · obtain ⟨hcalls, hstaging, hall, hstored⟩ := apps_scaleFromNone
    exact (unstaged_iff (Table.holds_empty _) hcalls hstaging hall hstored).1 (by decide)
  · intro hleft
    obtain ⟨hcalls, hstaging, hall, hstaged⟩ := apps_growAfterScale
    obtain ⟨a, ha, hstaged⟩ := (Option.any_eq_true _ _).1 hstaged
    have hneeds := (unstaged_iff (Table.holds_empty _) hcalls hstaging hall ha).2 hleft
    simp [Application.needsStaging, hstaged] at hneeds

theorem leaves_unstaged : ¬ ∀ (config : Config) (w : World) (es : List Event) (app : AppId)
    (a : Application), w.store.apps.Holds (fun a => ¬ a.isUnstaged) →
    throughout oneAtATime config (start w) es → throughout staging config (start w) es →
    (run config (start w) es).allReturned → (run config (start w) es).apps.get? app = some a →
    ¬ (a.needsStaging ∧ ¬ a.stagingFailed) := by
  intro h
  obtain ⟨hcalls, hstaging, hall, hstored⟩ := apps_scaleFromNone
  exact h .default (.initial 0 0 0) scaleFromNone "web" _ (Table.holds_empty _) hcalls hstaging hall
    hstored (by decide)

end Fleet

end AppFleet
