import AppFleet.Proofs.Fleet.Basic
import Mathlib.Tactic.Common

/-! What a fleet sends. Only the turns of its tasks send anything, and nothing that was sent is
forgotten: the sent messages are a log of the run. -/

namespace AppFleet

def Request.sent (r : Request) (refused : List String) : Sent :=
  ⟨r.subject, r.payload, some (r.expected, r.timeoutMs), r.subject ∈ refused⟩

def Stage.sends (now : Nat) (w : World) : Stage α → List Sent
  | asleep wake (.act (.publish subject payload) _) =>
    if wake ≤ now then [⟨subject, payload, none, subject ∈ w.link.refused⟩] else []
  | asleep wake (.request r _) => if wake ≤ now then [r.sent w.link.refused] else []
  | asleep wake (.survey records timeoutMs _) =>
    if wake ≤ now then records.map fun r => (Ledger.query timeoutMs r).sent w.link.refused else []
  | _ => []

namespace World

theorem request_sent (w : World) (now : Nat) (r : Request) :
    (w.request now r).2.link.sent = w.link.sent ++ [r.sent w.link.refused] ∧
      (w.request now r).2.link.refused = w.link.refused := by
  by_cases h : r.subject ∈ w.link.refused <;>
    simp [request, Link.request, Link.note, Request.sent, h]

theorem request_ok {w : World} {now : Nat} {r : Request} {x : Option Exchange}
    (h : (w.request now r).1 = .ok x) : r.subject ∉ w.link.refused := by
  intro hrefused
  simp [request, Link.request, hrefused] at h

theorem sendSurvey_sent (w : World) (now : Nat) (timeoutMs : UInt64) (records : List LedgerRecord) :
    (w.sendSurvey now timeoutMs records).2.link.sent =
      w.link.sent ++ records.map fun r => (Ledger.query timeoutMs r).sent w.link.refused := by
  induction records generalizing w with
  | nil => simp [sendSurvey]
  | cons r rest ih =>
    obtain ⟨hsent, hrefused⟩ := w.request_sent now (Ledger.query timeoutMs r)
    simp only [sendSurvey, ih, hsent, hrefused, List.map_cons, List.append_assoc,
      List.singleton_append]

theorem sendSurvey_open {w : World} {now : Nat} {timeoutMs : UInt64} {records : List LedgerRecord}
    {r : LedgerRecord} (h : r ∈ (w.sendSurvey now timeoutMs records).1.map (·.1)) :
    r ∈ records ∧ (Ledger.query timeoutMs r).subject ∉ w.link.refused := by
  induction records generalizing w with
  | nil => simp [sendSurvey] at h
  | cons first rest ih =>
    have hrefused := (w.request_sent now (Ledger.query timeoutMs first)).2
    simp only [sendSurvey] at h
    split at h
    · rename_i heq
      rcases List.mem_cons.1 h with rfl | h
      · exact ⟨List.mem_cons_self, request_ok heq⟩
      · exact ⟨List.mem_cons_of_mem _ (ih h).1, hrefused ▸ (ih h).2⟩
    · exact ⟨List.mem_cons_of_mem _ (ih h).1, hrefused ▸ (ih h).2⟩
    · exact ⟨List.mem_cons_of_mem _ (ih h).1, hrefused ▸ (ih h).2⟩

theorem mergeReplies_link (w : World) (report : SweepReport) (r : LedgerRecord) (replies : Replies) :
    (w.mergeReplies report r replies).2.link = w.link := by
  unfold mergeReplies
  split
  · rfl
  · rename_i reply _
    have hm : (w.mergeStats r reply).2.link = w.link := rfl
    split <;> rename_i heq <;> rw [heq] at hm <;> exact hm

theorem pollSurvey_sent (w : World) (now : Nat) (report : SweepReport)
    (exchanges : List (LedgerRecord × Exchange)) :
    (w.pollSurvey now report exchanges).2.2.link.sent = w.link.sent := by
  induction exchanges generalizing w report with
  | nil => rfl
  | cons x rest ih =>
    simp only [pollSurvey]
    split
    · rw [ih, mergeReplies_link]
    · rw [ih]

theorem perform_sent (w : World) (action : Action) :
    (∃ subject payload, action = .publish subject payload ∧ (w.perform action).2.link.sent =
      w.link.sent ++ [⟨subject, payload, none, subject ∈ w.link.refused⟩]) ∨
    (∀ subject payload, action ≠ .publish subject payload) ∧
      (w.perform action).2.link.sent = w.link.sent := by
  cases action with
  | publish subject payload =>
    exact .inl ⟨subject, payload, rfl, w.link.publish_sent subject payload⟩
  | _ => exact .inr ⟨nofun, rfl⟩

end World

namespace Stage

variable {now : Nat} {stage : Stage Unit}

theorem turn_sent (w : World) : (stage.turn now w).2.link.sent = w.link.sent ++ stage.sends now w := by
  rw [turn_snd]
  cases stage with
  | finished a | panicked | waiting x next => simp [after, sends]
  | surveying exchanges report next =>
    simpa [after, sends] using w.pollSurvey_sent now report exchanges
  | asleep wake next =>
    by_cases hw : wake ≤ now
    · cases next with
      | done a | panic | sleep ms next => simp [after, sends]
      | act action next =>
        rcases w.perform_sent action with ⟨subject, payload, rfl, hsent⟩ | ⟨hne, hsent⟩
        · simpa [after, sends, hw] using hsent
        · have hnone : (asleep wake (.act action next)).sends now w = [] := by
            cases action <;> first | rfl | exact absurd rfl (hne _ _)
          simpa [after, hw, hnone] using hsent
      | request r next => simpa [after, sends, hw] using (w.request_sent now r).1
      | survey records timeoutMs next =>
        simpa [after, sends, hw] using w.sendSurvey_sent now timeoutMs records
    · have hnone : (asleep wake next).sends now w = [] := by
        cases next with
        | act action next => cases action <;> simp [sends, hw]
        | _ => simp [sends, hw]
      cases next <;> simp [after, hw, hnone]

theorem action?_of_sends {w : World} {m : Sent} (h : m ∈ stage.sends now w) (hm : m.request = none) :
    stage.action? now = some (.publish m.subject m.payload) ∧
      m.refused = (m.subject ∈ w.link.refused) := by
  unfold sends at h
  split at h
  · split at h
    · rw [List.mem_singleton.1 h]
      simp [action?, *]
    · cases h
  · split at h
    · rw [List.mem_singleton.1 h] at hm
      cases hm
    · cases h
  · split at h
    · obtain ⟨r, -, rfl⟩ := List.mem_map.1 h
      cases hm
    · cases h
  · cases h

theorem sends_of_action? {w : World} {subject : String} {payload : Json}
    (h : stage.action? now = some (.publish subject payload)) :
    ⟨subject, payload, none, subject ∈ w.link.refused⟩ ∈ stage.sends now w := by
  unfold action? at h
  split at h
  · split at h
    · cases h
      simp [sends, *]
    · cases h
  · cases h

end Stage

namespace Fleet

def sends (s : Fleet) : Event → List Sent
  | .turn i => s.tasks[i]?.elim [] fun t => t.stage.sends s.now s.world
  | _ => []

variable {config : Config} {s : Fleet}

theorem step_sent (e : Event) :
    (step config s e).world.link.sent = s.world.link.sent ++ s.sends e := by
  cases e with
  | turn i =>
    simp only [step, takeTurn, sends]
    cases s.tasks[i]? with
    | none => simp
    | some t => exact t.stage.turn_sent s.world
  | _ => simp [step, sends, withLink]

theorem sent_run (es : List Event) :
    (run config s es).world.link.sent = s.world.link.sent ++ log sends config s es := by
  induction es generalizing s with
  | nil => simp
  | cons e es ih => simpa [run, log, step_sent, List.append_assoc] using ih (s := step config s e)

theorem sent_mono {past es : List Event} (h : past <+: es) :
    (run config s past).world.link.sent <+: (run config s es).world.link.sent := by
  rw [sent_run, sent_run]
  exact (List.prefix_append_right_inj _).2 (log_mono h)

end Fleet

end AppFleet
