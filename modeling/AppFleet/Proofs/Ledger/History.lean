import AppFleet.Ledger.Basic
import AppFleet.Proofs.Ledger.Keys
import Mathlib.Data.List.Induction

/-! The history of a ledger: what was written to it, one record at a time. A heartbeat writes a record
for each instance that it reports, a stats reply one for the slot that it answers for. -/

namespace AppFleet.Ledger

inductive Write where
  | report (now ttl : UInt64) (node : NodeId) (entry : HeartbeatInstance)
  | merge (now ttl : UInt64) (requested : LedgerRecord) (reply : StatsReply)

namespace Write

def perform (l : Ledger) : Write → Ledger
  | report now ttl node entry => l.report now ttl node entry
  | merge now ttl requested reply => (l.merge now ttl requested reply).2

/-- The key of the one slot that a write can change. -/
def slot : Write → String
  | report _ _ _ entry => LedgerRecord.key entry.appId entry.index
  | merge _ _ requested _ => requested.slot

def app : Write → AppId
  | report _ _ _ entry => entry.appId
  | merge _ _ requested _ => requested.appId

end Write

def written (ws : List Write) : Ledger := ws.foldl Write.perform .empty

@[simp] theorem written_nil : written [] = .empty := rfl

@[simp] theorem written_concat (ws : List Write) (w : Write) :
    written (ws ++ [w]) = w.perform (written ws) := by
  simp [written]

inductive Event where
  | heartbeat (now ttl : UInt64) (heartbeat : Heartbeat)
  | stats (now ttl : UInt64) (requested : LedgerRecord) (reply : StatsReply)

namespace Event

def perform (l : Ledger) : Event → Ledger
  | heartbeat now ttl h => l.ingest now ttl h
  | stats now ttl requested reply => (l.merge now ttl requested reply).2

def writes : Event → List Write
  | heartbeat now ttl h => h.instances.map (.report now ttl h.nodeId)
  | stats now ttl requested reply => [.merge now ttl requested reply]

theorem perform_eq_writes (l : Ledger) (e : Event) : e.perform l = e.writes.foldl Write.perform l := by
  cases e with
  | heartbeat now ttl h => simp [perform, writes, ingest, List.foldl_map, Write.perform]
  | stats now ttl requested reply => rfl

end Event

def run (es : List Event) : Ledger := es.foldl Event.perform .empty

theorem run_eq_written (es : List Event) : run es = written (es.flatMap Event.writes) := by
  have h (l : Ledger) : es.foldl Event.perform l = (es.flatMap Event.writes).foldl Write.perform l := by
    induction es generalizing l with
    | nil => rfl
    | cons e es ih => rw [List.foldl_cons, ih, e.perform_eq_writes, List.flatMap_cons, List.foldl_append]
  exact h .empty

section

variable {l : Ledger} {w : Write} {key : String}

theorem get?_perform_of_ne (h : key ≠ w.slot) : (w.perform l).get? key = l.get? key := by
  cases w with
  | report now ttl node entry => exact Table.get?_put_of_ne _ _ h
  | merge now ttl requested reply =>
    simp only [Write.perform, merge]
    split
    · exact Table.get?_put_of_ne _ _ h
    · rfl

@[simp] theorem get?_report_self (now ttl : UInt64) (node : NodeId) (entry : HeartbeatInstance) :
    ((Write.report now ttl node entry).perform l).get? (LedgerRecord.key entry.appId entry.index) =
      some (reported now ttl node entry (l.get? (LedgerRecord.key entry.appId entry.index))).stored :=
  Table.get?_put_self _ _ _

theorem get?_merge_self {now ttl : UInt64} {requested : LedgerRecord} {reply : StatsReply}
    (h : Answers reply requested) :
    ((Write.merge now ttl requested reply).perform l).get? requested.slot =
      some (refreshed now ttl ((l.get? requested.slot).getD requested) reply).stored := by
  simp only [Write.perform, merge, h, if_true]
  exact Table.get?_put_self _ _ _

theorem perform_merge_of_not {now ttl : UInt64} {requested : LedgerRecord} {reply : StatsReply}
    (h : ¬ Answers reply requested) : (Write.merge now ttl requested reply).perform l = l := by
  simp [Write.perform, merge, h]

end

/-- Every record is kept under the key of its slot, and is of an application in `S`. -/
def Holds (S : AppId → Prop) (l : Ledger) : Prop :=
  ∀ key r, l.get? key = some r → r.slot = key ∧ S r.appId

theorem holds_empty (S : AppId → Prop) : Holds S .empty := by
  intro key r h
  simp at h

theorem Holds.perform {S : AppId → Prop} {l : Ledger} (h : l.Holds S) {w : Write} (hw : S w.app) :
    (w.perform l).Holds S := by
  intro key r hr
  by_cases hkey : key = w.slot
  · subst hkey
    cases w with
    | report now ttl node entry =>
      obtain rfl := Option.some.inj ((get?_report_self now ttl node entry).symm.trans hr)
      exact ⟨rfl, hw⟩
    | merge now ttl requested reply =>
      by_cases hanswers : Answers reply requested
      · obtain rfl := Option.some.inj ((get?_merge_self hanswers).symm.trans hr)
        change ((l.get? requested.slot).getD requested).slot = requested.slot ∧
          S ((l.get? requested.slot).getD requested).appId
        cases hcurrent : l.get? requested.slot with
        | none => exact ⟨rfl, hw⟩
        | some current => exact h _ current hcurrent
      · rw [perform_merge_of_not hanswers] at hr
        exact h _ r hr
  · rw [get?_perform_of_ne hkey] at hr
    exact h key r hr

theorem holds_written {S : AppId → Prop} {ws : List Write} (h : ∀ w ∈ ws, S w.app) :
    (written ws).Holds S := by
  induction ws using List.reverseRecOn with
  | nil => exact holds_empty S
  | append_singleton ws w ih =>
    rw [written_concat]
    exact (ih fun v hv => h v (List.mem_append_left _ hv)).perform (h w (by simp))

end AppFleet.Ledger
