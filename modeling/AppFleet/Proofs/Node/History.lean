import AppFleet.Proofs.Node.Identify
import Mathlib.Data.List.Induction

/-! The history of a node registry: the messages that were recorded in it, one at a time. A record is of
the latest message under its id, and tells what the latest status under that id told; there is one under
an id from the first message on. -/

namespace AppFleet.Registry

/-- A message that is recorded, and the reading of the clock by which it is. -/
inductive Notice where
  | heartbeat (now : UInt64) (node : NodeId)
  | status (now : UInt64) (status : NodeStatus)
deriving DecidableEq

namespace Notice

def node : Notice → NodeId
  | heartbeat _ node => node
  | status _ s => s.nodeId

def now : Notice → UInt64
  | heartbeat now _ => now
  | status now _ => now

def isHeartbeat : Notice → Bool
  | heartbeat .. => true
  | status .. => false

def status? : Notice → Option NodeStatus
  | heartbeat .. => none
  | status _ s => some s

def perform (ttl : UInt64) (r : Registry) : Notice → Registry
  | heartbeat now node => (r.touch now ttl node).2
  | status now s => r.ingest now ttl s

end Notice

def recorded (ttl : UInt64) (ns : List Notice) : Registry := ns.foldl (Notice.perform ttl) .empty

def about (node : NodeId) (ns : List Notice) : List Notice := ns.filter (·.node = node)

def latestStatus? (ns : List Notice) : Option NodeStatus := (ns.filterMap Notice.status?).getLast?

/-- The record of a node under whose id there were these messages. -/
def recordOf (ttl : UInt64) (node : NodeId) (ns : List Notice) : Option NodeRecord :=
  ns.getLast?.map fun last =>
    ⟨node, (latestStatus? ns).map (·.address), (latestStatus? ns).map (·.version), last.now, ttl⟩

variable {ttl : UInt64} {ns : List Notice} {n : Notice} {node : NodeId} {r : Registry}

@[simp] theorem recorded_concat (ttl : UInt64) (ns : List Notice) (n : Notice) :
    recorded ttl (ns ++ [n]) = n.perform ttl (recorded ttl ns) := by
  simp [recorded]

theorem about_append (node : NodeId) (ns ns' : List Notice) :
    about node (ns ++ ns') = about node ns ++ about node ns' := List.filter_append ..

theorem about_concat_self (ns : List Notice) (n : Notice) :
    about n.node (ns ++ [n]) = about n.node ns ++ [n] := by
  simp [about]

theorem about_concat_of_ne (h : node ≠ n.node) : about node (ns ++ [n]) = about node ns := by
  simp [about, h.symm]

theorem get?_perform_of_ne (h : node ≠ n.node) : (n.perform ttl r).get? node = r.get? node := by
  cases n <;> exact Table.get?_put_of_ne _ _ h

/-- A heartbeat keeps what a node said of itself, a status replaces it. -/
theorem perform_recordOf (h : r.get? n.node = recordOf ttl n.node ns) :
    (n.perform ttl r).get? n.node = recordOf ttl n.node (ns ++ [n]) := by
  cases n with
  | status now s =>
    refine (Table.get?_put_self _ _ _).trans ?_
    simp [recordOf, latestStatus?, Notice.status?, Notice.now, Notice.node, identified]
  | heartbeat now node =>
    have hput : ((Notice.heartbeat now node).perform ttl r).get? node =
        some (seen now ttl node (r.get? node)) := Table.get?_put_self _ _ _
    refine hput.trans ?_
    rw [show r.get? node = recordOf ttl node ns from h]
    cases hlast : ns.getLast? with
    | none =>
      obtain rfl := List.getLast?_eq_none_iff.1 hlast
      simp [recordOf, latestStatus?, Notice.status?, Notice.now, Notice.node, seen]
    | some last =>
      simp [recordOf, latestStatus?, Notice.status?, Notice.now, Notice.node, seen, hlast]

/-- With more messages under an id there is still a record, and it still identifies the node if it
did. -/
theorem recordOf_append {rec : NodeRecord} (h : recordOf ttl node ns = some rec) (more : List Notice) :
    ∃ later, recordOf ttl node (ns ++ more) = some later ∧
      (rec.isIdentified → later.isIdentified) := by
  obtain ⟨last, hlast, rfl⟩ := Option.map_eq_some_iff.1 h
  obtain ⟨final, hfinal⟩ : ∃ final, (ns ++ more).getLast? = some final := by
    refine Option.isSome_iff_exists.1 ?_
    rw [List.getLast?_append, hlast]
    cases more.getLast? <;> rfl
  refine ⟨_, by rw [recordOf, hfinal]; rfl, ?_⟩
  simp only [NodeRecord.isIdentified, Option.isSome_map, latestStatus?, List.filterMap_append,
    List.getLast?_append]
  intro hidentified
  cases (more.filterMap Notice.status?).getLast? with
  | none => exact hidentified
  | some status => rfl

theorem get?_recorded (ttl : UInt64) (ns : List Notice) (node : NodeId) :
    (recorded ttl ns).get? node = recordOf ttl node (about node ns) := by
  induction ns using List.reverseRecOn with
  | nil => rfl
  | append_singleton ns n ih =>
    -- The last message changes the record under its own id, and no other.
    rw [recorded_concat]
    by_cases h : node = n.node
    · subst h
      rw [about_concat_self]
      exact perform_recordOf ih
    · rw [get?_perform_of_ne h, about_concat_of_ne h, ih]

theorem get?_recorded_eq_none_iff : (recorded ttl ns).get? node = none ↔ about node ns = [] := by
  rw [get?_recorded, recordOf, Option.map_eq_none_iff, List.getLast?_eq_none_iff]

end AppFleet.Registry
