import AppFleet.Proofs.Ledger.History
import AppFleet.World
import Mathlib.Logic.Function.Iterate

/-! Heartbeats that come again or in another order. What a heartbeat writes to a slot depends on that
slot alone, so that heartbeats of different slots do not meet; and the one thing that a heartbeat writes
and does not report is the usage that the slot's instance had before. It goes through text each time. -/

namespace AppFleet

theorem LedgerRecord.stored_iterate (n : Nat) (r : LedgerRecord) : LedgerRecord.stored^[n] r =
    { r with usage := r.usage.map fun u => { u with cpu := Json.reread^[n] u.cpu } } := by
  induction n with
  | zero => simp
  | succ n ih =>
    rw [Function.iterate_succ_apply', ih, stored]
    simp [Function.comp_def, Function.iterate_succ_apply']

theorem LedgerRecord.stored_iterate_eq_self_iff {n : Nat} {r : LedgerRecord} :
    LedgerRecord.stored^[n] r = r ↔ ∀ u ∈ r.usage, Json.reread^[n] u.cpu = u.cpu := by
  rw [stored_iterate]
  obtain ⟨_, _, _, _, _, _, usage, _, _⟩ := r
  cases usage with
  | none => simp
  | some u =>
    obtain ⟨memory, disk, cpu⟩ := u
    simp

/-- What a heartbeat reports of a slot, in order. -/
def Heartbeat.about (h : Heartbeat) (key : String) : List HeartbeatInstance :=
  h.instances.filter fun entry => LedgerRecord.key entry.appId entry.index = key

namespace Ledger

variable {now ttl : UInt64} {node : NodeId} {l : Ledger} {entries : List HeartbeatInstance}
  {current : Option LedgerRecord}

def passed (now ttl : UInt64) (node : NodeId) (entries : List HeartbeatInstance)
    (current : Option LedgerRecord) : Option LedgerRecord :=
  entries.foldl (fun current entry => some (reported now ttl node entry current).stored) current

theorem get?_ingest (l : Ledger) (now ttl : UInt64) (h : Heartbeat) (key : String) :
    (l.ingest now ttl h).get? key = passed now ttl h.nodeId (h.about key) (l.get? key) := by
  unfold ingest Heartbeat.about
  induction h.instances generalizing l with
  | nil => rfl
  | cons entry rest ih =>
    rw [List.foldl_cons, ih, List.filter_cons]
    by_cases hkey : LedgerRecord.key entry.appId entry.index = key
    · subst hkey
      rw [if_pos (by simp)]
      exact congrArg _ (get?_report_self (l := l) now ttl h.nodeId entry)
    · rw [if_neg (by simpa using hkey)]
      exact congrArg _ (get?_perform_of_ne (w := .report now ttl h.nodeId entry) (Ne.symm hkey))

theorem passed_concat (entries : List HeartbeatInstance) (entry : HeartbeatInstance)
    (current : Option LedgerRecord) : passed now ttl node (entries ++ [entry]) current =
      some (reported now ttl node entry (passed now ttl node entries current)).stored := by
  simp [passed]

/-- The last report says all about a slot but the usage. -/
theorem passed_concat_eq (now ttl : UInt64) (node : NodeId) (entries : List HeartbeatInstance)
    (entry : HeartbeatInstance) (current : Option LedgerRecord) :
    ∃ usage, passed now ttl node (entries ++ [entry]) current =
      some { reported now ttl node entry none with usage } :=
  ⟨_, passed_concat entries entry current⟩

/-- Usage carries over only while the same instance holds the slot. -/
theorem reported_usage_iff {entry : HeartbeatInstance} {u : Usage} :
    (reported now ttl node entry current).usage = some u ↔
      ∃ r, current = some r ∧ r.instanceId = entry.instanceId ∧ r.usage = some u := by
  simp only [reported, Option.bind_eq_some_iff, Option.filter_eq_some_iff, decide_eq_true_eq, and_assoc]

theorem reported_usage_same {r : LedgerRecord} {entry : HeartbeatInstance}
    (h : r.instanceId = entry.instanceId) :
    (reported now ttl node entry (some r)).usage = r.usage := by
  simp [reported, Option.filter, h]

theorem stored_usage_none {r : LedgerRecord} (h : r.usage = none) (n : Nat) :
    (LedgerRecord.stored^[n] r).usage = none := by
  rw [LedgerRecord.stored_iterate, h]
  rfl

/-- A slot that has no usage gets none. -/
theorem passed_usage_none (h : ∀ r ∈ current, r.usage = none) :
    ∀ r ∈ passed now ttl node entries current, r.usage = none := by
  induction entries using List.reverseRecOn with
  | nil => exact h
  | append_singleton entries entry ih =>
    intro r hr
    rw [passed_concat] at hr
    obtain rfl := Option.some.inj hr
    refine stored_usage_none (Option.eq_none_iff_forall_ne_some.2 fun u hu => ?_) 1
    obtain ⟨r', hr', -, hu'⟩ := reported_usage_iff.1 hu
    cases hu'.symm.trans (ih r' hr')

/-- The instance that holds a slot keeps its usage while every report names it. -/
theorem passed_usage (now ttl : UInt64) (node : NodeId) {r : LedgerRecord}
    (h : ∀ entry ∈ entries, entry.instanceId = r.instanceId) :
    ∃ r', passed now ttl node entries (some r) = some r' ∧ r'.instanceId = r.instanceId ∧
      r'.usage = (LedgerRecord.stored^[entries.length] r).usage := by
  induction entries using List.reverseRecOn with
  | nil => exact ⟨r, rfl, rfl, rfl⟩
  | append_singleton entries entry ih =>
    obtain ⟨r', hr', hname, husage⟩ := ih fun e he => h e (List.mem_append_left _ he)
    have hentry : entry.instanceId = r.instanceId := h entry (by simp)
    refine ⟨_, passed_concat entries entry (some r), hentry, ?_⟩
    rw [List.length_append, List.length_singleton, Function.iterate_succ_apply', hr',
      LedgerRecord.stored, LedgerRecord.stored, reported_usage_same (hname.trans hentry.symm), husage]

theorem names_of_passed {r : LedgerRecord} {u : Usage}
    (hr : passed now ttl node entries current = some r) (hu : r.usage = some u) :
    ∀ entry ∈ entries, entry.instanceId = r.instanceId := by
  induction entries using List.reverseRecOn generalizing r u with
  | nil => simp
  | append_singleton entries entry ih =>
    rw [passed_concat] at hr
    obtain rfl := Option.some.inj hr
    obtain ⟨u', hu', -⟩ := Option.map_eq_some_iff.1 hu
    obtain ⟨r', hr', hname, hu'⟩ := reported_usage_iff.1 hu'
    intro e he
    rcases List.mem_append.1 he with he | he
    · exact (ih hr' hu' e he).trans hname
    · rw [List.mem_singleton.1 he]
      rfl

/-- The same reports once more keep the record once more for each of them. -/
theorem passed_again (entries : List HeartbeatInstance) (current : Option LedgerRecord) :
    passed now ttl node entries (passed now ttl node entries current) =
      (passed now ttl node entries current).map (LedgerRecord.stored^[entries.length]) := by
  cases entries using List.reverseRecOn with
  | nil => simp [passed]
  | append_singleton before last =>
    obtain ⟨usage, hfirst⟩ := passed_concat_eq now ttl node before last current
    obtain ⟨usage', hsecond⟩ := passed_concat_eq now ttl node before last
      (passed now ttl node (before ++ [last]) current)
    have husage : usage' = (LedgerRecord.stored^[(before ++ [last]).length]
        { reported now ttl node last none with usage }).usage := by
      rw [hfirst] at hsecond
      cases usage with
      | none =>
        have hnone := passed_usage_none (by simp) _ hsecond
        rw [stored_usage_none rfl]
        exact hnone
      | some u =>
        obtain ⟨r', hr', -, husage⟩ := passed_usage now ttl node (names_of_passed hfirst rfl)
        obtain rfl := Option.some.inj (hr'.symm.trans hsecond)
        exact husage
    rw [hsecond, hfirst, Option.map_some, husage, LedgerRecord.stored_iterate]

/-- What was reported is reported again: each record is kept once more for each report on its slot. -/
theorem get?_ingest_again (l : Ledger) (now ttl : UInt64) (h : Heartbeat) (key : String) :
    ((l.ingest now ttl h).ingest now ttl h).get? key =
      ((l.ingest now ttl h).get? key).map (LedgerRecord.stored^[(h.about key).length]) := by
  rw [get?_ingest, get?_ingest, passed_again]

/-- Heartbeats without a slot in common do not meet. -/
theorem ingest_comm {a b : Heartbeat} (h : ∀ e ∈ a.instances, ∀ e' ∈ b.instances,
    ¬ (e.appId = e'.appId ∧ e.index = e'.index)) :
    (l.ingest now ttl a).ingest now ttl b = (l.ingest now ttl b).ingest now ttl a := by
  have hapart (key : String) : a.about key = [] ∨ b.about key = [] := by
    by_contra hboth
    rw [not_or] at hboth
    obtain ⟨e, he⟩ := List.exists_mem_of_ne_nil _ hboth.1
    obtain ⟨e', he'⟩ := List.exists_mem_of_ne_nil _ hboth.2
    obtain ⟨hmem, hkey⟩ := List.mem_filter.1 he
    obtain ⟨hmem', hkey'⟩ := List.mem_filter.1 he'
    exact h e hmem e' hmem' <| LedgerRecord.key_inj.1 <|
      (of_decide_eq_true hkey).trans (of_decide_eq_true hkey').symm
  refine Table.ext_get? fun key => ?_
  rw [get?_ingest, get?_ingest, get?_ingest, get?_ingest]
  rcases hapart key with hnone | hnone <;> rw [hnone] <;> rfl

end Ledger

theorem Registry.touch_comm (registry : Registry) (now ttl : UInt64) {a b : NodeId} (h : a ≠ b) :
    ((registry.touch now ttl a).2.touch now ttl b).1 = (registry.touch now ttl b).1 ∧
    ((registry.touch now ttl a).2.touch now ttl b).2 =
      ((registry.touch now ttl b).2.touch now ttl a).2 := by
  have hb (v : NodeRecord) : (registry.put a v).get? b = registry.get? b :=
    Table.get?_put_of_ne _ _ h.symm
  have ha (v : NodeRecord) : (registry.put b v).get? a = registry.get? a :=
    Table.get?_put_of_ne _ _ h
  simp only [touch, hb, ha, true_and]
  exact Table.put_comm h _ _

theorem Registry.touch_again (registry : Registry) (now ttl : UInt64) (node : NodeId) :
    (registry.touch now ttl node).2.touch now ttl node = (false, (registry.touch now ttl node).2) := by
  have hseen : seen now ttl node (some (seen now ttl node (registry.get? node))) =
      seen now ttl node (registry.get? node) := by
    cases registry.get? node <;> rfl
  simp [touch, hseen]

namespace World

theorem ingestHeartbeat_eq (w : World) (h : Heartbeat) : w.ingestHeartbeat h =
    { w with
      store := { w.store with
        nodes := (w.store.nodes.touch w.clock w.ttl h.nodeId).2
        ledger := w.store.ledger.ingest w.clock w.ttl h }
      unknownNodes := w.unknownNodes ++
        if (w.store.nodes.touch w.clock w.ttl h.nodeId).1 then [h.nodeId] else [] } := rfl

/-- A heartbeat that comes again leaves the registry as it is, and nobody is asked who it is; all that
it does is that each usage it carries over goes through text once more for each report on the slot. So
the ledger is the same as after the first time exactly if these usages read back from their texts. And
heartbeats of different nodes without a slot in common leave the same in either order, and the same
nodes to be asked. -/
theorem heartbeats_settle_iff (w : World) :
    (∀ h : Heartbeat,
      let once := w.ingestHeartbeat h
      let again := once.ingestHeartbeat h
      again = { once with store := { once.store with ledger := again.store.ledger } } ∧
      (∀ key, again.store.ledger.get? key =
        (once.store.ledger.get? key).map (LedgerRecord.stored^[(h.about key).length])) ∧
      (again.store.ledger = once.store.ledger ↔ ∀ key r u, once.store.ledger.get? key = some r →
        r.usage = some u → Json.reread^[(h.about key).length] u.cpu = u.cpu)) ∧
    ∀ a b : Heartbeat, a.nodeId ≠ b.nodeId →
      (∀ e ∈ a.instances, ∀ e' ∈ b.instances, ¬ (e.appId = e'.appId ∧ e.index = e'.index)) →
      let ab := (w.ingestHeartbeat a).ingestHeartbeat b
      let ba := (w.ingestHeartbeat b).ingestHeartbeat a
      ba = { ab with unknownNodes := ba.unknownNodes } ∧ ba.unknownNodes.Perm ab.unknownNodes := by
  refine ⟨fun h => ?_, fun a b hnodes hslots => ?_⟩
  · intro once again
    have hagain (key : String) : again.store.ledger.get? key =
        (once.store.ledger.get? key).map (LedgerRecord.stored^[(h.about key).length]) :=
      Ledger.get?_ingest_again w.store.ledger w.clock w.ttl h key
    refine ⟨by simp [once, again, ingestHeartbeat_eq, Registry.touch_again], hagain, ?_⟩
    constructor
    · intro heq key r u hr hu
      have hkept := hagain key
      rw [heq, hr, Option.map_some, Option.some_inj] at hkept
      exact LedgerRecord.stored_iterate_eq_self_iff.1 hkept.symm u hu
    · intro hsettled
      refine Table.ext_get? fun key => ?_
      rw [hagain key]
      cases hr : once.store.ledger.get? key with
      | none => rfl
      | some r =>
        rw [Option.map_some, LedgerRecord.stored_iterate_eq_self_iff.2 fun u => hsettled key r u hr]
  · obtain ⟨hb, hsame⟩ := Registry.touch_comm w.store.nodes w.clock w.ttl hnodes
    obtain ⟨ha, -⟩ := Registry.touch_comm w.store.nodes w.clock w.ttl hnodes.symm
    have hledger : (w.store.ledger.ingest w.clock w.ttl a).ingest w.clock w.ttl b =
        (w.store.ledger.ingest w.clock w.ttl b).ingest w.clock w.ttl a := Ledger.ingest_comm hslots
    simp only [ingestHeartbeat_eq, ha, hb, hsame, hledger, List.append_assoc, true_and]
    exact List.perm_append_comm.append_left _

def beat : Heartbeat := ⟨"node-1", [⟨"web", "v1", 0, "web-0", .running⟩]⟩

def measured (cpu : FiniteFloat) : World :=
  let w := (World.initial 1000 1000 30).ingestHeartbeat beat
  (w.mergeStats ⟨"web", 0, "v1", "web-0", "node-1", .running, none, 1000, 30⟩
    ⟨"web", 0, .running, ⟨64, 32, cpu⟩⟩).2

def anEighth : FiniteFloat := ⟨12.5, by decide +kernel⟩

theorem heartbeats_settle_iff_web :
    (((measured anEighth).ingestHeartbeat beat).ingestHeartbeat beat).store.ledger =
      ((measured anEighth).ingestHeartbeat beat).store.ledger := by
  obtain ⟨hagain, -⟩ := heartbeats_settle_iff (measured anEighth)
  obtain ⟨-, -, hiff⟩ := hagain beat
  refine hiff.2 fun key r u hr hu => ?_
  have hsettled : ∀ e ∈ ((measured anEighth).ingestHeartbeat beat).store.ledger.entries,
      ∀ u ∈ e.2.usage, Json.reread^[(beat.about e.1).length] u.cpu = u.cpu := by decide +kernel
  exact hsettled (key, r) ((Table.mem_entries_iff _).2 hr) u hu

/-- The text of this usage reads back as its neighbour, and the text of that one as this. -/
theorem drifts_again : ¬ ∀ (w : World) (h : Heartbeat),
    ((w.ingestHeartbeat h).ingestHeartbeat h).store.ledger = (w.ingestHeartbeat h).store.ledger := by
  intro h
  have hsame := congrArg (fun l : Ledger => ((l.get? "web:0").bind (·.usage)).map (·.cpu))
    (h (measured ⟨5.010540194295699e-8, by decide +kernel⟩) beat)
  revert hsame
  decide +kernel

end World

end AppFleet
