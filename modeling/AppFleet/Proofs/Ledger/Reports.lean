import AppFleet.Proofs.Ledger.Holder
import Mathlib.Data.List.Nodup

/-! What reports leave of a slot. A report on a slot is an entry of a heartbeat, or a stats reply that
answers for it. A ledger holds a record of exactly the slots that were ever reported: who held the slot
by the last heartbeat, as of the last report. -/

namespace AppFleet

/-- When a report was made, and for how long it counts. -/
structure Stamp where
  moment : UInt64
  ttl : UInt64
deriving DecidableEq

def Stamp.Covers (s : Stamp) (now : UInt64) : Prop := now.toNat ≤ s.moment.toNat + s.ttl.toNat

instance (s : Stamp) (now : UInt64) : Decidable (s.Covers now) := inferInstanceAs (Decidable (_ ≤ _))

structure Holding where
  version : Version
  instanceId : String
  nodeId : NodeId
deriving DecidableEq

namespace LedgerRecord

def stamp (r : LedgerRecord) : Stamp := ⟨r.refreshedAt, r.ttl⟩

def holding (r : LedgerRecord) : Holding := ⟨r.version, r.instanceId, r.nodeId⟩

def pair (r : LedgerRecord) : AppId × UInt32 := (r.appId, r.index)

theorem isExpired_eq_false_iff (r : LedgerRecord) (now : UInt64) :
    r.isExpired now = false ↔ r.stamp.Covers now := by
  simp only [isExpired, stamp, Stamp.Covers, decide_eq_false_iff_not]
  omega

end LedgerRecord

namespace Ledger

open LedgerRecord (key)

variable {app : AppId} {i : UInt32} {l : Ledger} {ws : List Write} {es : List Event}

def Write.stamp? (app : AppId) (i : UInt32) : Write → Option Stamp
  | report now ttl _ entry => if entry.appId = app ∧ entry.index = i then some ⟨now, ttl⟩ else none
  | merge now ttl requested reply =>
    if Answers reply requested ∧ reply.appId = app ∧ reply.index = i then some ⟨now, ttl⟩ else none

def Write.holding? (app : AppId) (i : UInt32) : Write → Option Holding
  | report _ _ node entry =>
    if entry.appId = app ∧ entry.index = i then some ⟨entry.version, entry.instanceId, node⟩ else none
  | merge .. => none

def reports (app : AppId) (i : UInt32) (ws : List Write) : List Stamp := ws.filterMap (Write.stamp? app i)

def holdings (app : AppId) (i : UInt32) (ws : List Write) : List Holding :=
  ws.filterMap (Write.holding? app i)

theorem getLast?_filterMap_concat (f : Write → Option α) (ws : List Write) (w : Write) :
    ((ws ++ [w]).filterMap f).getLast? = (f w).or (ws.filterMap f).getLast? := by
  cases h : f w <;> simp [h]

theorem slot_eq_of_stamp? {w : Write} {s : Stamp} (h : w.stamp? app i = some s) : w.slot = key app i := by
  cases w with
  | report now ttl node entry =>
    obtain ⟨⟨rfl, rfl⟩, -⟩ := Option.ite_none_right_eq_some.1 h
    rfl
  | merge now ttl requested reply =>
    obtain ⟨⟨⟨happ, hindex⟩, rfl, rfl⟩, -⟩ := Option.ite_none_right_eq_some.1 h
    rw [happ, hindex]
    rfl

theorem stamp?_eq_none {w : Write} (h : key app i ≠ w.slot) : w.stamp? app i = none := by
  by_contra hsome
  obtain ⟨s, hs⟩ := Option.ne_none_iff_exists'.1 hsome
  exact h (slot_eq_of_stamp? hs).symm

theorem holding?_eq_none {w : Write} (h : key app i ≠ w.slot) : w.holding? app i = none := by
  cases w with
  | report now ttl node entry =>
    have hne : ¬ (entry.appId = app ∧ entry.index = i) := by
      rintro ⟨rfl, rfl⟩
      exact h rfl
    simp [Write.holding?, hne]
  | merge now ttl requested reply => rfl

/-- Nothing that was written to a ledger is removed. -/
theorem isSome_get?_written {early : List Write} {k : String} (h : early <+: ws)
    (hearly : ((written early).get? k).isSome) : ((written ws).get? k).isSome := by
  obtain ⟨between, rfl⟩ := h
  obtain ⟨r, hr⟩ := Option.isSome_iff_exists.1 hearly
  obtain ⟨r', hr', -⟩ := get?_written_holder hr between
  simp [hr']

/-- What a ledger holds of a slot is who held it by the last heartbeat, as of the last report. -/
theorem get?_written_report (h : Sourced ws) (app : AppId) (i : UInt32) :
    ((written ws).get? (key app i)).map (·.stamp) = (reports app i ws).getLast? ∧
    ((written ws).get? (key app i)).map (·.holding) = (holdings app i ws).getLast? := by
  induction ws using List.reverseRecOn with
  | nil => simp [reports, holdings]
  | append_singleton ws w ih =>
    obtain ⟨hstamp, hholding⟩ := ih h.of_append
    rw [reports, holdings, getLast?_filterMap_concat, getLast?_filterMap_concat, written_concat]
    change _ = (w.stamp? app i).or (reports app i ws).getLast? ∧
      _ = (w.holding? app i).or (holdings app i ws).getLast?
    rw [← hstamp, ← hholding]
    by_cases hkey : key app i = w.slot
    · cases w with
      | report now ttl node entry =>
        obtain ⟨rfl, rfl⟩ := LedgerRecord.key_inj.1 hkey
        rw [get?_report_self]
        simp only [Write.stamp?, Write.holding?, and_self, if_true, Option.map_some, Option.some_or]
        exact ⟨rfl, rfl⟩
      | merge now ttl requested reply =>
        obtain ⟨rfl, rfl⟩ := LedgerRecord.key_inj.1 hkey
        by_cases hanswers : Answers reply requested
        · -- the slot still has a record, whoever holds it by now
          obtain ⟨early, hearly, hread⟩ := h ws now ttl requested reply [] rfl
          obtain ⟨r, hr⟩ := Option.isSome_iff_exists.1 <|
            isSome_get?_written hearly (Option.isSome_iff_exists.2 ⟨_, hread⟩)
          have hself : ((Write.merge now ttl requested reply).perform (written ws)).get?
              (key requested.appId requested.index) = some (refreshed now ttl
                (((written ws).get? (key requested.appId requested.index)).getD requested) reply).stored :=
            get?_merge_self hanswers
          have hstamp? : (Write.merge now ttl requested reply).stamp? requested.appId requested.index =
              some ⟨now, ttl⟩ := if_pos ⟨hanswers, hanswers⟩
          change (written ws).get? (key requested.appId requested.index) = some r at hr
          rw [hself, hstamp?, hr]
          exact ⟨rfl, rfl⟩
        · rw [perform_merge_of_not hanswers]
          simp [Write.stamp?, Write.holding?, hanswers]
    · rw [get?_perform_of_ne hkey, stamp?_eq_none hkey, holding?_eq_none hkey]
      simp

/-- What a ledger is fed with: any heartbeats, and stats replies that were asked for a record which the
ledger had shown by then. -/
inductive Fed : List Event → Prop where
  | nil : Fed []
  | heartbeat {es : List Event} (now ttl : UInt64) (h : Heartbeat) :
    Fed es → Fed (es ++ [.heartbeat now ttl h])
  | stats {es early : List Event} {requested : LedgerRecord} (now ttl : UInt64) (reply : StatsReply) :
    Fed es → early <+: es → requested ∈ (run early).toList → Fed (es ++ [.stats now ttl requested reply])

theorem flatMap_writes_mono {early : List Event} (h : early <+: es) :
    early.flatMap Event.writes <+: es.flatMap Event.writes := by
  obtain ⟨rest, rfl⟩ := h
  rw [List.flatMap_append]
  exact List.prefix_append _ _

theorem get?_of_mem_toList {S : AppId → Prop} (hl : l.Holds S) {r : LedgerRecord} (hr : r ∈ l.toList) :
    l.get? r.slot = some r := by
  obtain ⟨⟨k, r⟩, hentry, rfl⟩ := List.mem_map.1 hr
  have hget := (Table.mem_entries_iff l).1 hentry
  rw [(hl k r hget).1]
  exact hget

theorem holds_all (es : List Event) : (run es).Holds fun _ => True := by
  rw [run_eq_written]
  exact holds_written fun _ _ => trivial

theorem Fed.sourced (h : Fed es) : Sourced (es.flatMap Event.writes) := by
  induction h with
  | nil => exact sourced_nil
  | heartbeat now ttl heartbeat _ ih =>
    rw [List.flatMap_append]
    refine ih.append fun now ttl requested reply hmerge => ?_
    simp [Event.writes] at hmerge
  | stats now ttl reply _ hearly hread ih =>
    rw [List.flatMap_append]
    refine ih.append fun now' ttl' requested' reply' hmerge => ?_
    obtain ⟨rfl, rfl, rfl, rfl⟩ := by simpa [Event.writes] using hmerge
    refine ⟨_, flatMap_writes_mono hearly, ?_⟩
    rw [← run_eq_written]
    exact get?_of_mem_toList (holds_all _) hread

theorem nodup_live {S : AppId → Prop} (hl : l.Holds S) (now : UInt64) :
    ((l.live now).map (·.pair)).Nodup := by
  have hkeys : ((l.toList.map (·.pair)).map fun p => key p.1 p.2) = l.entries.map (·.1) := by
    rw [Table.toList, List.map_map, List.map_map]
    refine List.map_congr_left fun e he => ?_
    exact (hl e.1 e.2 ((Table.mem_entries_iff l).1 he)).1
  have hnodup : ((l.toList.map (·.pair)).map fun p => key p.1 p.2).Nodup := by
    rw [hkeys]
    refine l.increasing.imp fun {k k'} (hlt : k < k') => ?_
    rintro rfl
    exact String.lt_irrefl k hlt
  exact (List.filter_sublist.map _).nodup (List.Nodup.of_map _ hnodup)

theorem mem_live_iff {S : AppId → Prop} (hl : l.Holds S) {now : UInt64} {r : LedgerRecord} :
    r ∈ l.live now ↔ l.get? r.slot = some r ∧ r.stamp.Covers now := by
  rw [live, List.mem_filter, Bool.not_eq_true', LedgerRecord.isExpired_eq_false_iff]
  constructor
  · rintro ⟨hr, hcovers⟩
    exact ⟨get?_of_mem_toList hl hr, hcovers⟩
  · rintro ⟨hr, hcovers⟩
    exact ⟨List.mem_map.2 ⟨(r.slot, r), (Table.mem_entries_iff l).2 hr, rfl⟩, hcovers⟩

/-- A ledger has a record of a slot exactly if the slot was ever reported, and never loses it. The
record is as of the last report and names whom the last heartbeat named; and the live records are,
one each, those of the slots whose last report still counts. -/
theorem record_of_last_report (h : Fed es) :
    (∀ app i,
      ((run es).get? (key app i)).map (·.stamp) = (reports app i (es.flatMap Event.writes)).getLast? ∧
      ((run es).get? (key app i)).map (·.holding) = (holdings app i (es.flatMap Event.writes)).getLast? ∧
      ∀ r, (run es).get? (key app i) = some r → r.pair = (app, i)) ∧
    (∀ past, past <+: es → ∀ k, ((run past).get? k).isSome → ((run es).get? k).isSome) ∧
    ∀ now, (∀ r ∈ (run es).live now, (run es).get? r.slot = some r) ∧
      (((run es).live now).map (·.pair)).Nodup ∧
      ∀ app i, (app, i) ∈ ((run es).live now).map (·.pair) ↔
        ∃ s, (reports app i (es.flatMap Event.writes)).getLast? = some s ∧ s.Covers now := by
  have hholds := holds_all es
  have hpair {app i r} (hr : (run es).get? (key app i) = some r) : r.pair = (app, i) := by
    obtain ⟨rfl, rfl⟩ := LedgerRecord.key_inj.1 (hholds _ r hr).1
    rfl
  have hreports (app i) := get?_written_report h.sourced app i
  rw [← run_eq_written] at hreports
  refine ⟨fun app i => ⟨(hreports app i).1, (hreports app i).2, fun r hr => hpair hr⟩, ?_, fun now =>
    ⟨fun r hr => ((mem_live_iff hholds).1 hr).1, nodup_live hholds now, fun app i => ?_⟩⟩
  · intro past hpast k hk
    rw [run_eq_written] at hk ⊢
    exact isSome_get?_written (flatMap_writes_mono hpast) hk
  · rw [← (hreports app i).1, List.mem_map]
    constructor
    · rintro ⟨r, hr, hslot⟩
      obtain ⟨rfl, rfl⟩ := Prod.mk.inj hslot
      obtain ⟨hget, hcovers⟩ := (mem_live_iff hholds).1 hr
      have hslot : (run es).get? (key r.appId r.index) = some r := hget
      exact ⟨r.stamp, by rw [hslot]; rfl, hcovers⟩
    · rintro ⟨s, hs, hcovers⟩
      obtain ⟨r, hr, rfl⟩ := Option.map_eq_some_iff.1 hs
      have hslot := hpair hr
      obtain ⟨rfl, rfl⟩ := Prod.mk.inj hslot
      exact ⟨r, (mem_live_iff hholds).2 ⟨hr, hcovers⟩, hslot⟩

/-- One slot changes hands, and stats that were asked for before come after that. -/
def replacedThenAnswered : List Event :=
  [.heartbeat 100 30 ⟨"node-1", [⟨"web:1", "v1", 0, "old", .running⟩, ⟨"web", "v1", 0, "other", .running⟩]⟩,
    .heartbeat 90 30 ⟨"node-2", [⟨"web:1", "v2", 0, "newer", .starting⟩, ⟨"web:1", "v2", 0, "new", .running⟩]⟩,
    .stats 110 30 ⟨"web:1", 0, "v1", "old", "node-1", .running, none, 100, 30⟩
      ⟨"web:1", 0, .running, ⟨1, 1, ⟨0, by decide +kernel⟩⟩⟩]

theorem fed_replacedThenAnswered : Fed replacedThenAnswered := by
  have hread : (run (replacedThenAnswered.take 1)).toList =
      [⟨"web", 0, "v1", "other", "node-1", .running, none, 100, 30⟩,
        ⟨"web:1", 0, "v1", "old", "node-1", .running, none, 100, 30⟩] := rfl
  have hearly : replacedThenAnswered.take 1 <+: replacedThenAnswered.take 2 :=
    List.take_prefix_take_left (by decide)
  exact .stats _ _ _ (.heartbeat _ _ _ (.heartbeat _ _ _ .nil)) hearly (by rw [hread]; simp)

theorem record_of_last_report_web :
    ((run replacedThenAnswered).get? "web:1:0").map (·.holding) = some ⟨"v2", "new", "node-2"⟩ ∧
    ("web:1", 0) ∈ ((run replacedThenAnswered).live 140).map (·.pair) ∧
    ("web", 0) ∉ ((run replacedThenAnswered).live 140).map (·.pair) := by
  obtain ⟨hrecord, -, hlive⟩ := record_of_last_report fed_replacedThenAnswered
  obtain ⟨-, -, hpairs⟩ := hlive 140
  refine ⟨(hrecord "web:1" 0).2.1, (hpairs "web:1" 0).2 ⟨⟨110, 30⟩, rfl, by decide⟩, fun h => ?_⟩
  obtain ⟨s, hs, hcovers⟩ := (hpairs "web" 0).1 h
  obtain rfl : (⟨100, 30⟩ : Stamp) = s := Option.some.inj hs
  exact absurd hcovers (by decide)

end Ledger

end AppFleet
