import AppFleet.Ledger.Sweep
import AppFleet.Proofs.Ledger.Reports

/-! What a survey makes of its ledger, in whatever order its questions are over. Each is about a slot of
its own, and its ending touches no other. -/

namespace AppFleet.Ledger

/-- A question that is over: the record it was about, and what came back. -/
abbrev Ending := LedgerRecord × Replies

namespace Ending

def stats? (o : Ending) : Option StatsReply := (statsOf o.2).filter (Answers · o.1)

/-- What becomes of the record of the slot. -/
def leaves (now ttl : UInt64) (o : Ending) (current : Option LedgerRecord) : Option LedgerRecord :=
  match o.stats? with
  | some reply => some (refreshed now ttl (current.getD o.1) reply).stored
  | none => current

def settle (now ttl : UInt64) (p : SweepReport × Ledger) (o : Ending) : SweepReport × Ledger :=
  match o.stats? with
  | some reply => ({ p.1 with refreshed := p.1.refreshed + 1 }, (p.2.merge now ttl o.1 reply).2)
  | none => p

theorem stats?_eq_some_iff {o : Ending} {reply : StatsReply} :
    o.stats? = some reply ↔ statsOf o.2 = some reply ∧ Answers reply o.1 := by
  simp [stats?, Option.filter_eq_some_iff]

variable {now ttl : UInt64} {p : SweepReport × Ledger} {o o' : Ending} {endings order : List Ending}
  {key : String}

theorem settle_some {reply : StatsReply} (h : o.stats? = some reply) : o.settle now ttl p =
    ({ p.1 with refreshed := p.1.refreshed + 1 }, p.2.put o.1.slot
      (refreshed now ttl ((p.2.get? o.1.slot).getD o.1) reply).stored) := by
  simp [settle, h, merge, write, (stats?_eq_some_iff.1 h).2]

theorem settle_none (h : o.stats? = none) : o.settle now ttl p = p := by
  simp [settle, h]

theorem get?_settle (now ttl : UInt64) (p : SweepReport × Ledger) (o : Ending) (key : String) :
    (o.settle now ttl p).2.get? key =
      if key = o.1.slot then o.leaves now ttl (p.2.get? key) else p.2.get? key := by
  cases h : o.stats? with
  | none => simp [settle_none h, leaves, h]
  | some reply =>
    rw [settle_some h]
    split
    · subst key
      simp [leaves, h]
    · exact Table.get?_put_of_ne _ _ ‹_›

theorem settle_report (now ttl : UInt64) (p : SweepReport × Ledger) (o : Ending) :
    (o.settle now ttl p).1 = { p.1 with refreshed := p.1.refreshed + o.stats?.isSome.toNat } := by
  cases h : o.stats? with
  | none => simp [settle_none h]
  | some reply => simp [settle_some h]

theorem settle_comm (h : o.1.slot ≠ o'.1.slot) :
    o'.settle now ttl (o.settle now ttl p) = o.settle now ttl (o'.settle now ttl p) := by
  refine Prod.ext ?_ (Table.ext_get? fun key => ?_)
  · simp only [settle_report]
    congr 1
    omega
  · simp only [get?_settle]
    split
    · rename_i hkey
      rw [if_neg (by rw [hkey]; exact h.symm), if_neg (by rw [hkey]; exact h.symm)]
    · rfl

/-- The order in which the questions are over makes no difference. -/
theorem settle_perm (hslots : (endings.map (·.1.slot)).Nodup) (horder : order.Perm endings) :
    order.foldl (settle now ttl) p = endings.foldl (settle now ttl) p := by
  refine horder.foldl_eq' (fun o ho o' ho' p => ?_) p
  by_cases hsame : o = o'
  · rw [hsame]
  · refine settle_comm fun hslot => hsame ?_
    exact List.inj_on_of_nodup_map hslots (horder.mem_iff.1 ho) (horder.mem_iff.1 ho') hslot

theorem get?_settled_of_not_mem (h : ∀ o ∈ endings, key ≠ o.1.slot) :
    (endings.foldl (settle now ttl) p).2.get? key = p.2.get? key := by
  induction endings generalizing p with
  | nil => rfl
  | cons o rest ih =>
    rw [List.foldl_cons, ih fun o' ho' => h o' (List.mem_cons_of_mem _ ho'), get?_settle,
      if_neg (h o List.mem_cons_self)]

theorem get?_settled (hslots : (endings.map (·.1.slot)).Nodup) (ho : o ∈ endings) :
    (endings.foldl (settle now ttl) p).2.get? o.1.slot = o.leaves now ttl (p.2.get? o.1.slot) := by
  induction endings generalizing p with
  | nil => cases ho
  | cons first rest ih =>
    obtain ⟨hfirst, hrest⟩ := List.nodup_cons.1 hslots
    have hapart : ∀ o' ∈ rest, first.1.slot ≠ o'.1.slot := by
      intro o' ho' hslot
      exact hfirst (List.mem_map.2 ⟨o', ho', hslot.symm⟩)
    rw [List.foldl_cons]
    rcases List.mem_cons.1 ho with rfl | ho
    · rw [get?_settled_of_not_mem hapart, get?_settle, if_pos rfl]
    · rw [ih hrest ho, get?_settle, if_neg (hapart o ho).symm]

theorem settled_report : (endings.foldl (settle now ttl) p).1 =
    { p.1 with refreshed := p.1.refreshed + endings.countP (·.stats?.isSome) } := by
  induction endings generalizing p with
  | nil => simp
  | cons o rest ih =>
    rw [List.foldl_cons, ih, settle_report, List.countP_cons]
    cases o.stats?.isSome
    · rfl
    · simp only [Bool.toNat_true, if_true, SweepReport.mk.injEq, true_and]
      omega

end Ending

theorem nodup_slots {S : AppId → Prop} {l : Ledger} (hl : l.Holds S) (now : UInt64) :
    ((l.live now).map (·.slot)).Nodup := by
  have hslots : (l.live now).map (·.slot) =
      ((l.live now).map (·.pair)).map fun q => LedgerRecord.key q.1 q.2 := by
    rw [List.map_map]
    rfl
  rw [hslots]
  refine (nodup_live hl now).map fun q q' hkey => ?_
  obtain ⟨happ, hindex⟩ := LedgerRecord.key_inj.1 hkey
  exact Prod.ext happ hindex

end AppFleet.Ledger
