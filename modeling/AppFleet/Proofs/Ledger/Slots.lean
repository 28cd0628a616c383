import AppFleet.Proofs.Ledger.History

/-! What the slots of an application show. A slot is meant to show the application's own record of that
index. The scan behind it also finds the records of every application whose id clashes, and shows the
one with the greatest key; so slots are the application's own exactly as far as no clashing record
takes their place. -/

namespace AppFleet

/-- A slot that shows a record at some moment. -/
def Slot.asOf (now : UInt64) (r : LedgerRecord) : Slot :=
  ⟨r.stateAt now, r.usage, some r.instanceId, some r.nodeId⟩

theorem Slot.asOf_live {now : UInt64} {r : LedgerRecord} (h : ¬ r.isExpired now) :
    Slot.asOf now r = Slot.ofRecord r := by
  simp [asOf, ofRecord, LedgerRecord.stateAt, h]

namespace Ledger

open LedgerRecord (key)

/-- What a slot shows by the application's own record alone. -/
def own (l : Ledger) (now : UInt64) (app : AppId) (i : UInt32) : Slot :=
  match l.get? (key app i) with
  | some r => if r.isExpired now then .down else .asOf now r
  | none => .down

/-- A live record of this index that the scan for an application finds. -/
structure Listed (l : Ledger) (now : UInt64) (app : AppId) (i : UInt32) (r : LedgerRecord) : Prop where
  stored : l.get? r.slot = some r
  found : r.appId = app ∨ Clashes app r.appId
  live : ¬ r.isExpired now
  index : r.index = i

structure Shows (l : Ledger) (now : UInt64) (app : AppId) (i : UInt32) (r : LedgerRecord) : Prop
    extends Listed l now app i r where
  greatest : ∀ r', Listed l now app i r' → ¬ r.slot < r'.slot

def shown? (l : Ledger) (now : UInt64) (app : AppId) (i : UInt32) : Option LedgerRecord :=
  (((l.ofApp app).filter (!·.isExpired now)).filter (·.index.toNat = i.toNat)).getLast?

variable {l : Ledger} {S : AppId → Prop} {now : UInt64} {app : AppId} {i n : UInt32}

theorem length_states (l : Ledger) (now : UInt64) (app : AppId) (n : UInt32) :
    (l.states now app n).length = n.toNat := by
  simp [states]

theorem getElem?_states (h : i < n) : (l.states now app n)[i.toNat]? =
    some (((l.shown? now app i).map Slot.ofRecord).getD .down) := by
  have hlt : i.toNat < n.toNat := UInt32.lt_iff_toNat_lt.1 h
  simp [states, shown?, List.getElem?_map, List.getElem?_range hlt]

def scans (now : UInt64) (app : AppId) (i : UInt32) (e : String × LedgerRecord) : Bool :=
  e.2.index.toNat = i.toNat && (!e.2.isExpired now && (app ++ ":").toList.isPrefixOf e.1.toList)

theorem shown?_eq (l : Ledger) (now : UInt64) (app : AppId) (i : UInt32) :
    l.shown? now app i = (l.entries.filter (scans now app i)).getLast?.map (·.2) := by
  simp only [shown?, ofApp, Table.withPrefix, List.filter_map, List.filter_filter, List.getLast?_map]
  rfl

theorem mem_scan_iff (hl : l.Holds S) {e : String × LedgerRecord} :
    e ∈ l.entries.filter (scans now app i) ↔ e.1 = e.2.slot ∧ Listed l now app i e.2 := by
  obtain ⟨k, r⟩ := e
  rw [List.mem_filter, Table.mem_entries_iff]
  simp only [scans, Bool.and_eq_true, decide_eq_true_eq, Bool.not_eq_true',
    List.isPrefixOf_iff_prefix]
  constructor
  · rintro ⟨hstored, hindex, hlive, hprefix⟩
    obtain ⟨rfl, -⟩ := hl k r hstored
    exact ⟨rfl, hstored, (LedgerRecord.isPrefix_key_iff _ _ _).1 hprefix, by simp [hlive],
      UInt32.toNat_inj.1 hindex⟩
  · rintro ⟨rfl, hr⟩
    exact ⟨hr.stored, congrArg UInt32.toNat hr.index, by simpa using hr.live,
      (LedgerRecord.isPrefix_key_iff _ _ _).2 hr.found⟩

theorem shown?_eq_some_iff (hl : l.Holds S) {r : LedgerRecord} :
    l.shown? now app i = some r ↔ l.Shows now app i r := by
  have hincreasing := l.increasing.filter (scans now app i)
  rw [shown?_eq, Option.map_eq_some_iff]
  constructor
  · rintro ⟨e, hlast, rfl⟩
    obtain ⟨he, hgreatest⟩ := (Keyed.getLast?_eq_some_iff hincreasing).1 hlast
    obtain ⟨hkey, hr⟩ := (mem_scan_iff hl).1 he
    refine ⟨hr, fun r' hr' => ?_⟩
    rw [← hkey]
    exact hgreatest (r'.slot, r') ((mem_scan_iff hl).2 ⟨rfl, hr'⟩)
  · intro hr
    refine ⟨(r.slot, r), (Keyed.getLast?_eq_some_iff hincreasing).2 ?_, rfl⟩
    refine ⟨(mem_scan_iff hl).2 ⟨rfl, hr.toListed⟩, fun e he => ?_⟩
    obtain ⟨hkey, hlisted⟩ := (mem_scan_iff hl).1 he
    rw [hkey]
    exact hr.greatest e.2 hlisted

theorem shown?_eq_none_iff (hl : l.Holds S) :
    l.shown? now app i = none ↔ ∀ r, ¬ Listed l now app i r := by
  rw [shown?_eq, Option.map_eq_none_iff, List.getLast?_eq_none_iff, List.eq_nil_iff_forall_not_mem]
  constructor
  · exact fun h r hr => h (r.slot, r) ((mem_scan_iff hl).2 ⟨rfl, hr⟩)
  · exact fun h e he => h e.2 ((mem_scan_iff hl).1 he).2

theorem own_eq_of_listed {r : LedgerRecord} (hr : Listed l now app i r) (happ : r.appId = app) :
    l.own now app i = Slot.ofRecord r := by
  have hkey : key app i = r.slot := by
    rw [← happ, ← hr.index]
    rfl
  simp [own, hkey, hr.stored, hr.live, Slot.asOf_live hr.live]

theorem own_eq_down_of_not_listed (hl : l.Holds S) (h : ∀ r, ¬ Listed l now app i r) :
    l.own now app i = .down := by
  unfold own
  split
  · rename_i r hr
    split
    · rfl
    · rename_i hlive
      obtain ⟨hkey, -⟩ := hl _ r hr
      obtain ⟨happ, hindex⟩ := LedgerRecord.key_inj.1 hkey
      exact absurd ⟨hkey ▸ hr, .inl happ, hlive, hindex⟩ (h r)
  · rfl

/-- A slot shows the application's own record unless a clashing one that looks different is shown. -/
theorem slot_eq_own_iff (hl : l.Holds S) (h : i < n) :
    (l.states now app n)[i.toNat]? = some (l.own now app i) ↔
      ∀ r, l.Shows now app i r → Clashes app r.appId → Slot.ofRecord r = l.own now app i := by
  rw [getElem?_states h, Option.some.injEq]
  cases hshown : l.shown? now app i with
  | none =>
    have hnone := (shown?_eq_none_iff hl).1 hshown
    simp only [Option.map_none, Option.getD_none, own_eq_down_of_not_listed hl hnone, true_iff]
    exact fun r hr => absurd hr.toListed (hnone r)
  | some r =>
    have hr := (shown?_eq_some_iff hl).1 hshown
    simp only [Option.map_some, Option.getD_some]
    constructor
    · intro heq r' hr' _
      obtain rfl : r = r' := Option.some.inj (hshown.symm.trans ((shown?_eq_some_iff hl).2 hr'))
      exact heq
    · intro hclash
      rcases hr.found with happ | hfound
      · exact (own_eq_of_listed hr.toListed happ).symm
      · exact hclash r hr hfound

def AgreeOn (app : AppId) (l l' : Ledger) : Prop :=
  ∀ r, r.appId = app → (l.get? r.slot = some r ↔ l'.get? r.slot = some r)

theorem AgreeOn.own_eq {l' : Ledger} {S' : AppId → Prop} (h : AgreeOn app l l') (hl : l.Holds S)
    (hl' : l'.Holds S') : l.own now app i = l'.own now app i := by
  have hget : l.get? (key app i) = l'.get? (key app i) := by
    refine Option.ext fun r => ?_
    constructor
    · intro hr
      obtain ⟨hkey, -⟩ := hl _ r hr
      have hslot := (h r (LedgerRecord.key_inj.1 hkey).1).1 (hkey ▸ hr)
      rw [← hkey]
      exact hslot
    · intro hr
      obtain ⟨hkey, -⟩ := hl' _ r hr
      have hslot := (h r (LedgerRecord.key_inj.1 hkey).1).2 (hkey ▸ hr)
      rw [← hkey]
      exact hslot
  simp [own, hget]

theorem states_eq_own (hl : l.Holds S) (hS : ∀ id, S id → ¬ Clashes app id) (h : i < n) :
    (l.states now app n)[i.toNat]? = some (l.own now app i) := by
  refine (slot_eq_own_iff hl h).2 fun r hr hclash => absurd hclash (hS r.appId ?_)
  exact (hl _ r hr.stored).2

def Event.About (S : AppId → Prop) (e : Event) : Prop := ∀ w ∈ e.writes, S w.app

theorem holds_run {es : List Event} (h : ∀ e ∈ es, e.About S) : (run es).Holds S := by
  rw [run_eq_written]
  refine holds_written fun w hw => ?_
  obtain ⟨e, he, hw⟩ := List.mem_flatMap.1 hw
  exact h e he w hw

/-- Among the applications in `S`, the slots of one are the same in any two ledgers that have the same
records of it. -/
def Isolated (S : AppId → Prop) (app : AppId) : Prop :=
  ∀ es es' : List Event, (∀ e ∈ es, e.About S) → (∀ e ∈ es', e.About S) →
    AgreeOn app (run es) (run es') → ∀ now n, (run es).states now app n = (run es').states now app n

theorem isolated_of_not_clashes (h : ∀ id, S id → ¬ Clashes app id) : Isolated S app := by
  intro es es' hes hes' hagree now n
  refine List.ext_getElem? fun k => ?_
  by_cases hk : k < n.toNat
  · obtain ⟨i, rfl⟩ : ∃ i : UInt32, i.toNat = k :=
      ⟨UInt32.ofNat k, UInt32.toNat_ofNat_of_lt' (Nat.lt_trans hk n.toNat_lt)⟩
    have hi : i < n := UInt32.lt_iff_toNat_lt.2 hk
    rw [states_eq_own (holds_run hes) h hi, states_eq_own (holds_run hes') h hi,
      hagree.own_eq (holds_run hes) (holds_run hes')]
  · rw [List.getElem?_eq_none (by simpa [length_states] using hk),
      List.getElem?_eq_none (by simpa [length_states] using hk)]

def heard (app : AppId) : Event := .heartbeat 0 0 ⟨"node", [⟨app, "", 0, "", .running⟩]⟩

/-- An instance of a clashing application is shown in a slot of which nothing is known. -/
theorem not_isolated_of_clashes {id : AppId} (hid : S id) (hclash : Clashes app id) :
    ¬ Isolated S app := by
  intro h
  have hrun : run [heard id] = (Write.report 0 0 "node" ⟨id, "", 0, "", .running⟩).perform .empty := rfl
  have habout : ∀ e ∈ [heard id], e.About S := by
    simpa [heard, Event.About, Event.writes, Write.app] using hid
  have hstored : (run [heard id]).get? (key id 0) =
      some (⟨id, 0, "", "", "node", .running, none, 0, 0⟩ : LedgerRecord) := by
    rw [hrun]
    exact get?_report_self 0 0 "node" _
  have hother {k : String} {r : LedgerRecord} (hr : (run [heard id]).get? k = some r) :
      k = key id 0 := by
    by_contra hne
    rw [hrun, get?_perform_of_ne hne] at hr
    simp at hr
  have hagree : AgreeOn app (run [heard id]) (run []) := by
    intro r happ
    refine ⟨fun hr => ?_, fun hr => absurd hr (by simp [run])⟩
    have hkey := LedgerRecord.key_inj.1 (hother hr)
    exact absurd (happ ▸ hkey.1).symm hclash.ne
  have hshows : (run [heard id]).Shows 0 app 0 ⟨id, 0, "", "", "node", .running, none, 0, 0⟩ := by
    refine ⟨⟨hstored, .inr hclash, by simp [LedgerRecord.isExpired], rfl⟩, fun r hr hlt => ?_⟩
    rw [hother hr.stored] at hlt
    exact String.lt_irrefl _ hlt
  have hslot : ((run [heard id]).states 0 app 1)[(0 : UInt32).toNat]? = some .down := by
    rw [h [heard id] [] habout (by simp) hagree 0 1]
    rfl
  rw [getElem?_states (by decide), (shown?_eq_some_iff (holds_run habout)).2 hshows] at hslot
  simp [Slot.ofRecord, Slot.down] at hslot

/-- Every slot is there; it shows the application's own record exactly if no clashing record that looks
different is shown; and slots depend on the application's own records alone exactly if no application
clashes. -/
theorem slots_own_iff (app : AppId) :
    (∀ (es : List Event) (now : UInt64) (n : UInt32), ((run es).states now app n).length = n.toNat ∧
      ∀ i < n, ((run es).states now app n)[i.toNat]? = some ((run es).own now app i) ↔
        ∀ r, (run es).Shows now app i r → Clashes app r.appId →
          Slot.ofRecord r = (run es).own now app i) ∧
    ∀ S : AppId → Prop, Isolated S app ↔ ∀ id, S id → ¬ Clashes app id := by
  constructor
  · intro es now n
    have hl : (run es).Holds fun _ => True := holds_run fun _ _ _ _ => trivial
    exact ⟨length_states _ _ _ _, fun i hi => slot_eq_own_iff hl hi⟩
  · intro S
    constructor
    · exact fun h id hid hclash => not_isolated_of_clashes hid hclash h
    · exact isolated_of_not_clashes

def webAndBlue : List Event :=
  [.heartbeat 0 0 ⟨"node-1", [⟨"web", "v1", 0, "web-0", .running⟩]⟩,
    .heartbeat 0 0 ⟨"node-2", [⟨"web:blue", "v1", 1, "blue-1", .crashed⟩]⟩]

theorem states_webAndBlue : (run webAndBlue).states 0 "web" 2 =
    [⟨.running, none, some "web-0", some "node-1"⟩,
      ⟨.crashed, none, some "blue-1", some "node-2"⟩] := rfl

theorem slots_own_iff_web : (∀ r, (run webAndBlue).Shows 0 "web" 0 r → Clashes "web" r.appId →
    Slot.ofRecord r = ⟨.running, none, some "web-0", some "node-1"⟩) ∧
    ¬ Isolated (fun id => id = "web" ∨ id = "web:blue") "web" := by
  obtain ⟨hslots, hisolated⟩ := slots_own_iff "web"
  refine ⟨((hslots webAndBlue 0 2).2 0 (by decide)).1 ?_, fun h => ?_⟩
  · rw [states_webAndBlue]
    rfl
  · exact (hisolated _).1 h "web:blue" (.inr rfl) ⟨"blue".toList, by decide⟩

theorem shows_other_application : ¬ ∀ (es : List Event) (now : UInt64) (app : AppId) (n i : UInt32),
    i < n → ((run es).states now app n)[i.toNat]? = some ((run es).own now app i) := by
  intro h
  have hslot := h webAndBlue 0 "web" 2 1 (by decide)
  rw [states_webAndBlue] at hslot
  have hown : (run webAndBlue).own 0 "web" 1 = .down := rfl
  rw [hown] at hslot
  simp [Slot.down] at hslot

end Ledger

end AppFleet
