import AppFleet.Proofs.Ledger.History

/-! Whose usage a record shows. A heartbeat that hands a slot to another instance drops the usage of the
one before; a reply is merged into the slot whoever holds it by then. So a usage is about the holder
exactly if the slot was still, or again, with the instance that was asked about when the reply came. -/

namespace AppFleet

def Usage.kept (u : Usage) : Usage := { u with cpu := Json.reread u.cpu }

/-- What is left of a reported usage; it goes through text whenever its record is written again. -/
inductive Usage.Kept (reported : Usage) : Usage → Prop where
  | merged : Kept reported reported.kept
  | carried {u : Usage} : Kept reported u → Kept reported u.kept

namespace Ledger

def Write.holder? (key : String) : Write → Option String
  | report _ _ _ entry =>
    if LedgerRecord.key entry.appId entry.index = key then some entry.instanceId else none
  | merge .. => none

def holders (key : String) (ws : List Write) : List String := ws.filterMap (Write.holder? key)

theorem holders_concat (key : String) (ws : List Write) (w : Write) :
    holders key (ws ++ [w]) = holders key ws ++ (w.holder? key).toList := by
  cases h : w.holder? key <;> simp [holders, h]

variable {l : Ledger} {w : Write} {ws early between : List Write} {key : String}

/-- A record stays, and changes hands by reports alone. -/
theorem get?_perform_holder {r : LedgerRecord} (h : l.get? key = some r) :
    ∃ r', (w.perform l).get? key = some r' ∧ r'.instanceId = (w.holder? key).getD r.instanceId := by
  by_cases hkey : key = w.slot
  · subst hkey
    cases w with
    | report now ttl node entry =>
      exact ⟨_, get?_report_self now ttl node entry, by simp [Write.holder?, Write.slot]; rfl⟩
    | merge now ttl requested reply =>
      by_cases hanswers : Answers reply requested
      · refine ⟨_, get?_merge_self hanswers, ?_⟩
        have hcurrent : l.get? requested.slot = some r := h
        rw [hcurrent]
        rfl
      · exact ⟨r, by rw [perform_merge_of_not hanswers]; exact h, rfl⟩
  · refine ⟨r, by rw [get?_perform_of_ne hkey]; exact h, ?_⟩
    cases w with
    | report now ttl node entry =>
      have hne : LedgerRecord.key entry.appId entry.index ≠ key := fun heq => hkey heq.symm
      simp [Write.holder?, hne]
    | merge now ttl requested reply => rfl

theorem get?_written_holder {r : LedgerRecord} (h : (written early).get? key = some r)
    (between : List Write) : ∃ r', (written (early ++ between)).get? key = some r' ∧
      r'.instanceId = (holders key between).getLast?.getD r.instanceId := by
  induction between using List.reverseRecOn with
  | nil => exact ⟨r, by simpa using h, rfl⟩
  | append_singleton between w ih =>
    obtain ⟨r₁, hr₁, hheld⟩ := ih
    obtain ⟨r₂, hr₂, hholds⟩ := get?_perform_holder (w := w) hr₁
    refine ⟨r₂, by rw [← List.append_assoc, written_concat]; exact hr₂, ?_⟩
    rw [hholds, hheld, holders_concat, List.getLast?_append]
    cases w.holder? key <;> rfl

/-- A stats reply that some writes merged into the slot that it answers for. -/
structure Merged (ws : List Write) where
  /-- What had been written when the record was read that the reply was asked for. -/
  early : List Write
  /-- What was written until the reply came. -/
  between : List Write
  late : List Write
  now : UInt64
  ttl : UInt64
  requested : LedgerRecord
  reply : StatsReply
  history : ws = early ++ between ++ .merge now ttl requested reply :: late
  read : (written early).get? requested.slot = some requested
  answers : Answers reply requested

namespace Merged

def slot (m : Merged ws) : String := m.requested.slot

def write (m : Merged ws) : Write := .merge m.now m.ttl m.requested m.reply

theorem write_mem (m : Merged ws) : m.write ∈ ws := by
  have hmem : m.write ∈ m.early ++ m.between ++ m.write :: m.late :=
    List.mem_append_right _ List.mem_cons_self
  exact (congrArg (m.write ∈ ·) m.history).mpr hmem

def ledger (m : Merged ws) : Ledger := written (m.early ++ m.between ++ [m.write])

/-- The slot did not change hands before the reply came, or it came back. -/
def Timely (m : Merged ws) : Prop :=
  ∀ holder ∈ (holders m.slot m.between).getLast?, holder = m.requested.instanceId

def snoc (m : Merged ws) (w : Write) : Merged (ws ++ [w]) :=
  { m with
    late := m.late ++ [w]
    history := by simp [m.history] }

/-- State and usage go to the instance that holds the slot by then, whichever was asked about. -/
theorem sets (m : Merged ws) : ∃ r, m.ledger.get? m.slot = some r ∧ r.state = m.reply.state ∧
    r.usage = some m.reply.usage.kept ∧ (m.requested.instanceId = r.instanceId ↔ m.Timely) := by
  obtain ⟨r, hr, hheld⟩ := get?_written_holder m.read m.between
  refine ⟨_, by rw [ledger, written_concat]; exact get?_merge_self m.answers, rfl, rfl, ?_⟩
  rw [hr]
  change m.requested.instanceId = r.instanceId ↔ m.Timely
  rw [hheld, Timely, slot]
  cases (holders m.requested.slot m.between).getLast? with
  | none => simp
  | some holder => simp [eq_comm]

end Merged

/-- Every reply that is merged was asked for a record that the ledger had held. -/
def Sourced (ws : List Write) : Prop :=
  ∀ before now ttl requested reply late, ws = before ++ .merge now ttl requested reply :: late →
    ∃ early, early <+: before ∧ (written early).get? requested.slot = some requested

theorem sourced_nil : Sourced [] := by
  intro before now ttl requested reply late h
  simp at h

theorem Sourced.of_append {ws' : List Write} (h : Sourced (ws ++ ws')) : Sourced ws := by
  intro before now ttl requested reply late heq
  exact h before now ttl requested reply (late ++ ws') (by simp [heq])

theorem Sourced.append {ws' : List Write} (h : Sourced ws)
    (hread : ∀ now ttl requested reply, .merge now ttl requested reply ∈ ws' →
      ∃ early, early <+: ws ∧ (written early).get? requested.slot = some requested) :
    Sourced (ws ++ ws') := by
  intro before now ttl requested reply late heq
  rcases List.append_eq_append_iff.1 heq with ⟨more, rfl, hws'⟩ | ⟨more, hws, hmore⟩
  · obtain ⟨early, hearly, hget⟩ := hread now ttl requested reply (by simp [hws'])
    exact ⟨early, hearly.trans (List.prefix_append _ _), hget⟩
  · cases more with
    | nil =>
      have hmem : Write.merge now ttl requested reply ∈ ws' := by
        rw [List.nil_append] at hmore
        simp [← hmore]
      obtain ⟨early, hearly, hget⟩ := hread now ttl requested reply hmem
      exact ⟨early, by simpa [hws] using hearly, hget⟩
    | cons w more =>
      obtain ⟨rfl, hlate⟩ := List.cons.inj hmore
      exact h before now ttl requested reply more hws

theorem Sourced.merged {before late : List Write} {now ttl : UInt64} {requested : LedgerRecord}
    {reply : StatsReply} (h : Sourced ws) (heq : ws = before ++ .merge now ttl requested reply :: late)
    (hanswers : Answers reply requested) :
    ∃ m : Merged ws, m.early ++ m.between = before ∧ m.write = .merge now ttl requested reply := by
  obtain ⟨early, ⟨between, rfl⟩, hget⟩ := h before now ttl requested reply late heq
  exact ⟨⟨early, between, late, now, ttl, requested, reply, heq, hget, hanswers⟩, rfl, rfl⟩

/-- Every usage in the ledger is left of a reply, and is about the instance that the record names
exactly if that reply was timely. -/
theorem Sourced.usage (h : Sourced ws) {r : LedgerRecord} {u : Usage}
    (hr : (written ws).get? key = some r) (hu : r.usage = some u) :
    ∃ m : Merged ws, m.slot = key ∧ m.reply.usage.Kept u ∧
      (m.requested.instanceId = r.instanceId ↔ m.Timely) := by
  induction ws using List.reverseRecOn generalizing r u with
  | nil => simp at hr
  | append_singleton ws w ih =>
    have hbefore {r : LedgerRecord} {u : Usage} (hr : (written ws).get? key = some r)
        (hu : r.usage = some u) : ∃ m : Merged (ws ++ [w]), m.slot = key ∧ m.reply.usage.Kept u ∧
          (m.requested.instanceId = r.instanceId ↔ m.Timely) := by
      obtain ⟨m, hm⟩ := ih h.of_append hr hu
      exact ⟨m.snoc w, hm⟩
    rw [written_concat] at hr
    by_cases hkey : key = w.slot
    · subst hkey
      cases w with
      | report now ttl node entry =>
        obtain rfl := Option.some.inj ((get?_report_self now ttl node entry).symm.trans hr)
        -- only a record of the same instance passes its usage on
        obtain ⟨carried, hcarried, rfl⟩ := Option.map_eq_some_iff.1 hu
        obtain ⟨current, hcurrent, hcurrentUsage⟩ := Option.bind_eq_some_iff.1 hcarried
        obtain ⟨hget, hsame⟩ := Option.filter_eq_some_iff.1 hcurrent
        obtain ⟨m, hslot, hkept, hiff⟩ := hbefore hget hcurrentUsage
        refine ⟨m, hslot, hkept.carried, ?_⟩
        rw [← hiff, of_decide_eq_true hsame]
        rfl
      | merge now ttl requested reply =>
        by_cases hanswers : Answers reply requested
        · obtain ⟨m, hbetween, hwrite⟩ := h.merged rfl hanswers
          have hslot : m.slot = requested.slot := congrArg Write.slot hwrite
          obtain ⟨r', hr', -, husage, hiff⟩ := m.sets
          rw [Merged.ledger, hbetween, hwrite, written_concat, hslot] at hr'
          cases hr.symm.trans hr'
          cases hu.symm.trans husage
          exact ⟨m, hslot, .merged, hiff⟩
        · rw [perform_merge_of_not hanswers] at hr
          exact hbefore hr hu
    · rw [get?_perform_of_ne hkey] at hr
      exact hbefore hr hu

end Ledger

end AppFleet
