import AppFleet.Proofs.Application.Verdict
import Mathlib.Data.List.Induction

/-! Pending periods. A package waits for a verdict from the creation of its application, from each restage
and each upload of other bits, and takes exactly one; what came of it is the verdict of the latest
period. -/

namespace AppFleet

namespace Operation

def isVerdict : Operation → Bool
  | markStaged _ | markFailed _ => true
  | _ => false

/-- The operation is accepted and begins a period: the package is to be staged again, or it is another
one. -/
def Reopens (a : Application) (op : Operation) : Prop :=
  ∃ b, op.perform a = .ok b ∧ (op = .restage ∨ op = .markForRestaging ∨
    ∃ u, op = .apply u ∧ b.packageHash ≠ a.packageHash)

def accepts (a : Application) (op : Operation) : List Operation :=
  if op.isVerdict && (op.perform a).isOk then [op] else []

def verdicts (a : Application) : List Operation → List Operation
  | [] => []
  | op :: ops => op.accepts a ++ verdicts (after a op) ops

/-- After what went before, these operations are the latest period of a run so far. -/
structure IsPeriod (a : Application) (past period : List Operation) : Prop where
  begun : past = [] ∨ ∃ early op, past = early ++ [op] ∧ op.Reopens (run a early)
  lasts : ∀ early op late, period = early ++ op :: late → ¬ op.Reopens (run a (past ++ early))

end Operation

/-- What came of staging is what these verdicts say: nothing yet without any, and else the only one. -/
def Application.SettledBy (a : Application) (verdicts : List Operation) : Prop :=
  match a.package with
  | .pending => verdicts = []
  | .staged => ∃ result, verdicts = [.markStaged result] ∧ a.lastStaging = some result
  | .failed => ∃ reason, verdicts = [.markFailed reason] ∧ a.stagingFailure = some reason

namespace Application

variable {a b : Application}

theorem KeepsVerdict.settledBy (h : a.KeepsVerdict b) {verdicts : List Operation}
    (ha : a.SettledBy verdicts) : b.SettledBy verdicts := by
  unfold SettledBy at ha ⊢
  rw [h.package, h.failure, h.lastStaging]
  exact ha

theorem restage_pending (h : a.restage = .ok b) : b.package = .pending := by
  obtain ⟨s, m, -, hm, hb⟩ := (restage_ok_iff a b).1 h
  rw [settle_frame hb, settle_frame hm]
  rfl

theorem markStaged_settledBy {result : StagingResult} (h : a.markStaged result = .ok b) :
    b.SettledBy [.markStaged result] := by
  rw [settle_frame ((markStaged_ok_iff a b result).1 h).2]
  exact ⟨result, rfl, rfl⟩

theorem markFailed_settledBy {reason : String} (h : a.markFailed reason = .ok b) :
    b.SettledBy [.markFailed reason] := by
  rw [markFailed_eq h]
  exact ⟨reason, rfl, rfl⟩

end Application

namespace Operation

open Application

variable {a b : Application} {op : Operation} {ops past period : List Operation}

theorem run_append (a : Application) (ops rest : List Operation) :
    run a (ops ++ rest) = run (run a ops) rest := by
  simp [run]

theorem run_snoc (a : Application) (ops : List Operation) (op : Operation) :
    run a (ops ++ [op]) = after (run a ops) op := by
  simp [run]

theorem verdicts_snoc (a : Application) (ops : List Operation) (op : Operation) :
    verdicts a (ops ++ [op]) = verdicts a ops ++ op.accepts (run a ops) := by
  induction ops generalizing a with
  | nil => simp [verdicts, run]
  | cons first ops ih => simp [verdicts, ih, run]

/-- A new period begins with a package that waits. -/
theorem Reopens.pending (h : op.Reopens a) : (after a op).package = .pending := by
  obtain ⟨b, hb, hop⟩ := h
  have hafter : after a op = b := by simp [after, hb]
  rw [hafter]
  rcases hop with rfl | rfl | ⟨u, rfl, hbits⟩
  · exact restage_pending hb
  · rw [settle_frame hb]
    rfl
  · exact apply_other_pending hb hbits

/-- What neither begins a period nor is a verdict leaves what became of the package. -/
theorem keepsVerdict (h : op.perform a = .ok b) (hverdict : ¬ op.isVerdict) (hopens : ¬ op.Reopens a) :
    a.KeepsVerdict b := by
  cases op with
  | apply u =>
    refine apply_keepsVerdict h ?_
    by_contra hbits
    exact hopens ⟨b, h, .inr (.inr ⟨u, rfl, hbits⟩)⟩
  | start | stop =>
    rw [settle_frame h]
    exact ⟨rfl, rfl, rfl⟩
  | restage => exact absurd ⟨b, h, .inl rfl⟩ hopens
  | markForRestaging => exact absurd ⟨b, h, .inr (.inl rfl)⟩ hopens
  | markStaged result | markFailed reason => exact absurd rfl hverdict
  | bindRoute route =>
    cases h
    unfold Application.bindRoute
    split <;> exact ⟨rfl, rfl, rfl⟩
  | unbindRoute route =>
    cases h
    unfold Application.unbindRoute
    split <;> exact ⟨rfl, rfl, rfl⟩
  | routesPushed =>
    cases h
    exact ⟨rfl, rfl, rfl⟩

/-- Only a package that waits takes a verdict, and it is settled by that one. -/
theorem verdict_settledBy (h : op.perform a = .ok b) (hverdict : op.isVerdict) :
    a.package = .pending ∧ b.SettledBy [op] := by
  cases op with
  | markStaged result => exact ⟨((markStaged_ok_iff a b result).1 h).1, markStaged_settledBy h⟩
  | markFailed reason => exact ⟨((markFailed_ok_iff a b reason).1 h).1, markFailed_settledBy h⟩
  | _ => cases hverdict

/-- What the verdicts say stays so with every operation that begins no period. -/
theorem settledBy_after {taken : List Operation} (h : a.SettledBy taken) (hopens : ¬ op.Reopens a) :
    (after a op).SettledBy (taken ++ op.accepts a) := by
  cases hb : op.perform a with
  | error r => simpa [after, accepts, hb, Except.isOk, Except.toBool] using h
  | ok b =>
    have hafter : after a op = b := by simp [after, hb]
    rw [hafter]
    by_cases hverdict : op.isVerdict
    · obtain ⟨hpending, hsettled⟩ := verdict_settledBy hb hverdict
      have hnone : taken = [] := by simpa [SettledBy, hpending] using h
      simpa [hnone, accepts, hverdict, hb, Except.isOk, Except.toBool] using hsettled
    · have hkept := (keepsVerdict hb hverdict hopens).settledBy h
      simpa [accepts, hverdict] using hkept

theorem isPeriod_snoc_iff : IsPeriod a past (period ++ [op]) ↔
    IsPeriod a past period ∧ ¬ op.Reopens (run a (past ++ period)) := by
  constructor
  · intro h
    refine ⟨⟨h.begun, fun early first late heq => ?_⟩, h.lasts period op [] rfl⟩
    exact h.lasts early first (late ++ [op]) (by simp [heq])
  · rintro ⟨h, hopens⟩
    refine ⟨h.begun, fun early first late heq => ?_⟩
    rcases List.eq_nil_or_concat late with rfl | ⟨late, last, rfl⟩
    · obtain ⟨rfl, hfirst⟩ := List.append_inj' heq rfl
      cases hfirst
      exact hopens
    · rw [List.concat_eq_append, ← List.cons_append, ← List.append_assoc] at heq
      exact h.lasts early first late (List.append_inj' heq rfl).1

theorem exists_isPeriod (a : Application) (ops : List Operation) :
    ∃ past period, ops = past ++ period ∧ IsPeriod a past period := by
  induction ops using List.reverseRecOn with
  | nil => exact ⟨[], [], rfl, .inl rfl, by simp⟩
  | append_singleton ops op ih =>
    obtain ⟨past, period, rfl, h⟩ := ih
    by_cases hopens : op.Reopens (run a (past ++ period))
    · exact ⟨past ++ period ++ [op], [], by simp, .inr ⟨_, op, rfl, hopens⟩, by simp⟩
    · exact ⟨past, period ++ [op], by simp, isPeriod_snoc_iff.2 ⟨h, hopens⟩⟩

theorem IsPeriod.pending (h : IsPeriod a past period) (ha : a.package = .pending) :
    (run a past).package = .pending := by
  rcases h.begun with rfl | ⟨early, op, rfl, hopens⟩
  · exact ha
  · rw [run_snoc]
    exact hopens.pending

theorem IsPeriod.settledBy (h : IsPeriod a past period) (ha : a.package = .pending) :
    (run a (past ++ period)).SettledBy (verdicts (run a past) period) := by
  induction period using List.reverseRecOn with
  | nil =>
    rw [List.append_nil]
    simp [SettledBy, h.pending ha, verdicts]
  | append_singleton period op ih =>
    obtain ⟨h, hopens⟩ := isPeriod_snoc_iff.1 h
    rw [← List.append_assoc, run_snoc, verdicts_snoc, ← run_append]
    exact settledBy_after (ih h) hopens

theorem verdict_rejected (hverdict : op.isVerdict) (hpackage : a.package ≠ .pending) :
    ∃ target, op.perform a = .error (.rejected (.packageTransition a.package target)) := by
  cases op with
  | markStaged result =>
    refine ⟨.staged, ?_⟩
    simp [perform, Application.markStaged, checkPending, isPending, hpackage, bind, Except.bind]
  | markFailed reason =>
    refine ⟨.failed, ?_⟩
    simp [perform, Application.markFailed, checkPending, isPending, hpackage, bind, Except.bind]
  | _ => cases hverdict

theorem verdict_granted_iff (ha : a.Lawful) (hverdict : op.isVerdict) :
    a.Granted (op.perform a) ↔ a.package = .pending := by
  constructor
  · intro h
    by_contra hpackage
    obtain ⟨target, hrejected⟩ := verdict_rejected hverdict hpackage
    rw [hrejected] at h
    rcases h with ⟨b, hb⟩ | ⟨hover, -⟩
    · cases hb
    · cases hover
  · intro hpackage
    cases op with
    | markStaged result => exact (ha.unhindered.markStaged result).2 hpackage
    | markFailed reason => exact .inl ((ha.unhindered.markFailed reason).2 hpackage)
    | _ => cases hverdict

/-- The same bits again begin no period. -/
theorem same_bits_keep {u : Update} (hbits : u.packageHash = a.packageHash) :
    ¬ (apply u).Reopens a ∧ a.KeepsVerdict (after a (.apply u)) := by
  have hsame {b : Application} (h : a.apply u = .ok b) : b.packageHash = a.packageHash := by
    rw [apply_packageHash h, hbits]
    cases a.packageHash <;> rfl
  constructor
  · rintro ⟨b, hb, h | h | ⟨u', h, hother⟩⟩
    · cases h
    · cases h
    · exact hother (hsame hb)
  · cases hb : a.apply u with
    | error r => simpa [after, perform, hb] using ⟨rfl, rfl, rfl⟩
    | ok b => simpa [after, perform, hb] using apply_keepsVerdict hb (hsame hb)

/-- Each pending period takes exactly one verdict. Every run of operations on a new application has
a latest period, and its package is settled by the verdicts of that period: none while it waits, and
else the only one, with which its response or its reason came. A verdict is taken by a package that
waits, unless its droplet would begin a generation after the last, and rejected by any other, which
it leaves as it was; uploading the same bits again begins no period. -/
theorem one_verdict_each_period (id : AppId) (name : String) :
    (∀ ops, ∃ past period, ops = past ++ period ∧ IsPeriod (.new id name) past period) ∧
    (∀ past period, IsPeriod (.new id name) past period →
      (run (.new id name) (past ++ period)).SettledBy
        (verdicts (run (.new id name) past) period)) ∧
    (∀ ops verdict, verdict.isVerdict →
      ((run (.new id name) ops).package = .pending →
        (run (.new id name) ops).Granted (verdict.perform (run (.new id name) ops))) ∧
      ((run (.new id name) ops).package ≠ .pending →
        (∃ r, verdict.perform (run (.new id name) ops) = .error (.rejected r)) ∧
        run (.new id name) (ops ++ [verdict]) = run (.new id name) ops)) ∧
    ∀ ops u, u.packageHash = (run (.new id name) ops).packageHash →
      ¬ (apply u).Reopens (run (.new id name) ops) ∧
        (run (.new id name) ops).KeepsVerdict (run (.new id name) (ops ++ [.apply u])) := by
  have hlawful (ops : List Operation) := run_lawful (new_lawful id name) ops
  refine ⟨exists_isPeriod _, fun past period h => h.settledBy rfl, ?_, fun ops u hbits => ?_⟩
  · intro ops verdict hverdict
    refine ⟨(verdict_granted_iff (hlawful ops) hverdict).2, fun hpackage => ?_⟩
    obtain ⟨target, hrejected⟩ := verdict_rejected hverdict hpackage
    rw [run_snoc]
    exact ⟨⟨_, hrejected⟩, by simp [after, hrejected]⟩
  · rw [run_snoc]
    exact same_bits_keep hbits

theorem not_reopens_of_isVerdict (hverdict : op.isVerdict) : ¬ op.Reopens a := by
  rintro ⟨b, -, rfl | rfl | ⟨u, rfl, -⟩⟩ <;> cases hverdict

def failedAndRestaged : List Operation :=
  [.apply { Update.empty with packageHash := some "bits-1" }, .markFailed "boom", .restage]

/-- The same bits are uploaded again, with another count, and are staged; a late failure is rejected. -/
def uploadedAgain : List Operation :=
  [.apply { Update.empty with packageHash := some "bits-1", instances := some 2 },
    .markStaged ⟨0, some "droplet-1", none⟩, .markFailed "late"]

theorem isPeriod_uploadedAgain :
    IsPeriod (.new "web" "web") failedAndRestaged uploadedAgain := by
  have hbegun : IsPeriod (.new "web" "web") failedAndRestaged [] :=
    ⟨.inr ⟨failedAndRestaged.take 2, .restage, rfl, _, rfl, .inl rfl⟩, by simp⟩
  have hsame : IsPeriod (.new "web" "web") failedAndRestaged ([] ++ [uploadedAgain[0]]) :=
    isPeriod_snoc_iff.2 ⟨hbegun, (same_bits_keep rfl).1⟩
  have hstaged : IsPeriod (.new "web" "web") failedAndRestaged
      ([uploadedAgain[0]] ++ [uploadedAgain[1]]) :=
    isPeriod_snoc_iff.2 ⟨hsame, not_reopens_of_isVerdict rfl⟩
  exact isPeriod_snoc_iff.2 ⟨hstaged, not_reopens_of_isVerdict rfl⟩

theorem one_verdict_each_period_web :
    (run (.new "web" "web") (failedAndRestaged ++ uploadedAgain)).SettledBy
      [.markStaged ⟨0, some "droplet-1", none⟩] ∧
    (∃ b, Operation.perform (run (.new "web" "web") failedAndRestaged) (.markFailed "boom") = .ok b) ∧
    (∃ r, Operation.perform (run (.new "web" "web") (failedAndRestaged.take 2)) (.markFailed "twice") =
      .error (.rejected r)) ∧
    ¬ Reopens (run (.new "web" "web") (failedAndRestaged.take 2))
      (.apply { Update.empty with packageHash := some "bits-1" }) := by
  obtain ⟨-, hsettled, hverdict, hsame⟩ := one_verdict_each_period "web" "web"
  refine ⟨hsettled _ _ isPeriod_uploadedAgain, ?_, ?_, ?_⟩
  · exact ((hverdict failedAndRestaged (.markFailed "boom") rfl).1 rfl).resolve_right fun h =>
      absurd h.2 (by decide)
  · exact ((hverdict (failedAndRestaged.take 2) (.markFailed "twice") rfl).2 nofun).1
  · exact (hsame (failedAndRestaged.take 2) _ rfl).1

end Operation

end AppFleet
