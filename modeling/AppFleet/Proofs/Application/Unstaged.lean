import AppFleet.Proofs.Application.Verdict

/-! Applications that wait to be staged. A pending package that may run is marked as staged unless the
bounds of its application are out of order; no change of bounds leaves them so, but an application may
be created with them. A change that calls for nothing that runs makes no application wait. -/

namespace AppFleet

/-- The application needs staging, and its package has not failed. -/
def Application.isUnstaged (a : Application) : Bool := a.needsStaging && !a.stagingFailed

/-- Staging is what the reaction begins with, if it is needed. -/
def Diff.stages (d : Diff) : Bool := d.classify = some .start || d.classify = some .rollout

def Diff.reschedules (d : Diff) : Bool :=
  d.classify.any (· ≠ .updateAutoscaling)

namespace Application

variable {a b : Application} {u : Update}

theorem apply_passes (h : a.apply u = .ok b) : b.scaling.passes := by
  obtain ⟨hcpu, s, hs, -⟩ := (settle_ok_iff a _ b u.boundEdits).1 h
  obtain ⟨rfl, hmin, hmax, hordered⟩ := (Scaling.reconcile_ok_iff _ _ _).1 hs
  obtain ⟨hlo, hhi, -⟩ := Scaling.completeBounds_cpu (a.assign u).scaling u.boundEdits
  obtain ⟨hposmin, hposmax⟩ := Scaling.completeBounds_pos _ u.boundEdits hmin hmax
  rw [settle_frame h, Scaling.passes_iff, Scaling.checkThresholds_ok_iff, hlo, hhi,
    Scaling.reconcile_ok_iff]
  exact ⟨(Scaling.checkThresholds_ok_iff _ _).1 hcpu, (Scaling.completeBounds_neither _).symm, hposmin,
    hposmax, hordered⟩

theorem isUnstaged_iff : a.isUnstaged ↔
    a.packageHash.isSome ∧ a.package = .pending ∧ a.isStarted ∧ 0 < a.instances := by
  unfold isUnstaged needsStaging bitsUploaded isStaged stagingFailed
  cases a.package <;> simp [and_assoc]

/-- What waits to be staged has its staging result rejected exactly if its bounds are out of order. -/
theorem markStaged_rejected_iff (ha : a.isUnstaged) (result : StagingResult) :
    (∃ r, a.markStaged result = .error (.rejected r)) ↔ ¬ a.scaling.passes := by
  obtain ⟨-, hpending, -⟩ := isUnstaged_iff.1 ha
  simp only [markStaged, checkPending, isPending, hpending, decide_true, if_true, Fault.lift_ok, bind,
    Except.bind]
  exact settle_neither_rejected_iff

theorem markStaged_staged {result : StagingResult} (h : a.markStaged result = .ok b) :
    ¬ b.isUnstaged := by
  rw [settle_frame ((markStaged_ok_iff a b result).1 h).2, isUnstaged_iff]
  simp

/-- What calls for nothing that runs changes nothing of what runs. -/
theorem still_of_not_reschedules (h : ¬ (Diff.updated a b).reschedules) :
    b.desired = a.desired ∧
      (b.isStarted → b.instances = a.instances ∧ b.packageHash = a.packageHash) := by
  unfold Diff.reschedules Diff.classify at h
  simp only [Diff.updated, Diff.desiredChanged, Diff.instancesChanged, Diff.versionChanged,
    Diff.packageChanged, Diff.differs] at h
  grind

/-- So it makes no application wait to be staged, and none stop waiting. -/
theorem apply_isUnstaged (h : a.apply u = .ok b) (hstill : ¬ (Diff.updated a b).reschedules) :
    b.isUnstaged ↔ a.isUnstaged := by
  obtain ⟨hdesired, hstarted⟩ := still_of_not_reschedules hstill
  have hsame : b.isStarted = a.isStarted := by simp [isStarted, hdesired]
  rw [isUnstaged_iff, isUnstaged_iff]
  by_cases hs : b.isStarted
  · obtain ⟨hinstances, hbits⟩ := hstarted hs
    rw [hinstances, hbits, hsame, (apply_keepsVerdict h hbits).package]
  · simp [hs, ← hsame]

theorem not_isStarted_of_stop (h : (Diff.updated a b).classify = some .stop) : ¬ b.isStarted := by
  simp only [Diff.classify, Diff.updated] at h
  grind

/-- After an update, what waits to be staged without being staged at once was scaled, or it waited
before and nothing that runs was changed. -/
theorem apply_waits (h : a.apply u = .ok b) : b.isUnstaged ∧ ¬ (Diff.updated a b).stages ↔
    b.isUnstaged ∧ (Diff.updated a b).classify = some .scale ∨
      a.isUnstaged ∧ ¬ (Diff.updated a b).reschedules := by
  have hstill := apply_isUnstaged h
  cases hclass : (Diff.updated a b).classify with
  | none => simp_all [Diff.stages, Diff.reschedules]
  | some reaction =>
    cases reaction with
    | updateAutoscaling => simp_all [Diff.stages, Diff.reschedules]
    | start | scale | rollout => simp [Diff.stages, Diff.reschedules, hclass]
    | stop =>
      have hstopped := not_isStarted_of_stop hclass
      simp [Diff.reschedules, hclass, isUnstaged_iff, hstopped]
    | delete => simp [Diff.classify, Diff.updated] at hclass; grind

theorem stages_created (a : Application) : (Diff.created a).stages = a.isStarted := by
  simp [Diff.stages, Diff.classify, Diff.created, Diff.desiredChanged, Diff.instancesChanged,
    Diff.versionChanged, Diff.packageChanged, Diff.scalingChanged, Diff.differs]
  grind

end Application

end AppFleet
