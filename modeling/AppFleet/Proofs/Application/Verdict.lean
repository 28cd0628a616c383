import AppFleet.Application.Diff
import AppFleet.Proofs.Application.Lawful

/-! What a verdict of the stager does to an application: a pending package takes it, and no other. A
failure leaves all that runs as it was, so that it calls for no reaction. -/

namespace AppFleet

/-- A change that records what came of staging. -/
inductive IsVerdict : (Application → Except Fault Application) → Prop where
  | staged (result : StagingResult) : IsVerdict (·.markStaged result)
  | failed (reason : String) : IsVerdict (·.markFailed reason)

namespace Application

/-- A candidate that keeps the bounds, the instances and what runs is what becomes of it. -/
theorem settle_untouched {a c b : Application} (h : settle a .neither c = .ok b)
    (desired : c.desired = a.desired) (instances : c.instances = a.instances)
    (memoryMb : c.memoryMb = a.memoryMb) (healthCheck : c.healthCheck = a.healthCheck)
    (dropletHash : c.dropletHash = a.dropletHash) (scaling : c.scaling = a.scaling) : b = c := by
  obtain ⟨-, s, hs, hb⟩ := (settle_ok_iff a c b .neither).1 h
  obtain ⟨rfl, -⟩ := (Scaling.reconcile_ok_iff _ _ _).1 hs
  have hclamp : clamp a c = c := by simp [clamp, instances, scaling]
  have hquiet := not_opensGeneration_of_same desired memoryMb healthCheck dropletHash
  rw [Scaling.completeBounds_neither, hclamp] at hb
  exact (((renew_ok_iff _ _ _).1 hb).resolve_right fun h => hquiet h.1).2

theorem markFailed_eq {a b : Application} {reason : String} (h : a.markFailed reason = .ok b) :
    b = { a with package := .failed, stagingFailure := some reason } :=
  settle_untouched ((markFailed_ok_iff a b reason).1 h).2 rfl rfl rfl rfl rfl rfl

theorem classify_markFailed {a b : Application} {reason : String} (h : a.markFailed reason = .ok b)
    (updatedAt : UInt64) : (Diff.updated a { b with updatedAt }).classify = none := by
  rw [markFailed_eq h]
  simp [Diff.classify, Diff.updated, Diff.desiredChanged, Diff.instancesChanged, Diff.versionChanged,
    Diff.packageChanged, Diff.scalingChanged, Diff.differs]

end Application

/-- The change stores that a package could not be staged. -/
def Diff.RecordsFailure (d : Diff) : Prop :=
  ∃ (before made : Application) (reason : String) (updatedAt : UInt64),
    before.markFailed reason = .ok made ∧ d = .updated before { made with updatedAt }

theorem Diff.RecordsFailure.classify {d : Diff} (h : d.RecordsFailure) : d.classify = none := by
  obtain ⟨before, made, reason, updatedAt, hmade, rfl⟩ := h
  exact Application.classify_markFailed hmade updatedAt

namespace Application

/-- Updates never settle what became of the package. -/
theorem apply_pending {a b : Application} {u : Update} (ha : a.package = .pending)
    (h : a.apply u = .ok b) : b.package = .pending := by
  rw [settle_frame h]
  rcases assign_package a u with ⟨hp, -⟩ | ⟨hp, -⟩
  · exact hp
  · exact hp.trans ha

structure KeepsVerdict (a b : Application) : Prop where
  package : b.package = a.package
  failure : b.stagingFailure = a.stagingFailure
  lastStaging : b.lastStaging = a.lastStaging

theorem assignPackage_cases (a : Application) (hash : Option String) :
    a.assignPackage hash = a ∨ (a.assignPackage hash).packageHash ≠ a.packageHash ∧
      (a.assignPackage hash).package = .pending := by
  cases hash with
  | none => exact .inl rfl
  | some hash =>
    simp only [assignPackage]
    split
    · exact .inl rfl
    · exact .inr ⟨Ne.symm ‹_›, rfl⟩

theorem apply_keepsVerdict {a b : Application} {u : Update} (h : a.apply u = .ok b)
    (hbits : b.packageHash = a.packageHash) : a.KeepsVerdict b := by
  have hassign : a.KeepsVerdict (a.assign u) := by
    rw [settle_frame h] at hbits
    unfold assign at hbits ⊢
    rw [assignRoutes_frame] at hbits ⊢
    rcases assignPackage_cases _ u.packageHash with hsame | ⟨hother, -⟩
    · rw [hsame]
      exact ⟨rfl, rfl, rfl⟩
    · exact absurd hbits hother
  rw [settle_frame h]
  exact ⟨hassign.package, hassign.failure, hassign.lastStaging⟩

/-- An update with other bits leaves them waiting. -/
theorem apply_other_pending {a b : Application} {u : Update} (h : a.apply u = .ok b)
    (hbits : b.packageHash ≠ a.packageHash) : b.package = .pending := by
  rw [settle_frame h] at hbits ⊢
  unfold assign at hbits ⊢
  rw [assignRoutes_frame] at hbits ⊢
  rcases assignPackage_cases _ u.packageHash with hsame | ⟨-, hpending⟩
  · rw [hsame] at hbits
    exact absurd rfl hbits
  · exact hpending

structure SameCount (a b : Application) : Prop where
  instances : b.instances = a.instances
  scaling : b.scaling = a.scaling

/-- A candidate with the same count and bounds keeps them. -/
theorem settle_sameCount {a c b : Application} (h : settle a .neither c = .ok b)
    (hc : a.SameCount c) : a.SameCount b := by
  obtain ⟨-, s, hs, hb⟩ := (settle_ok_iff a c b .neither).1 h
  obtain ⟨rfl, -⟩ := (Scaling.reconcile_ok_iff _ _ _).1 hs
  have hclamp : clamp a c = c := by simp [clamp, hc.instances, hc.scaling]
  rw [Scaling.completeBounds_neither, hclamp] at hb
  rw [renew_frame hb]
  exact ⟨hc.instances, hc.scaling⟩

theorem apply_id {a b : Application} {u : Update} (h : a.apply u = .ok b) : b.id = a.id := by
  rw [settle_frame h]
  unfold assign
  rw [assignRoutes_frame, assignPackage_frame]

theorem apply_desired {a b : Application} {u : Update} (h : a.apply u = .ok b) :
    b.desired = u.state.getD a.desired := by
  rw [settle_frame h]
  unfold assign
  rw [assignRoutes_frame, assignPackage_frame]

theorem apply_packageHash {a b : Application} {u : Update} (h : a.apply u = .ok b) :
    b.packageHash = u.packageHash.or a.packageHash := by
  rw [settle_frame h]
  unfold assign
  rw [assignRoutes_frame]
  cases u.packageHash with
  | none => rfl
  | some hash =>
    simp only [assignPackage]
    split
    · simpa using ‹_ = some hash›
    · rfl

theorem assignRoutes_routes (a : Application) (routes : Option (List String)) :
    (a.assignRoutes routes).routes = routes.getD a.routes ∧
      ((a.assignRoutes routes).routesPending = a.routesPending ∨ routes.isSome) := by
  cases routes with
  | none => exact ⟨rfl, .inl rfl⟩
  | some routes =>
    refine ⟨?_, .inr rfl⟩
    by_cases h : routes = a.routes <;> simp [assignRoutes, h]

theorem assign_routes (a : Application) (u : Update) : (a.assign u).routes = u.routes.getD a.routes ∧
    ((a.assign u).routesPending = a.routesPending ∨ u.routes.isSome) := by
  have hframe (b : Application) (hash : Option String) : (b.assignPackage hash).routes = b.routes ∧
      (b.assignPackage hash).routesPending = b.routesPending := by
    rw [assignPackage_frame]
    exact ⟨rfl, rfl⟩
  obtain ⟨hroutes, hpending⟩ := assignRoutes_routes _ u.routes
  exact ⟨hroutes.trans (by simp [hframe]), hpending.imp_left fun h => h.trans (by simp [hframe])⟩

theorem apply_routes {a b : Application} {u : Update} (h : a.apply u = .ok b) :
    b.routes = u.routes.getD a.routes := by
  rw [settle_frame h]
  exact (assign_routes a u).1

/-- Routes become pending only with an update of the routes. -/
theorem apply_routesPending {a b : Application} {u : Update} (h : a.apply u = .ok b) :
    b.routesPending = a.routesPending ∨ u.routes.isSome := by
  rw [settle_frame h]
  exact (assign_routes a u).2

theorem apply_routes_none {a b : Application} {u : Update} (h : a.apply u = .ok b)
    (hu : u.routes = none) : b.routes = a.routes ∧ b.routesPending = a.routesPending := by
  refine ⟨by simp [apply_routes h, hu], ?_⟩
  exact (apply_routesPending h).resolve_right (by simp [hu])

end Application

namespace IsVerdict

open Application

variable {mark : Application → Except Fault Application} {a b : Application}

theorem id (hm : IsVerdict mark) (h : mark a = .ok b) : b.id = a.id := by
  cases hm with
  | staged result => rw [settle_frame ((markStaged_ok_iff a b result).1 h).2]
  | failed reason => rw [settle_frame ((markFailed_ok_iff a b reason).1 h).2]

theorem packageHash (hm : IsVerdict mark) (h : mark a = .ok b) : b.packageHash = a.packageHash := by
  cases hm with
  | staged result => rw [settle_frame ((markStaged_ok_iff a b result).1 h).2]
  | failed reason => rw [settle_frame ((markFailed_ok_iff a b reason).1 h).2]

theorem desired (hm : IsVerdict mark) (h : mark a = .ok b) : b.desired = a.desired := by
  cases hm with
  | staged result => rw [settle_frame ((markStaged_ok_iff a b result).1 h).2]
  | failed reason => rw [settle_frame ((markFailed_ok_iff a b reason).1 h).2]

theorem routes (hm : IsVerdict mark) (h : mark a = .ok b) :
    b.routes = a.routes ∧ b.routesPending = a.routesPending := by
  cases hm with
  | staged result => rw [settle_frame ((markStaged_ok_iff a b result).1 h).2]; exact ⟨rfl, rfl⟩
  | failed reason => rw [settle_frame ((markFailed_ok_iff a b reason).1 h).2]; exact ⟨rfl, rfl⟩

theorem sameCount (hm : IsVerdict mark) (h : mark a = .ok b) : a.SameCount b := by
  cases hm with
  | staged result => exact settle_sameCount ((markStaged_ok_iff a b result).1 h).2 ⟨rfl, rfl⟩
  | failed reason => exact settle_sameCount ((markFailed_ok_iff a b reason).1 h).2 ⟨rfl, rfl⟩

theorem lawful (hm : IsVerdict mark) (ha : a.Lawful) (h : mark a = .ok b) : b.Lawful := by
  cases hm with
  | staged result => exact markStaged_lawful ha h
  | failed reason => exact markFailed_lawful ha h

/-- A pending package takes any verdict, and is pending no longer. -/
theorem settles (hm : IsVerdict mark) (ha : a.Lawful) (hp : a.package = .pending)
    (hlast : ¬ a.AtLast) : ∃ b, mark a = .ok b ∧ b.package ≠ .pending := by
  cases hm with
  | staged result =>
    obtain ⟨b, hb⟩ := ((ha.unhindered.markStaged result).2 hp).resolve_right fun h => hlast h.2
    refine ⟨b, hb, ?_⟩
    rw [settle_frame ((markStaged_ok_iff a b result).1 hb).2]
    nofun
  | failed reason =>
    obtain ⟨b, hb⟩ := (ha.unhindered.markFailed reason).2 hp
    refine ⟨b, hb, ?_⟩
    rw [settle_frame ((markFailed_ok_iff a b reason).1 hb).2]
    nofun

/-- A change that leaves pending packages pending records no verdict. -/
theorem not_of_keeps_pending
    (h : ∀ a b : Application, a.package = .pending → mark a = .ok b → b.package = .pending) :
    ¬ IsVerdict mark := by
  intro hm
  obtain ⟨b, hb, hp⟩ := hm.settles (new_lawful "" "") rfl (by decide)
  exact hp (h _ b rfl hb)

end IsVerdict

end AppFleet
