import AppFleet.Proofs.Application.Unstaged
import AppFleet.Store.Basic

/-! Updates that are sent again. Clamping moves the instances away from what an update asks for, and
the next time it moves them to the same place; all else that an update assigns is found as it was left. -/

namespace AppFleet

theorem Update.or_again (field stored : Option α) : field.or (field.or stored) = field.or stored := by
  rw [← Option.or_assoc, Option.or_self]

theorem Update.getD_again (field : Option α) (stored : α) :
    field.getD (field.getD stored) = field.getD stored := by
  cases field <;> rfl

theorem Scaling.assign_completeBounds_again (s : Scaling) (u : Update) :
    ((s.assign u).completeBounds u.boundEdits).assign u =
        (s.assign u).completeBounds u.boundEdits ∧
      ((s.assign u).completeBounds u.boundEdits).completeBounds u.boundEdits =
        (s.assign u).completeBounds u.boundEdits := by
  have hmin := Update.or_again u.minCpu s.minCpu
  have hmax := Update.or_again u.maxCpu s.maxCpu
  have henabled := Update.getD_again u.autoscale s.enabled
  cases hlo : u.minInstances <;> cases hhi : u.maxInstances <;>
    cases hs : s.minInstances <;> cases ht : s.maxInstances <;>
    simp [assign, completeBounds, Update.boundEdits, hlo, hhi, hs, ht, hmin, hmax, henabled]

namespace Application

variable {a b : Application} {u : Update}

/-- The application is as the update wants it, as far as its bounds allow. -/
structure Meets (u : Update) (b : Application) : Prop where
  desired : u.state.getD b.desired = b.desired
  memoryMb : u.memoryMb.getD b.memoryMb = b.memoryMb
  diskMb : u.diskMb.getD b.diskMb = b.diskMb
  healthCheck : u.healthCheck.getD b.healthCheck = b.healthCheck
  packageHash : u.packageHash.or b.packageHash = b.packageHash
  dropletHash : u.dropletHash.or b.dropletHash = b.dropletHash
  routes : u.routes.getD b.routes = b.routes
  scaling : b.scaling.assign u = b.scaling
  complete : b.scaling.completeBounds u.boundEdits = b.scaling
  passes : b.scaling.passes
  instances : b.instances = u.instances.getD b.instances ∨
    b.scaling.enabled ∧ b.instances = b.scaling.nearest (u.instances.getD b.instances)

theorem assignPackage_same (a : Application) {hash : Option String}
    (h : hash.or a.packageHash = a.packageHash) : a.assignPackage hash = a := by
  cases hash with
  | none => rfl
  | some hash => exact if_pos h.symm

theorem assignRoutes_same (a : Application) {routes : Option (List String)}
    (h : routes.getD a.routes = a.routes) : a.assignRoutes routes = a := by
  cases routes with
  | none => rfl
  | some routes => exact if_pos h

/-- All that is left for the update to assign are the instances. -/
theorem Meets.assign (h : Meets u b) :
    b.assign u = { b with instances := u.instances.getD b.instances } := by
  unfold Application.assign
  extract_lets fields bits droplet
  have hfields : fields = { b with instances := u.instances.getD b.instances } := by
    simp only [fields, h.desired, h.memoryMb, h.diskMb, h.healthCheck, h.scaling]
  have hbits : bits = fields := assignPackage_same _ (by simp only [hfields, h.packageHash])
  have hdroplet : droplet = fields := by
    simp only [droplet, hbits, hfields, h.dropletHash]
  rw [hdroplet, assignRoutes_same _ (by simp only [hfields, h.routes]), hfields]

theorem clamp_instances (prior c : Application) : (clamp prior c).instances = c.instances ∨
    c.scaling.enabled ∧ (clamp prior c).instances = c.scaling.nearest c.instances := by
  unfold clamp
  split
  · rename_i htouched
    exact .inr ⟨(Bool.and_eq_true_iff.1 htouched).1, rfl⟩
  · exact .inl rfl

/-- Asked for as many instances again, clamping leaves as many as the last time. -/
theorem clamp_again {count : UInt32} (h : b.instances = count ∨
    b.scaling.enabled ∧ b.instances = b.scaling.nearest count) :
    clamp b { b with instances := count } = b := by
  by_cases hcount : count = b.instances
  · subst hcount
    simp [clamp]
  · obtain ⟨henabled, hnearest⟩ := h.resolve_left (Ne.symm hcount)
    simp [clamp, hcount, henabled, ← hnearest]

/-- To such an application the update changes nothing. -/
theorem Meets.apply_eq (h : Meets u b) : b.apply u = .ok b := by
  obtain ⟨hcpu, hbounds⟩ := (Scaling.passes_iff _).1 h.passes
  obtain ⟨-, hrest⟩ := (Scaling.reconcile_ok_iff _ _ _).1 hbounds
  have hreconcile : b.scaling.reconcile u.boundEdits = .ok b.scaling :=
    (Scaling.reconcile_ok_iff _ _ _).2 ⟨h.complete.symm, hrest⟩
  unfold apply
  rw [h.assign, settle_ok_iff]
  refine ⟨hcpu, b.scaling, hreconcile, ?_⟩
  rw [clamp_again h.instances]
  exact renew_quiet (not_opensGeneration_of_same rfl rfl rfl rfl)

theorem apply_scaling (h : a.apply u = .ok b) :
    b.scaling = (a.scaling.assign u).completeBounds u.boundEdits := by
  rw [settle_frame h, assign_scaling]

/-- The instances are those that the update asks for, or the nearest that the bounds allow. -/
theorem apply_instances (h : a.apply u = .ok b) : b.instances = u.instances.getD b.instances ∨
    b.scaling.enabled ∧ b.instances = b.scaling.nearest (u.instances.getD b.instances) := by
  cases hu : u.instances with
  | none => exact .inl rfl
  | some count =>
    obtain ⟨-, s, hs, hb⟩ := (settle_ok_iff a _ b u.boundEdits).1 h
    have hcount : (a.assign u).instances = count := by
      unfold Application.assign
      rw [assignRoutes_frame, assignPackage_frame, hu]
      rfl
    have hclamped := clamp_instances a { a.assign u with scaling := s }
    have hframe := renew_frame hb
    rw [clamp_frame] at hframe
    rw [hframe]
    simpa [hcount] using hclamped

/-- An update makes of an application what it wants. -/
theorem apply_meets (h : a.apply u = .ok b) : Meets u b := by
  have hassign : b.memoryMb = u.memoryMb.getD a.memoryMb ∧ b.diskMb = u.diskMb.getD a.diskMb ∧
      b.healthCheck = u.healthCheck.getD a.healthCheck ∧
      b.dropletHash = u.dropletHash.or a.dropletHash := by
    rw [settle_frame h]
    unfold Application.assign
    rw [assignRoutes_frame, assignPackage_frame]
    exact ⟨rfl, rfl, rfl, rfl⟩
  obtain ⟨hmemory, hdisk, hcheck, hdroplet⟩ := hassign
  obtain ⟨hscaling, hcomplete⟩ := a.scaling.assign_completeBounds_again u
  exact {
    desired := by rw [apply_desired h, Update.getD_again]
    memoryMb := by rw [hmemory, Update.getD_again]
    diskMb := by rw [hdisk, Update.getD_again]
    healthCheck := by rw [hcheck, Update.getD_again]
    packageHash := by rw [apply_packageHash h, Update.or_again]
    dropletHash := by rw [hdroplet, Update.or_again]
    routes := by rw [apply_routes h, Update.getD_again]
    scaling := by rw [apply_scaling h, hscaling]
    complete := by rw [apply_scaling h, hcomplete]
    passes := apply_passes h
    instances := apply_instances h }

theorem Meets.stored (h : Meets u b) (updatedAt : UInt64) : Meets u { b with updatedAt } :=
  ⟨h.desired, h.memoryMb, h.diskMb, h.healthCheck, h.packageHash, h.dropletHash, h.routes, h.scaling,
    h.complete, h.passes, h.instances⟩

end Application

theorem Diff.classify_same (a : Application) : (updated a a).classify = none := by
  simp [classify, updated, desiredChanged, instancesChanged, versionChanged, packageChanged,
    scalingChanged, differs]

theorem Store.changeApp_same {s : Store} {id : AppId} {b : Application}
    {change : Application → Except Fault Application} (now : UInt64)
    (hb : s.apps.get? id = some b) (hsame : change b = .ok b) :
    s.changeApp now id change = (.ok (some (.updated b b)), s) := by
  simp [changeApp, hb, hsame]

namespace Application

/-- What an update made of an application, the same update accepts and leaves as it is. Sent again to
the store, it finds what it stored, stores nothing, and calls for no reaction. -/
theorem apply_again {a b : Application} {u : Update} (h : a.apply u = .ok b) :
    b.apply u = .ok b ∧ (Diff.updated b b).classify = none ∧
    ∀ (s : Store) (id : AppId) (now later : UInt64), s.apps.get? id = some a →
      let left := (s.changeApp now id (·.apply u)).2
      ∃ stored, left.apps.get? id = some stored ∧
        stored = { b with updatedAt := stored.updatedAt } ∧
        left.changeApp later id (·.apply u) = (.ok (some (.updated stored stored)), left) ∧
        (Diff.updated stored stored).classify = none := by
  refine ⟨(apply_meets h).apply_eq, Diff.classify_same b, fun s id now later ha => ?_⟩
  by_cases hsame : b = a
  · subst hsame
    rw [Store.changeApp_same now ha h]
    exact ⟨b, ha, rfl, Store.changeApp_same later ha h, Diff.classify_same b⟩
  · have hstored := ((apply_meets h).stored now).apply_eq
    have hleft : (s.changeApp now id (·.apply u)).2 =
        { s with apps := s.apps.put id { b with updatedAt := now } } := by
      simp [Store.changeApp, ha, h, hsame]
    have hfound : ({ s with apps := s.apps.put id { b with updatedAt := now } } : Store).apps.get? id =
        some { b with updatedAt := now } := Table.get?_put_self _ _ _
    rw [hleft]
    exact ⟨_, hfound, rfl, Store.changeApp_same later hfound hstored, Diff.classify_same _⟩

/-- A lone bound below the instances that are asked for. -/
theorem apply_again_web :
    let u := { Update.empty with
      state := some .started, instances := some 9, maxInstances := some 4, autoscale := some true,
      packageHash := some "bits-1" }
    ∃ b, (Application.new "web" "web").apply u = .ok b ∧ b.instances = 4 ∧ b.generation = 1 ∧
      b.apply u = .ok b := by
  intro u
  have h : (Application.new "web" "web").apply u =
      .ok (Operation.after (.new "web" "web") (.apply u)) := rfl
  exact ⟨_, h, rfl, rfl, (apply_again h).1⟩

end Application

end AppFleet
