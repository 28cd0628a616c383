import AppFleet.Application.Operation
import Mathlib.Tactic.Common

/-! What holds of an application at every moment of its life. Clamping looks only at changes that
touch the instances or the bounds, and a lone bound is completed only when it is edited, so none of
these facts is kept without the others. -/

namespace AppFleet

namespace Scaling

structure Lawful (s : Scaling) : Prop where
  minCpu_le : ∀ c ∈ s.minCpu, c ≤ 100
  maxCpu_le : ∀ c ∈ s.maxCpu, c ≤ 100
  cpu_ordered : ∀ min ∈ s.minCpu, ∀ max ∈ s.maxCpu, min ≤ max
  paired : s.minInstances.isSome ↔ s.maxInstances.isSome
  min_pos : ∀ min ∈ s.minInstances, 1 ≤ min
  max_pos : ∀ max ∈ s.maxInstances, 1 ≤ max
  ordered : ∀ min ∈ s.minInstances, ∀ max ∈ s.maxInstances, min ≤ max

theorem off_lawful : Scaling.off.Lawful := by
  constructor <;> simp [off]

theorem checkPercent_ok_iff (bound : Bound) (value : Option UInt32) :
    checkPercent bound value = .ok () ↔ ∀ c ∈ value, c ≤ 100 := by
  cases value with
  | none => simp [checkPercent]
  | some c => by_cases h : 100 < c <;> simp [checkPercent, h]; grind

theorem checkThresholds_ok_iff (s prior : Scaling) :
    s.checkThresholds prior = .ok () ↔ (∀ c ∈ s.minCpu, c ≤ 100) ∧ (∀ c ∈ s.maxCpu, c ≤ 100) ∧
      ∀ min ∈ s.minCpu, ∀ max ∈ s.maxCpu, min ≤ max := by
  rw [← checkPercent_ok_iff .minCpu, ← checkPercent_ok_iff .maxCpu]
  unfold checkThresholds
  cases checkPercent .minCpu s.minCpu with
  | error e => simp [bind, Except.bind]
  | ok u =>
    cases checkPercent .maxCpu s.maxCpu with
    | error e => simp [bind, Except.bind]
    | ok u =>
      cases hmin : s.minCpu <;> cases hmax : s.maxCpu <;> simp [bind, Except.bind]

theorem checkPositive_ok_iff (bound : Bound) (value : Option UInt32) :
    checkPositive bound value = .ok () ↔ ∀ b ∈ value, 1 ≤ b := by
  cases value with
  | none => simp [checkPositive]
  | some b => by_cases h : b = 0 <;> simp [checkPositive, h]; grind

theorem reconcile_ok_iff (s t : Scaling) (edits : BoundEdits) :
    s.reconcile edits = .ok t ↔ t = s.completeBounds edits ∧
      (∀ min ∈ s.minInstances, 1 ≤ min) ∧ (∀ max ∈ s.maxInstances, 1 ≤ max) ∧
      ∀ min ∈ t.minInstances, ∀ max ∈ t.maxInstances, min ≤ max := by
  rw [← checkPositive_ok_iff .minInstances, ← checkPositive_ok_iff .maxInstances]
  unfold reconcile
  cases checkPositive .minInstances s.minInstances with
  | error e => simp [bind, Except.bind]
  | ok u =>
    cases checkPositive .maxInstances s.maxInstances with
    | error e => simp [bind, Except.bind]
    | ok u =>
      simp only [bind, Except.bind, true_and]
      split
      · rename_i min max hmin hmax
        split
        · refine ⟨nofun, ?_⟩
          rintro ⟨rfl, hle⟩
          exact absurd (hle min hmin max hmax) (UInt32.not_le.2 ‹_›)
        · constructor
          · rintro ⟨⟩
            refine ⟨rfl, fun lo hlo hi hhi => ?_⟩
            rw [Option.mem_def, hmin] at hlo
            rw [Option.mem_def, hmax] at hhi
            cases hlo
            cases hhi
            exact UInt32.not_lt.1 ‹_›
          · rintro ⟨rfl, -⟩
            rfl
      · rename_i hnone
        constructor
        · rintro ⟨⟩
          exact ⟨rfl, fun min hmin max hmax => absurd hmax (hnone min max hmin)⟩
        · rintro ⟨rfl, -⟩
          rfl

@[simp] theorem completeBounds_neither (s : Scaling) : s.completeBounds .neither = s := by
  simp [completeBounds, BoundEdits.neither]

def passes (s : Scaling) : Bool := (s.checkThresholds s).isOk && (s.reconcile .neither).isOk

theorem passes_iff (s : Scaling) :
    s.passes ↔ s.checkThresholds s = .ok () ∧ s.reconcile .neither = .ok s := by
  have hreconcile {t : Scaling} (h : s.reconcile .neither = .ok t) : t = s := by
    rw [((reconcile_ok_iff s t .neither).1 h).1, completeBounds_neither]
  unfold passes
  cases hcpu : s.checkThresholds s with
  | error e => simp [Except.isOk, Except.toBool]
  | ok u =>
    cases hbounds : s.reconcile .neither with
    | error e => simp [Except.isOk, Except.toBool]
    | ok t => simp [Except.isOk, Except.toBool, hreconcile hbounds]

theorem Lawful.passes {s : Scaling} (h : s.Lawful) : s.passes := by
  rw [passes_iff, checkThresholds_ok_iff, reconcile_ok_iff]
  exact ⟨⟨h.minCpu_le, h.maxCpu_le, h.cpu_ordered⟩, (completeBounds_neither s).symm, h.min_pos,
    h.max_pos, h.ordered⟩

theorem completeBounds_cpu (s : Scaling) (edits : BoundEdits) :
    (s.completeBounds edits).minCpu = s.minCpu ∧ (s.completeBounds edits).maxCpu = s.maxCpu ∧
      (s.completeBounds edits).enabled = s.enabled := by
  unfold completeBounds
  split
  · simp
  · split <;> simp

/-- Completing copies a bound, so it keeps them positive. -/
theorem completeBounds_pos (s : Scaling) (edits : BoundEdits)
    (hmin : ∀ min ∈ s.minInstances, 1 ≤ min) (hmax : ∀ max ∈ s.maxInstances, 1 ≤ max) :
    (∀ min ∈ (s.completeBounds edits).minInstances, 1 ≤ min) ∧
      ∀ max ∈ (s.completeBounds edits).maxInstances, 1 ≤ max := by
  unfold completeBounds
  split
  · exact ⟨hmin, hmin⟩
  · split
    · exact ⟨hmax, hmax⟩
    · exact ⟨hmin, hmax⟩

/-- An update that sets one bound sets both once completed. -/
theorem assign_completeBounds_paired (s : Scaling) (u : Update)
    (h : s.minInstances.isSome ↔ s.maxInstances.isSome) :
    ((s.assign u).completeBounds u.boundEdits).minInstances.isSome ↔
      ((s.assign u).completeBounds u.boundEdits).maxInstances.isSome := by
  cases hmin : u.minInstances <;> cases hmax : u.maxInstances <;>
    cases hs : s.minInstances <;> cases ht : s.maxInstances <;>
    simp_all [assign, completeBounds, Update.boundEdits]

theorem nearest_mem (s : Scaling) (count min max : UInt32) (hmin : min ∈ s.minInstances)
    (hmax : max ∈ s.maxInstances) (h : min ≤ max) :
    min ≤ s.nearest count ∧ s.nearest count ≤ max := by
  rw [Option.mem_def] at hmin hmax
  simp only [nearest, hmin, hmax]
  split
  · exact ⟨UInt32.le_refl _, h⟩
  · split
    · exact ⟨h, UInt32.le_refl _⟩
    · exact ⟨UInt32.not_lt.1 ‹_›, UInt32.not_lt.1 ‹_›⟩

end Scaling

namespace Application

structure Lawful (a : Application) : Prop where
  scaling : a.scaling.Lawful
  within : a.scaling.enabled → ∀ min ∈ a.scaling.minInstances, ∀ max ∈ a.scaling.maxInstances,
    min ≤ a.instances ∧ a.instances ≤ max
  version : a.version = Version.token a.id a.generation
  failure : a.stagingFailure.isSome ↔ a.package = .failed
  staged : a.package = .staged → a.lastStaging.isSome
  started : a.desired = .started → 1 ≤ a.generation

theorem new_lawful (id : AppId) (name : String) : (Application.new id name).Lawful := by
  constructor <;> simp [Application.new, Scaling.off_lawful]
  simp [Scaling.off]

/-- What the pipeline makes of a candidate that passes. -/
theorem settle_ok_iff (prior c b : Application) (edits : BoundEdits) :
    settle prior edits c = .ok b ↔ c.scaling.checkThresholds prior.scaling = .ok () ∧
      ∃ s, c.scaling.reconcile edits = .ok s ∧
        renew prior (clamp prior { c with scaling := s }) = .ok b := by
  unfold settle
  cases c.scaling.checkThresholds prior.scaling with
  | error e => simp [bind, Except.bind]
  | ok u =>
    cases c.scaling.reconcile edits with
    | error e => simp [bind, Except.bind]
    | ok s => simp [bind, Except.bind]

theorem clamp_frame (prior c : Application) :
    clamp prior c = { c with instances := (clamp prior c).instances } := by
  unfold clamp
  split <;> rfl

/-- There is no generation after this one. -/
def AtLast (a : Application) : Prop := a.generation = 0xffffffffffffffff

instance (a : Application) : Decidable a.AtLast := inferInstanceAs (Decidable (_ = _))

theorem toNat_generation_succ {a : Application} (h : ¬ a.AtLast) :
    (a.generation + 1).toNat = a.generation.toNat + 1 := by
  have hlt := a.generation.toNat_lt
  have hne : a.generation.toNat ≠ 0xffffffffffffffff := fun heq => h (UInt64.toNat_inj.1 heq)
  rw [UInt64.toNat_add]
  change (a.generation.toNat + 1) % 2 ^ 64 = _
  omega

theorem renew_ok_iff (prior a b : Application) : renew prior a = .ok b ↔
    ¬ opensGeneration prior a ∧ b = a ∨ opensGeneration prior a ∧ ¬ a.AtLast ∧ b = { a with
      generation := a.generation + 1
      version := Version.token a.id (a.generation + 1) } := by
  unfold renew AtLast
  by_cases hopens : opensGeneration prior a
  · by_cases hlast : a.generation = 0xffffffffffffffff
    · simp [hopens, hlast]
    · simp only [hopens, hlast, if_true, if_false, Except.ok.injEq, not_true_eq_false, false_and,
        not_false_eq_true, true_and, false_or]
      exact eq_comm
  · simp only [hopens, Bool.false_eq_true, if_false, Except.ok.injEq, not_false_eq_true, true_and,
      false_and, or_false]
    exact eq_comm

theorem renew_error_iff (prior a : Application) (e : Fault) :
    renew prior a = .error e ↔ opensGeneration prior a ∧ a.AtLast ∧ e = .overflow := by
  unfold renew AtLast
  by_cases hopens : opensGeneration prior a
  · by_cases hlast : a.generation = 0xffffffffffffffff
    · simp only [hopens, hlast, if_true, Except.error.injEq, true_and]
      exact eq_comm
    · simp [hopens, hlast]
  · simp [hopens]

theorem renew_quiet {prior a : Application} (h : ¬ opensGeneration prior a) : renew prior a = .ok a :=
  (renew_ok_iff prior a a).2 (.inl ⟨h, rfl⟩)

theorem not_opensGeneration_of_stopped {a c : Application} (h : c.desired = .stopped) :
    ¬ opensGeneration a c := by
  simp [opensGeneration, isStarted, h]

theorem not_opensGeneration_of_same {a c : Application} (hd : c.desired = a.desired)
    (hm : c.memoryMb = a.memoryMb) (hh : c.healthCheck = a.healthCheck)
    (hdroplet : c.dropletHash = a.dropletHash) : ¬ opensGeneration a c := by
  unfold opensGeneration isStarted
  rw [hd, hm, hh, hdroplet]
  cases a.desired <;> cases a.dropletHash <;> simp

theorem renew_frame {prior a b : Application} (h : renew prior a = .ok b) :
    b = { a with generation := b.generation, version := b.version } := by
  rcases (renew_ok_iff prior a b).1 h with ⟨-, rfl⟩ | ⟨-, -, rfl⟩ <;> rfl

/-- Beyond its candidate, a change completes the bounds, moves the instances and counts. -/
theorem settle_frame {a c b : Application} {edits : BoundEdits} (h : settle a edits c = .ok b) :
    b = { c with
      scaling := c.scaling.completeBounds edits
      instances := b.instances
      generation := b.generation
      version := b.version } := by
  obtain ⟨-, s, hs, hb⟩ := (settle_ok_iff a c b edits).1 h
  obtain ⟨rfl, -⟩ := (Scaling.reconcile_ok_iff _ _ _).1 hs
  have hframe := renew_frame hb
  rw [clamp_frame] at hframe
  rw [hframe]

theorem clamp_within (prior c : Application) (hp : prior.Lawful)
    (hc : ∀ min ∈ c.scaling.minInstances, ∀ max ∈ c.scaling.maxInstances, min ≤ max)
    (he : c.scaling.enabled) : ∀ min ∈ c.scaling.minInstances, ∀ max ∈ c.scaling.maxInstances,
      min ≤ (clamp prior c).instances ∧ (clamp prior c).instances ≤ max := by
  intro min hmin max hmax
  unfold clamp
  split
  · exact c.scaling.nearest_mem _ _ _ hmin hmax (hc _ hmin _ hmax)
  · rename_i untouched
    -- nothing was touched, so these are the instances and the bounds from before
    simp only [he, Bool.true_and, ne_eq, Bool.not_eq_true, Bool.or_eq_false_iff,
      decide_eq_false_iff_not, Decidable.not_not] at untouched
    obtain ⟨⟨⟨hi, hlo⟩, hhi⟩, hb⟩ := untouched
    rw [hi]
    exact hp.within (by rw [← hb]) min (hlo ▸ hmin) max (hhi ▸ hmax)

theorem renew_version {prior a b : Application} (h : renew prior a = .ok b)
    (ha : a.version = Version.token a.id a.generation) :
    b.version = Version.token b.id b.generation := by
  rcases (renew_ok_iff prior a b).1 h with ⟨-, rfl⟩ | ⟨-, -, rfl⟩
  · exact ha
  · rfl

/-- Starting always opens a generation, so a started application has one. -/
theorem renew_started {prior a b : Application} (h : renew prior a = .ok b)
    (hp : prior.desired = .started → 1 ≤ prior.generation)
    (hg : a.generation = prior.generation) (hstarted : b.desired = .started) : 1 ≤ b.generation := by
  rcases (renew_ok_iff prior a b).1 h with ⟨hopen, rfl⟩ | ⟨-, hlast, rfl⟩
  · have hprior : prior.desired = .started := by
      by_contra hne
      exact hopen (by simp [opensGeneration, isStarted, hstarted, hne])
    rw [hg]
    exact hp hprior
  · rw [UInt64.le_iff_toNat_le, toNat_generation_succ hlast]
    exact Nat.le_add_left _ _

/-- What a change may make of an application before the pipeline looks at it. -/
structure Candidate (a : Application) (edits : BoundEdits) (c : Application) : Prop where
  id : c.id = a.id
  version : c.version = a.version
  generation : c.generation = a.generation
  paired : (c.scaling.completeBounds edits).minInstances.isSome ↔
    (c.scaling.completeBounds edits).maxInstances.isSome
  failure : c.stagingFailure.isSome ↔ c.package = .failed
  staged : c.package = .staged → c.lastStaging.isSome

theorem settle_lawful {a c b : Application} {edits : BoundEdits} (ha : a.Lawful)
    (hc : Candidate a edits c) (h : settle a edits c = .ok b) : b.Lawful := by
  obtain ⟨hcpu, s, hs, hb⟩ := (settle_ok_iff a c b edits).1 h
  obtain ⟨hmin, hmax, hle⟩ := (Scaling.checkThresholds_ok_iff _ _).1 hcpu
  obtain ⟨rfl, hlo, hhi, hord⟩ := (Scaling.reconcile_ok_iff _ _ _).1 hs
  obtain ⟨e1, e2, e3⟩ := c.scaling.completeBounds_cpu edits
  obtain ⟨p1, p2⟩ := c.scaling.completeBounds_pos edits hlo hhi
  set d : Application := { c with scaling := c.scaling.completeBounds edits } with hd
  have hclamp := clamp_frame a d
  have hscaling : b.scaling = c.scaling.completeBounds edits := by rw [settle_frame h]
  refine { scaling := ?_, within := ?_, version := ?_, failure := ?_, staged := ?_, started := ?_ }
  · rw [hscaling]
    exact ⟨e1 ▸ hmin, e2 ▸ hmax, e1 ▸ e2 ▸ hle, hc.paired, p1, p2, hord⟩
  · intro he
    rw [hscaling] at he ⊢
    have hinst : b.instances = (clamp a d).instances := by rw [renew_frame hb]
    rw [hinst]
    exact clamp_within a d ha hord he
  · apply renew_version hb
    rw [hclamp]
    simp only [hd, hc.id, hc.version, hc.generation]
    exact ha.version
  · rw [settle_frame h]
    exact hc.failure
  · rw [settle_frame h]
    exact hc.staged
  · intro hstarted
    exact renew_started hb ha.started (by rw [hclamp]; exact hc.generation) hstarted

theorem settle_neither_lawful {a c b : Application} (ha : a.Lawful) (h : settle a .neither c = .ok b)
    (id : c.id = a.id) (version : c.version = a.version) (generation : c.generation = a.generation)
    (scaling : c.scaling = a.scaling) (failure : c.stagingFailure.isSome ↔ c.package = .failed)
    (staged : c.package = .staged → c.lastStaging.isSome) : b.Lawful :=
  settle_lawful ha
    ⟨id, version, generation, by simpa [scaling] using ha.scaling.paired, failure, staged⟩ h

theorem assignPackage_frame (a : Application) (hash : Option String) : a.assignPackage hash =
    { a with
      packageHash := (a.assignPackage hash).packageHash
      package := (a.assignPackage hash).package
      stagingFailure := (a.assignPackage hash).stagingFailure } := by
  cases hash with
  | none => rfl
  | some hash =>
    simp only [assignPackage]
    split <;> rfl

theorem assignRoutes_frame (a : Application) (routes : Option (List String)) :
    a.assignRoutes routes = { a with
      routes := (a.assignRoutes routes).routes
      routesPending := (a.assignRoutes routes).routesPending } := by
  cases routes with
  | none => rfl
  | some routes =>
    simp only [assignRoutes]
    split <;> rfl

/-- New bits leave no failure behind; otherwise package and failure stay as they were. -/
theorem assignPackage_package (a : Application) (hash : Option String) :
    ((a.assignPackage hash).package = .pending ∧ (a.assignPackage hash).stagingFailure = none) ∨
      ((a.assignPackage hash).package = a.package ∧
        (a.assignPackage hash).stagingFailure = a.stagingFailure) := by
  cases hash with
  | none => exact .inr ⟨rfl, rfl⟩
  | some hash =>
    simp only [assignPackage]
    split
    · exact .inr ⟨rfl, rfl⟩
    · exact .inl ⟨rfl, rfl⟩

theorem assign_package (a : Application) (u : Update) :
    ((a.assign u).package = .pending ∧ (a.assign u).stagingFailure = none) ∨
      ((a.assign u).package = a.package ∧ (a.assign u).stagingFailure = a.stagingFailure) := by
  unfold assign
  rw [assignRoutes_frame]
  exact assignPackage_package _ _

theorem assign_scaling (a : Application) (u : Update) :
    (a.assign u).scaling = a.scaling.assign u := by
  unfold assign
  rw [assignRoutes_frame, assignPackage_frame]

theorem assign_generation (a : Application) (u : Update) :
    (a.assign u).generation = a.generation := by
  unfold assign
  rw [assignRoutes_frame, assignPackage_frame]

theorem assign_candidate {a : Application} (ha : a.Lawful) (u : Update) :
    Candidate a u.boundEdits (a.assign u) := by
  have hstaging : (a.assign u).lastStaging = a.lastStaging := by
    unfold assign
    rw [assignRoutes_frame, assignPackage_frame]
  refine ⟨?_, ?_, assign_generation a u, ?_, ?_, ?_⟩
  · unfold assign
    rw [assignRoutes_frame, assignPackage_frame]
  · unfold assign
    rw [assignRoutes_frame, assignPackage_frame]
  · rw [assign_scaling]
    exact a.scaling.assign_completeBounds_paired u ha.scaling.paired
  · rcases assign_package a u with ⟨hp, hf⟩ | ⟨hp, hf⟩
    · simp [hp, hf]
    · rw [hp, hf]
      exact ha.failure
  · rw [hstaging]
    rcases assign_package a u with ⟨hp, -⟩ | ⟨hp, -⟩
    · simp [hp]
    · rw [hp]
      exact ha.staged

theorem apply_lawful {a b : Application} {u : Update} (ha : a.Lawful) (h : a.apply u = .ok b) :
    b.Lawful := settle_lawful ha (assign_candidate ha u) h

theorem start_lawful {a b : Application} (ha : a.Lawful) (h : a.start = .ok b) : b.Lawful :=
  settle_neither_lawful ha h rfl rfl rfl rfl ha.failure ha.staged

theorem stop_lawful {a b : Application} (ha : a.Lawful) (h : a.stop = .ok b) : b.Lawful :=
  settle_neither_lawful ha h rfl rfl rfl rfl ha.failure ha.staged

theorem markForRestaging_lawful {a b : Application} (ha : a.Lawful)
    (h : a.markForRestaging = .ok b) : b.Lawful :=
  settle_neither_lawful ha h rfl rfl rfl rfl (by simp [resetPackage]) nofun

theorem restage_ok_iff (a b : Application) : a.restage = .ok b ↔
    ∃ s m, a.stop = .ok s ∧ s.markForRestaging = .ok m ∧ m.start = .ok b := by
  unfold restage
  cases a.stop with
  | error e => simp [bind, Except.bind]
  | ok s => cases h : s.markForRestaging <;> simp [bind, Except.bind, h]

theorem restage_lawful {a b : Application} (ha : a.Lawful) (h : a.restage = .ok b) : b.Lawful := by
  obtain ⟨s, m, hs, hm, hb⟩ := (restage_ok_iff a b).1 h
  exact start_lawful (markForRestaging_lawful (stop_lawful ha hs) hm) hb

theorem markStaged_ok_iff (a b : Application) (result : StagingResult) :
    a.markStaged result = .ok b ↔ a.package = .pending ∧ settle a .neither { a with
      package := .staged
      stagingFailure := none
      dropletHash := result.dropletHash.or a.dropletHash
      lastStaging := some result } = .ok b := by
  unfold markStaged checkPending isPending
  by_cases h : a.package = .pending <;> simp [h, bind, Except.bind]

theorem markFailed_ok_iff (a b : Application) (reason : String) :
    a.markFailed reason = .ok b ↔ a.package = .pending ∧
      settle a .neither { a with package := .failed, stagingFailure := some reason } = .ok b := by
  unfold markFailed checkPending isPending
  by_cases h : a.package = .pending <;> simp [h, bind, Except.bind]

theorem markStaged_lawful {a b : Application} {result : StagingResult} (ha : a.Lawful)
    (h : a.markStaged result = .ok b) : b.Lawful := by
  obtain ⟨-, h⟩ := (markStaged_ok_iff a b result).1 h
  exact settle_neither_lawful ha h rfl rfl rfl rfl (by simp) (by simp)

theorem markFailed_lawful {a b : Application} {reason : String} (ha : a.Lawful)
    (h : a.markFailed reason = .ok b) : b.Lawful := by
  obtain ⟨-, h⟩ := (markFailed_ok_iff a b reason).1 h
  exact settle_neither_lawful ha h rfl rfl rfl rfl (by simp) (by simp)

/-- None of these facts is about routes, or about when the application was stored. -/
theorem Lawful.of_routes {a : Application} (ha : a.Lawful) (routes : List String) (pending : Bool)
    (updatedAt : UInt64) : { a with routes, routesPending := pending, updatedAt }.Lawful :=
  ⟨ha.scaling, ha.within, ha.version, ha.failure, ha.staged, ha.started⟩

theorem bindRoute_lawful {a : Application} (ha : a.Lawful) (route : String) :
    (a.bindRoute route).Lawful := by
  unfold bindRoute
  split
  · exact ha
  · exact ha.of_routes _ _ _

theorem unbindRoute_lawful {a : Application} (ha : a.Lawful) (route : String) :
    (a.unbindRoute route).Lawful := by
  unfold unbindRoute
  split
  · exact ha.of_routes _ _ _
  · exact ha

theorem routesPushed_lawful {a : Application} (ha : a.Lawful) : a.routesPushed.Lawful :=
  ha.of_routes _ _ _

end Application

namespace Operation

open Application

theorem perform_lawful {a b : Application} {op : Operation} (ha : a.Lawful)
    (h : op.perform a = .ok b) : b.Lawful := by
  cases op with
  | apply u => exact apply_lawful ha h
  | start => exact start_lawful ha h
  | stop => exact stop_lawful ha h
  | restage => exact restage_lawful ha h
  | markForRestaging => exact markForRestaging_lawful ha h
  | markStaged result => exact markStaged_lawful ha h
  | markFailed reason => exact markFailed_lawful ha h
  | bindRoute route => cases h; exact bindRoute_lawful ha route
  | unbindRoute route => cases h; exact unbindRoute_lawful ha route
  | routesPushed => cases h; exact routesPushed_lawful ha

theorem after_lawful {a : Application} (ha : a.Lawful) (op : Operation) : (after a op).Lawful := by
  unfold after
  split
  · exact perform_lawful ha ‹_›
  · exact ha

theorem run_lawful {a : Application} (ha : a.Lawful) (ops : List Operation) :
    (run a ops).Lawful := by
  induction ops generalizing a with
  | nil => exact ha
  | cons op ops ih => exact ih (after_lawful ha op)

end Operation

namespace Application

theorem opensGeneration_clamp (prior a : Application) :
    opensGeneration prior (clamp prior a) = opensGeneration prior a := by
  rw [clamp_frame]
  rfl

theorem atLast_clamp (prior a : Application) : (clamp prior a).AtLast ↔ a.AtLast := by
  rw [clamp_frame]
  rfl

theorem settle_overflow {a c : Application} {edits : BoundEdits}
    (h : settle a edits c = .error .overflow) : opensGeneration a c ∧ c.AtLast := by
  unfold settle at h
  cases hcpu : c.scaling.checkThresholds a.scaling with
  | error r => simp [hcpu, bind, Except.bind] at h
  | ok u =>
    cases hs : c.scaling.reconcile edits with
    | error r => simp [hcpu, hs, bind, Except.bind] at h
    | ok s =>
      simp only [hcpu, hs, Fault.lift_ok, bind, Except.bind] at h
      obtain ⟨hopens, hlast, -⟩ := (renew_error_iff _ _ _).1 h
      rw [opensGeneration_clamp] at hopens
      rw [atLast_clamp] at hlast
      exact ⟨hopens, hlast⟩

theorem markStaged_overflow {a : Application} {result : StagingResult}
    (h : a.markStaged result = .error .overflow) : a.package = .pending ∧ a.AtLast := by
  by_cases hp : a.package = .pending
  · simp only [markStaged, checkPending, isPending, hp, decide_true, if_true, Fault.lift_ok, bind,
      Except.bind] at h
    exact ⟨hp, (settle_overflow h).2⟩
  · simp [markStaged, checkPending, isPending, hp, bind, Except.bind] at h

/-- What failed runs no more than before. -/
theorem markFailed_ne_overflow (a : Application) (reason : String) :
    a.markFailed reason ≠ .error .overflow := by
  intro h
  by_cases hp : a.package = .pending
  · simp only [markFailed, checkPending, isPending, hp, decide_true, if_true, Fault.lift_ok, bind,
      Except.bind] at h
    exact not_opensGeneration_of_same (c := { a with
      package := .failed
      stagingFailure := some reason }) rfl rfl rfl rfl (settle_overflow h).1
  · simp [markFailed, checkPending, isPending, hp, bind, Except.bind] at h

/-- What the pipeline makes of a candidate that edits no bounds and passes the checks. -/
theorem settle_neither_eq {a c : Application} (h : c.scaling.passes) :
    settle a .neither c = renew a (clamp a c) := by
  obtain ⟨hcpu, hbounds⟩ := (Scaling.passes_iff _).1 h
  have hprior : c.scaling.checkThresholds a.scaling = .ok () := by
    rwa [Scaling.checkThresholds_ok_iff, ← Scaling.checkThresholds_ok_iff _ c.scaling]
  simp [settle, hprior, hbounds, bind, Except.bind]

/-- A change that edits no bounds is rejected for the bounds of its candidate alone, and overflows only
where it opens a generation after the last. -/
theorem settle_neither_iff {a c : Application} : (∃ b, settle a .neither c = .ok b) ↔
    c.scaling.passes ∧ ¬ (opensGeneration a c ∧ c.AtLast) := by
  have hpasses (b : Application) (hb : settle a .neither c = .ok b) : c.scaling.passes := by
    obtain ⟨hcpu, s, hs, -⟩ := (settle_ok_iff a c b .neither).1 hb
    have hsame := ((Scaling.reconcile_ok_iff _ _ _).1 hs).1
    rw [Scaling.completeBounds_neither] at hsame
    rw [Scaling.passes_iff, Scaling.checkThresholds_ok_iff,
      ← Scaling.checkThresholds_ok_iff _ a.scaling]
    exact ⟨hcpu, hsame ▸ hs⟩
  constructor
  · rintro ⟨b, hb⟩
    refine ⟨hpasses b hb, fun hover => ?_⟩
    rw [settle_neither_eq (hpasses b hb), (renew_error_iff _ _ .overflow).2
      ⟨by rw [opensGeneration_clamp]; exact hover.1, (atLast_clamp a c).2 hover.2, rfl⟩] at hb
    cases hb
  · rintro ⟨h, hover⟩
    rw [settle_neither_eq h]
    cases hrenew : renew a (clamp a c) with
    | ok b => exact ⟨b, rfl⟩
    | error e =>
      obtain ⟨hopens, hlast, -⟩ := (renew_error_iff _ _ _).1 hrenew
      rw [opensGeneration_clamp] at hopens
      exact absurd ⟨hopens, (atLast_clamp a c).1 hlast⟩ hover

/-- It is the bounds of its candidate that such a change is rejected for. -/
theorem settle_neither_rejected_iff {a c : Application} :
    (∃ r, settle a .neither c = .error (.rejected r)) ↔ ¬ c.scaling.passes := by
  constructor
  · rintro ⟨r, hr⟩ hpasses
    rw [settle_neither_eq hpasses] at hr
    obtain ⟨-, -, ⟨⟩⟩ := (renew_error_iff _ _ _).1 hr
  · intro hnot
    have hprior : c.scaling.checkThresholds a.scaling = .ok () ↔
        c.scaling.checkThresholds c.scaling = .ok () := by
      rw [Scaling.checkThresholds_ok_iff, Scaling.checkThresholds_ok_iff]
    unfold settle
    cases hcpu : c.scaling.checkThresholds a.scaling with
    | error r => exact ⟨r, rfl⟩
    | ok u =>
      cases hbounds : c.scaling.reconcile .neither with
      | error r => exact ⟨r, rfl⟩
      | ok s =>
        have hsame := ((Scaling.reconcile_ok_iff _ _ _).1 hbounds).1
        rw [Scaling.completeBounds_neither] at hsame
        exact absurd ((Scaling.passes_iff _).2 ⟨hprior.1 hcpu, hsame ▸ hbounds⟩) hnot

/-- A change that comes about, unless the generations are used up. -/
def Granted (a : Application) (outcome : Except Fault Application) : Prop :=
  (∃ b, outcome = .ok b) ∨ outcome = .error .overflow ∧ a.AtLast

/-- A candidate with the bounds of a lawful application passes every check. -/
theorem settle_granted {a c : Application} (ha : a.Lawful) (hs : c.scaling = a.scaling)
    (hg : c.generation = a.generation) : a.Granted (settle a .neither c) := by
  rw [settle_neither_eq (hs ▸ ha.scaling.passes)]
  cases hrenew : renew a (clamp a c) with
  | ok b => exact .inl ⟨b, rfl⟩
  | error e =>
    obtain ⟨-, hlast, rfl⟩ := (renew_error_iff _ _ _).1 hrenew
    rw [atLast_clamp, AtLast, hg] at hlast
    exact .inr ⟨rfl, hlast⟩

/-- Without a generation to open, nothing stands in its way. -/
theorem settle_passes {a c : Application} (ha : a.Lawful) (hs : c.scaling = a.scaling)
    (hquiet : ¬ opensGeneration a c) : ∃ b, settle a .neither c = .ok b :=
  settle_neither_iff.2 ⟨hs ▸ ha.scaling.passes, fun h => hquiet h.1⟩

/-- What owners and dispatch rely on: these operations are never rejected, and a verdict is rejected
only if the package waits for none. -/
structure Unhindered (a : Application) : Prop where
  start : a.Granted a.start
  stop : ∃ b, a.stop = .ok b
  markForRestaging : ∃ b, a.markForRestaging = .ok b
  restage : a.Granted a.restage
  markStaged : ∀ result, a.Granted (a.markStaged result) ↔ a.package = .pending
  markFailed : ∀ reason, (∃ b, a.markFailed reason = .ok b) ↔ a.package = .pending

theorem stop_passes {a : Application} (ha : a.Lawful) : ∃ b, a.stop = .ok b :=
  settle_passes ha rfl (not_opensGeneration_of_stopped rfl)

theorem markForRestaging_passes {a : Application} (ha : a.Lawful) : ∃ b, a.markForRestaging = .ok b :=
  settle_passes ha rfl (not_opensGeneration_of_same rfl rfl rfl rfl)

theorem settle_generation {a c b : Application} {edits : BoundEdits} (h : settle a edits c = .ok b)
    (hquiet : ¬ opensGeneration a c) : b.generation = c.generation := by
  obtain ⟨-, s, -, hb⟩ := (settle_ok_iff a c b edits).1 h
  rcases (renew_ok_iff _ _ _).1 hb with ⟨-, rfl⟩ | ⟨hopens, -, -⟩
  · rw [clamp_frame]
  · rw [opensGeneration_clamp] at hopens
    exact absurd hopens hquiet

/-- The first two steps of a restage open no generation. -/
theorem restage_granted {a : Application} (ha : a.Lawful) : a.Granted a.restage := by
  obtain ⟨s, hs⟩ := stop_passes ha
  have hs' := stop_lawful ha hs
  obtain ⟨m, hm⟩ := markForRestaging_passes hs'
  have hstop : s.generation = a.generation :=
    settle_generation (c := { a with desired := .stopped }) hs (not_opensGeneration_of_stopped rfl)
  have hmark : m.generation = s.generation :=
    settle_generation (c := s.resetPackage) hm (not_opensGeneration_of_same rfl rfl rfl rfl)
  have hrestage : a.restage = m.start := by
    simp [restage, hs, hm, bind, Except.bind]
  rw [hrestage]
  have hgranted : m.Granted m.start := settle_granted (markForRestaging_lawful hs' hm) rfl rfl
  rwa [Granted, AtLast, hmark, hstop] at hgranted

theorem Lawful.unhindered {a : Application} (ha : a.Lawful) : a.Unhindered := by
  refine ⟨settle_granted ha rfl rfl, stop_passes ha, markForRestaging_passes ha,
    restage_granted ha, fun result => ?_, fun reason => ?_⟩
  · constructor
    · rintro (⟨b, hb⟩ | ⟨hover, -⟩)
      · exact ((markStaged_ok_iff a b result).1 hb).1
      · by_contra hp
        simp [markStaged, checkPending, isPending, hp, bind, Except.bind] at hover
    · intro hp
      have hgranted := settle_granted ha (c := { a with
        package := .staged
        stagingFailure := none
        dropletHash := result.dropletHash.or a.dropletHash
        lastStaging := some result }) rfl rfl
      simpa [markStaged, checkPending, isPending, hp, bind, Except.bind] using hgranted
  · simp only [markFailed_ok_iff, exists_and_left, and_iff_left_iff_imp]
    exact fun _ => settle_passes ha rfl (not_opensGeneration_of_same rfl rfl rfl rfl)

end Application

end AppFleet
