import AppFleet.ControlPlane
import AppFleet.Proofs.Activity.Course
import AppFleet.Proofs.Application.Lawful

/-! Updates that are rejected, and the bound that is blamed. A stored application has its bounds in
order, so an update that leaves them out of order changes one of them. Between the thresholds the blame
goes by what changed, but between the instance bounds it goes by what the update sets. -/

namespace AppFleet

namespace Scaling

def Percentages (s : Scaling) : Prop :=
  (∀ c ∈ s.minCpu, c ≤ 100) ∧ (∀ c ∈ s.maxCpu, c ≤ 100) ∧
    ∀ min ∈ s.minCpu, ∀ max ∈ s.maxCpu, min ≤ max

def Counts (s : Scaling) : Prop :=
  (∀ min ∈ s.minInstances, 1 ≤ min) ∧ (∀ max ∈ s.maxInstances, 1 ≤ max) ∧
    ∀ min ∈ s.minInstances, ∀ max ∈ s.maxInstances, min ≤ max

def proposed (s : Scaling) (u : Update) : Scaling := (s.assign u).completeBounds u.boundEdits

def value (s : Scaling) : Bound → Option UInt32
  | .minInstances => s.minInstances
  | .maxInstances => s.maxInstances
  | .minCpu => s.minCpu
  | .maxCpu => s.maxCpu

def Changes (s : Scaling) (u : Update) (bound : Bound) : Prop :=
  (s.proposed u).value bound ≠ s.value bound

/-- The update sets the lower bound to what it is, and the upper one below it. -/
structure Undercuts (s : Scaling) (u : Update) : Prop where
  percentages : (s.assign u).Percentages
  same : u.minInstances = s.minInstances
  below : ∃ min max, u.minInstances = some min ∧ u.maxInstances = some max ∧ 1 ≤ max ∧ max < min

/-- What is wrong with bounds, in the order in which it is looked for, and what is said of it. -/
inductive IsRejected (s prior : Scaling) (edits : BoundEdits) : Rejection → Prop where
  | minCpu {c : UInt32} : s.minCpu = some c → 100 < c →
      IsRejected s prior edits (.cpuOutOfRange .minCpu c)
  | maxCpu {c : UInt32} : s.maxCpu = some c → 100 < c →
      IsRejected s prior edits (.cpuOutOfRange .maxCpu c)
  | cpu {min max : UInt32} : s.minCpu = some min → s.maxCpu = some max → max < min →
      IsRejected s prior edits (.invertedCpu
        (if some max ≠ prior.maxCpu ∧ some min = prior.minCpu then .maxCpu else .minCpu) min max)
  | minInstances : s.minInstances = some 0 → IsRejected s prior edits (.boundBelowOne .minInstances)
  | maxInstances : s.maxInstances = some 0 → IsRejected s prior edits (.boundBelowOne .maxInstances)
  | instances {min max : UInt32} : s.Percentages → (∀ max ∈ s.maxInstances, 1 ≤ max) →
      (s.completeBounds edits).minInstances = some min →
      (s.completeBounds edits).maxInstances = some max → max < min →
      IsRejected s prior edits (.invertedInstances
        (if edits.max && !edits.min then .maxInstances else .minInstances) min max)

theorem checkPercent_error {bound : Bound} {value : Option UInt32} {r : Rejection}
    (h : checkPercent bound value = .error r) :
    ∃ c, value = some c ∧ 100 < c ∧ r = .cpuOutOfRange bound c := by
  cases value with
  | none => cases h
  | some c =>
    simp only [checkPercent] at h
    split at h
    · cases h
      exact ⟨c, rfl, ‹_›, rfl⟩
    · cases h

theorem checkPositive_error {bound : Bound} {value : Option UInt32} {r : Rejection}
    (h : checkPositive bound value = .error r) : value = some 0 ∧ r = .boundBelowOne bound := by
  unfold checkPositive at h
  split at h
  · cases h
    exact ⟨‹_›, rfl⟩
  · cases h

variable {prior s : Scaling} {edits : BoundEdits} {r : Rejection}

theorem checkThresholds_error (h : s.checkThresholds prior = .error r) :
    s.IsRejected prior edits r := by
  unfold checkThresholds at h
  cases hmin : checkPercent .minCpu s.minCpu with
  | error e =>
    rw [hmin] at h
    cases h
    obtain ⟨c, hc, hlt, rfl⟩ := checkPercent_error hmin
    exact .minCpu hc hlt
  | ok u =>
    cases hmax : checkPercent .maxCpu s.maxCpu with
    | error e =>
      rw [hmin, hmax] at h
      cases h
      obtain ⟨c, hc, hlt, rfl⟩ := checkPercent_error hmax
      exact .maxCpu hc hlt
    | ok u =>
      simp only [hmin, hmax, bind, Except.bind] at h
      split at h
      · split at h
        · cases h
          exact .cpu ‹_› ‹_› ‹_›
        · cases h
      · cases h

theorem reconcile_error (hcpu : s.Percentages) (h : s.reconcile edits = .error r) :
    s.IsRejected prior edits r := by
  unfold reconcile at h
  cases hmin : checkPositive .minInstances s.minInstances with
  | error e =>
    rw [hmin] at h
    cases h
    obtain ⟨hzero, rfl⟩ := checkPositive_error hmin
    exact .minInstances hzero
  | ok u =>
    cases hmax : checkPositive .maxInstances s.maxInstances with
    | error e =>
      rw [hmin, hmax] at h
      cases h
      obtain ⟨hzero, rfl⟩ := checkPositive_error hmax
      exact .maxInstances hzero
    | ok u =>
      have hpos := (checkPositive_ok_iff .maxInstances s.maxInstances).1 hmax
      simp only [hmin, hmax, bind, Except.bind] at h
      split at h
      · split at h
        · cases h
          exact .instances hcpu hpos ‹_› ‹_› ‹_›
        · cases h
      · cases h

/-- Completing fills what is missing, and changes nothing else. -/
theorem completeBounds_keeps (s : Scaling) (edits : BoundEdits) :
    (∀ min ∈ s.minInstances, min ∈ (s.completeBounds edits).minInstances) ∧
      ∀ max ∈ s.maxInstances, max ∈ (s.completeBounds edits).maxInstances := by
  unfold completeBounds
  split
  · simp_all
  · split
    · simp_all
    · exact ⟨fun _ h => h, fun _ h => h⟩

theorem reconcile_ok_iff_counts (s : Scaling) (edits : BoundEdits) :
    (∃ t, s.reconcile edits = .ok t) ↔ (s.completeBounds edits).Counts := by
  simp only [reconcile_ok_iff]
  constructor
  · rintro ⟨t, rfl, hmin, hmax, hordered⟩
    obtain ⟨hmin, hmax⟩ := completeBounds_pos s edits hmin hmax
    exact ⟨hmin, hmax, hordered⟩
  · rintro ⟨hmin, hmax, hordered⟩
    obtain ⟨hkeepsMin, hkeepsMax⟩ := s.completeBounds_keeps edits
    exact ⟨_, rfl, fun min h => hmin min (hkeepsMin min h), fun max h => hmax max (hkeepsMax max h),
      hordered⟩

theorem proposed_cpu (s : Scaling) (u : Update) :
    (s.proposed u).minCpu = (s.assign u).minCpu ∧ (s.proposed u).maxCpu = (s.assign u).maxCpu := by
  obtain ⟨hmin, hmax, -⟩ := completeBounds_cpu (s.assign u) u.boundEdits
  exact ⟨hmin, hmax⟩

/-- Each instance bound is the one that the update sets, or else the stored one, or else the other one
that the update sets. -/
theorem proposed_instances (s : Scaling) (u : Update) :
    (s.proposed u).minInstances = u.minInstances.or (s.minInstances.or u.maxInstances) ∧
      (s.proposed u).maxInstances = u.maxInstances.or (s.maxInstances.or u.minInstances) := by
  cases hlo : u.minInstances <;> cases hhi : u.maxInstances <;>
    cases hs : s.minInstances <;> cases ht : s.maxInstances <;>
    simp [proposed, assign, completeBounds, Update.boundEdits, hlo, hhi, hs, ht]

/-- Instance bounds that an update puts out of order are blamed on one that it changes, unless it sets
the lower one to what it is. -/
theorem inverted_blames {s : Scaling} {u : Update} (hs : s.Lawful) {min max : UInt32}
    (hcpu : (s.assign u).Percentages) (hpos : ∀ max ∈ (s.assign u).maxInstances, 1 ≤ max)
    (hmin : (s.proposed u).minInstances = some min) (hmax : (s.proposed u).maxInstances = some max)
    (hlt : max < min) :
    s.Changes u (if u.boundEdits.max && !u.boundEdits.min then .maxInstances else .minInstances) ↔
      ¬ s.Undercuts u := by
  have hstored : ¬ (s.minInstances = some min ∧ s.maxInstances = some max) := fun h =>
    UInt32.not_le.2 hlt (hs.ordered _ h.1 _ h.2)
  obtain ⟨hlo, hhi⟩ := s.proposed_instances u
  have hpaired := hs.paired
  cases hu : u.minInstances with
  | none =>
    have hnot : ¬ s.Undercuts u := fun hundercuts => by
      obtain ⟨_, _, hset, -⟩ := hundercuts.below
      cases hu.symm.trans hset
    refine iff_of_true (fun hsame => hstored ?_) hnot
    -- what is not set is as it is stored, for bounds are stored in pairs
    cases hv : u.maxInstances with
    | none => simp_all
    | some n =>
      have hmax' : s.maxInstances = some max := by
        rw [← hmax]
        simpa [value, Update.boundEdits, hu, hv] using hsame.symm
      cases hs' : s.minInstances with
      | none => simp [hs', hmax'] at hpaired
      | some lo => simp_all
  | some m =>
    have hblamed : (if u.boundEdits.max && !u.boundEdits.min then Bound.maxInstances
        else .minInstances) = .minInstances := by simp [Update.boundEdits, hu]
    rw [hblamed]
    cases hv : u.maxInstances with
    | none =>
      have hnot : ¬ s.Undercuts u := fun hundercuts => by
        obtain ⟨_, _, -, hset, -⟩ := hundercuts.below
        cases hv.symm.trans hset
      refine iff_of_true (fun hsame => hstored ?_) hnot
      have hmin' : s.minInstances = some min := hsame.symm.trans hmin
      cases hs' : s.maxInstances with
      | none => simp [hs', hmin'] at hpaired
      | some hi => simp_all
    | some n =>
      have hm : some m = some min := by simpa [hlo, hu] using hmin
      have hn : some n = some max := by simpa [hhi, hv] using hmax
      constructor
      · intro hchanges hundercuts
        exact hchanges (hmin.trans (hm.symm.trans (hu.symm.trans hundercuts.same)))
      · intro hnot hsame
        have hmin' : s.minInstances = some min := hsame.symm.trans hmin
        have hset : (s.assign u).maxInstances = some max := by simp [assign, hv, hn]
        exact hnot ⟨hcpu, (hu.trans hm).trans hmin'.symm, min, max, hu.trans hm, hv.trans hn,
          hpos max hset, hlt⟩

/-- Bounds in order are put out of order by a change of the bound that is blamed, or by a change of the
other one alone: to less than the lower bound, which is blamed when it is set again. -/
theorem IsRejected.blames {s : Scaling} {u : Update} (hs : s.Lawful)
    (h : (s.assign u).IsRejected s u.boundEdits r) :
    ∃ bound, r.bound? = some bound ∧ (s.Changes u bound ↔ ¬ s.Undercuts u) := by
  obtain ⟨hlo, hhi⟩ := s.proposed_cpu u
  cases h with
  | minCpu hc hlt =>
    refine ⟨.minCpu, rfl, iff_of_true (fun hsame => ?_) fun hu => ?_⟩
    · exact UInt32.not_le.2 hlt (hs.minCpu_le _ (hsame.symm.trans (hlo.trans hc)))
    · exact UInt32.not_le.2 hlt (hu.percentages.1 _ hc)
  | maxCpu hc hlt =>
    refine ⟨.maxCpu, rfl, iff_of_true (fun hsame => ?_) fun hu => ?_⟩
    · exact UInt32.not_le.2 hlt (hs.maxCpu_le _ (hsame.symm.trans (hhi.trans hc)))
    · exact UInt32.not_le.2 hlt (hu.percentages.2.1 _ hc)
  | @cpu min max hmin hmax hlt =>
    refine ⟨_, rfl, iff_of_true (fun hsame => ?_) fun hu => ?_⟩
    · split at hsame
      · rename_i hchanged
        exact hchanged.1 (hmax.symm.trans (hhi.symm.trans hsame))
      · rename_i hunchanged
        -- the lower threshold is the same, so the upper one must have changed
        have hmin' : s.minCpu = some min := hsame.symm.trans (hlo.trans hmin)
        have hmax' : s.maxCpu = some max := by
          by_contra hne
          exact hunchanged ⟨Ne.symm hne, hmin'.symm⟩
        exact UInt32.not_le.2 hlt (hs.cpu_ordered _ hmin' _ hmax')
    · exact UInt32.not_le.2 hlt (hu.percentages.2.2 _ hmin _ hmax)
  | minInstances hzero =>
    refine ⟨.minInstances, rfl, iff_of_true (fun hsame => ?_) fun hu => ?_⟩
    · have hmin := (completeBounds_keeps (s.assign u) u.boundEdits).1 0 hzero
      exact absurd (hs.min_pos 0 (hsame.symm.trans hmin)) (by decide)
    · obtain ⟨min, max, hmin, -, hpos, hlt⟩ := hu.below
      simp [assign, hmin] at hzero
      simp [hzero] at hlt
  | maxInstances hzero =>
    refine ⟨.maxInstances, rfl, iff_of_true (fun hsame => ?_) fun hu => ?_⟩
    · have hmax := (completeBounds_keeps (s.assign u) u.boundEdits).2 0 hzero
      exact absurd (hs.max_pos 0 (hsame.symm.trans hmax)) (by decide)
    · obtain ⟨min, max, -, hmax, hpos, -⟩ := hu.below
      simp [assign, hmax] at hzero
      simp [hzero] at hpos
  | @instances min max hcpu hpos hmin hmax hlt =>
    exact ⟨_, rfl, inverted_blames hs hcpu hpos hmin hmax hlt⟩

end Scaling

namespace Application

variable {a : Application} {u : Update} {r : Rejection}

/-- An update is accepted exactly if what it proposes is in order. -/
theorem apply_granted_iff (a : Application) (u : Update) : a.Granted (a.apply u) ↔
    (a.scaling.proposed u).Percentages ∧ (a.scaling.proposed u).Counts := by
  obtain ⟨hmin, hmax⟩ := a.scaling.proposed_cpu u
  have hcpu : (a.scaling.proposed u).Percentages ↔
      (a.assign u).scaling.checkThresholds a.scaling = .ok () := by
    rw [Scaling.checkThresholds_ok_iff, assign_scaling, ← hmin, ← hmax]
    rfl
  have hcounts : (a.scaling.proposed u).Counts ↔
      ∃ s, (a.assign u).scaling.reconcile u.boundEdits = .ok s := by
    rw [Scaling.reconcile_ok_iff_counts, assign_scaling]
    rfl
  rw [hcpu, hcounts]
  unfold apply settle
  cases hok : (a.assign u).scaling.checkThresholds a.scaling with
  | error e => simp [Granted, bind, Except.bind]
  | ok _ =>
    cases hs : (a.assign u).scaling.reconcile u.boundEdits with
    | error e => simp [Granted, bind, Except.bind]
    | ok s =>
      refine iff_of_true ?_ ⟨rfl, s, rfl⟩
      change a.Granted (renew a (clamp a { a.assign u with scaling := s }))
      cases hrenew : renew a (clamp a { a.assign u with scaling := s }) with
      | ok b => exact .inl ⟨b, rfl⟩
      | error e =>
        obtain ⟨-, hlast, rfl⟩ := (renew_error_iff _ _ _).1 hrenew
        refine .inr ⟨rfl, ?_⟩
        rwa [atLast_clamp, AtLast, assign_generation] at hlast

/-- An update is rejected for its bounds, and for nothing else. -/
theorem apply_error (h : a.apply u = .error (.rejected r)) :
    (a.scaling.assign u).IsRejected a.scaling u.boundEdits r := by
  rw [← assign_scaling]
  unfold apply settle at h
  cases hcpu : (a.assign u).scaling.checkThresholds a.scaling with
  | error e =>
    rw [hcpu] at h
    cases h
    exact Scaling.checkThresholds_error hcpu
  | ok _ =>
    cases hcounts : (a.assign u).scaling.reconcile u.boundEdits with
    | error e =>
      rw [hcpu, hcounts] at h
      cases h
      exact Scaling.reconcile_error ((Scaling.checkThresholds_ok_iff _ _).1 hcpu) hcounts
    | ok s =>
      rw [hcpu, hcounts] at h
      obtain ⟨-, -, ⟨⟩⟩ := (renew_error_iff _ _ _).1 h

end Application

/-- Of an update that is rejected, nothing is left but the answer. -/
theorem ControlPlane.update_rejected {config : Config} {app : AppId} {u : Update} {steps : List Step}
    {answer : Except PlaneError Application} (h : (update config app u).Goes steps answer) :
    ∃ w rest, steps = .act w (.changeApp app (·.apply u)) :: rest ∧
      ∀ a r, w.store.apps.get? app = some a → a.apply u = .error (.rejected r) →
        rest = [] ∧ answer = .error (.rejected r) ∧
          (w.perform (.changeApp app (·.apply u))).2 = w := by
  obtain ⟨own, rest, changed, rfl, hown, hrest⟩ := (Activity.goes_bind _ _ _).1 h
  obtain ⟨w, rfl, hchanged⟩ := (Activity.goes_changeApp _).1 hown
  refine ⟨w, rest, rfl, fun a r ha hr => ?_⟩
  have hperform : w.perform (.changeApp app (·.apply u)) = (.error (.rejected r), w) := by
    simp [World.perform, Store.changeApp, ha, hr]
  rw [hperform] at hchanged ⊢
  cases changed with
  | ok recorded => cases hchanged
  | error r' =>
    cases hchanged
    obtain ⟨rfl, rfl⟩ := hrest
    exact ⟨rfl, rfl, rfl⟩

namespace Application

/-- Whatever operations and whenever stored, an application accepts exactly the updates that leave its
bounds in order, as long as there are generations. A rejected one is blamed on a bound that it would
change exactly if it does not set the lower instance bound to what it is, with the upper one below it
and nothing else wrong. Through the control plane it leaves nothing behind but the answer. -/
theorem blames_changed_iff (id name : String) (ops : List Operation) (updatedAt : UInt64) (u : Update) :
    let a := { Operation.run (.new id name) ops with updatedAt }
    (a.Granted (a.apply u) ↔
      (a.scaling.proposed u).Percentages ∧ (a.scaling.proposed u).Counts) ∧
    ∀ r, a.apply u = .error (.rejected r) →
      (∃ bound, r.bound? = some bound ∧ (a.scaling.Changes u bound ↔ ¬ a.scaling.Undercuts u)) ∧
      ∀ config app steps answer, (ControlPlane.update config app u).Goes steps answer →
        ∃ w rest, steps = .act w (.changeApp app (·.apply u)) :: rest ∧
          (w.store.apps.get? app = some a → rest = [] ∧ answer = .error (.rejected r) ∧
            (w.perform (.changeApp app (·.apply u))).2 = w) := by
  intro a
  refine ⟨apply_granted_iff a u, fun r hr => ⟨?_, fun config app steps answer h => ?_⟩⟩
  · have hlawful := Operation.run_lawful (new_lawful id name) ops
    exact Scaling.IsRejected.blames hlawful.scaling (apply_error hr)
  · obtain ⟨w, rest, hsteps, hrejected⟩ := ControlPlane.update_rejected h
    exact ⟨w, rest, hsteps, fun ha => hrejected a r ha hr⟩

def webBetween : List Operation :=
  [.apply { Update.empty with minInstances := some 2, maxInstances := some 5 }]

theorem blames_changed_iff_web :
    let a := Operation.run (.new "web" "web") webBetween
    let u := { Update.empty with maxInstances := some 1 }
    a.apply u = .error (.rejected (.invertedInstances .maxInstances 2 1)) ∧ a.scaling.Changes u .maxInstances := by
  intro a u
  have hrejected : a.apply u = .error (.rejected (.invertedInstances .maxInstances 2 1)) := rfl
  obtain ⟨bound, hbound, hiff⟩ := ((blames_changed_iff "web" "web" webBetween 0 u).2 _ hrejected).1
  obtain rfl : Bound.maxInstances = bound := Option.some.inj hbound
  exact ⟨hrejected, hiff.2 fun hundercuts => nomatch hundercuts.same⟩

/-- The lower bound is set again, and it is blamed for what the upper one is set to. -/
theorem blames_unchanged : ¬ ∀ (id name : String) (ops : List Operation) (u : Update) (r : Rejection)
    (bound : Bound), (Operation.run (.new id name) ops).apply u = .error (.rejected r) → r.bound? = some bound →
    (Operation.run (.new id name) ops).scaling.Changes u bound := by
  intro h
  have hchanges := h "web" "web" webBetween
    { Update.empty with minInstances := some 2, maxInstances := some 1 }
    (.invertedInstances .minInstances 2 1) .minInstances rfl rfl
  exact hchanges rfl

end Application

end AppFleet
