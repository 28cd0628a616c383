import AppFleet.Proofs.Application.Unstaged

/-! What a change of the count alone makes of an application. While it is lawful, it comes to the count
that is nearest to the requested one within its bounds, and nothing else of it changes; it never moves
away from what was requested, and never beyond it. Lawful or not, autoscaling does not let it rise above
the upper bound. -/

namespace AppFleet

namespace Scaling

variable {s : Scaling}

/-- The count that a requested one comes to; only autoscaling keeps it within the bounds. -/
def reach (s : Scaling) (count : UInt32) : UInt32 := if s.enabled then s.nearest count else count

theorem Lawful.none_or_both (h : s.Lawful) : (s.minInstances = none ∧ s.maxInstances = none) ∨
    ∃ min max, s.minInstances = some min ∧ s.maxInstances = some max := by
  have hpaired := h.paired
  cases hmin : s.minInstances with
  | none => simp_all
  | some min => simpa [hmin, Option.isSome_iff_exists] using hpaired

theorem reach_of_unbounded (hmin : s.minInstances = none) (hmax : s.maxInstances = none)
    (count : UInt32) : s.reach count = count := by
  simp [reach, nearest, hmin, hmax]

theorem reach_of_bounded {min max : UInt32} (he : s.enabled) (hmin : s.minInstances = some min)
    (hmax : s.maxInstances = some max) (count : UInt32) :
    s.reach count = if count < min then min else if max < count then max else count := by
  simp [reach, nearest, he, hmin, hmax]

/-- The nearest count is no less than one that is within the upper bound and no more than asked for, nor
than one that the lower bound is no less than. -/
theorem le_nearest_iff (h : ∀ min ∈ s.minInstances, ∀ max ∈ s.maxInstances, min ≤ max)
    (n count : UInt32) : n ≤ s.nearest count ↔
      n ≤ count ∧ (∀ max ∈ s.maxInstances, n ≤ max) ∨ ∃ min ∈ s.minInstances, n ≤ min := by
  unfold nearest
  split <;> rename_i hmin hmax <;> simp only [hmin, hmax, Option.mem_def] at h ⊢ <;> grind

theorem nearest_le (h : ∀ min ∈ s.minInstances, ∀ max ∈ s.maxInstances, min ≤ max) (count : UInt32) :
    ∀ max ∈ s.maxInstances, s.nearest count ≤ max := by
  unfold nearest
  split <;> rename_i hmin hmax <;> simp only [hmin, hmax, Option.mem_def] at h ⊢ <;> grind
end Scaling

namespace Application

/-- The application with another count. It was stored at some time since, and its routes may be pending
no longer. -/
structure Recounts (a : Application) (count : UInt32) (b : Application) : Prop where
  same : b = { a with instances := count, routesPending := b.routesPending, updatedAt := b.updatedAt }
  pending : b.routesPending = a.routesPending ∨ a.routesPending

variable {a b c : Application} {count next : UInt32}

theorem Recounts.refl (a : Application) : a.Recounts a.instances a := ⟨rfl, .inl rfl⟩

theorem Recounts.trans (h : a.Recounts count b) (h' : b.Recounts next c) : a.Recounts next c := by
  refine ⟨by rw [h'.same, h.same], ?_⟩
  rcases h'.pending with hkept | hpending
  · rw [hkept]
    exact h.pending
  · rcases h.pending with hkept | hpending'
    · exact .inr (hkept ▸ hpending)
    · exact .inr hpending'

theorem Recounts.id (h : a.Recounts count b) : b.id = a.id := by rw [h.same]

theorem Recounts.scaling (h : a.Recounts count b) : b.scaling = a.scaling := by rw [h.same]

theorem Recounts.instances (h : a.Recounts count b) : b.instances = count := by rw [h.same]

theorem Recounts.lawful (h : a.Recounts count b) (ha : { a with instances := count }.Lawful) :
    b.Lawful := by
  rw [h.same]
  exact ha.of_routes a.routes b.routesPending b.updatedAt

theorem assign_ofInstances (a : Application) (count : UInt32) :
    a.assign (.ofInstances count) = { a with instances := count } := by
  simp [assign, assignPackage, assignRoutes, Update.ofInstances, Update.empty, Scaling.assign]

theorem Lawful.reach_between (ha : a.Lawful) (count : UInt32) :
    min a.instances count ≤ a.scaling.reach count ∧ a.scaling.reach count ≤ max a.instances count := by
  simp only [UInt32.le_iff_toNat_le, UInt32.toNat_max, UInt32.toNat_min]
  by_cases he : a.scaling.enabled
  · rcases ha.scaling.none_or_both with ⟨hmin, hmax⟩ | ⟨min, max, hmin, hmax⟩
    · rw [Scaling.reach_of_unbounded hmin hmax]
      omega
    · obtain ⟨hlow, hhigh⟩ := ha.within he min hmin max hmax
      rw [Scaling.reach_of_bounded he hmin hmax]
      simp only [UInt32.le_iff_toNat_le, UInt32.lt_iff_toNat_lt] at hlow hhigh ⊢
      split
      · omega
      · split <;> omega
  · simp only [Scaling.reach, he, Bool.false_eq_true, if_false]
    omega

theorem Lawful.reach_instances (ha : a.Lawful) : a.scaling.reach a.instances = a.instances := by
  obtain ⟨hlow, hhigh⟩ := ha.reach_between a.instances
  simp only [UInt32.le_iff_toNat_le, UInt32.toNat_max, UInt32.toNat_min, ← UInt32.toNat_inj] at *
  omega

/-- Upwards, all is reached that is not above the upper bound. -/
theorem Lawful.reach_eq (ha : a.Lawful) (hle : a.instances ≤ count)
    (hmax : ∀ max ∈ a.scaling.maxInstances, count ≤ max) : a.scaling.reach count = count := by
  by_cases he : a.scaling.enabled
  · rcases ha.scaling.none_or_both with ⟨hmin, hmax⟩ | ⟨min, max, hmin, hmax'⟩
    · exact Scaling.reach_of_unbounded hmin hmax count
    · have hlow := UInt32.le_trans (ha.within he min hmin max hmax').1 hle
      rw [Scaling.reach_of_bounded he hmin hmax', if_neg (UInt32.not_lt.2 hlow),
        if_neg (UInt32.not_lt.2 (hmax max hmax'))]
  · simp [Scaling.reach, he]

theorem clamp_ofInstances (ha : a.Lawful) (count : UInt32) :
    clamp a { a with instances := count } = { a with instances := a.scaling.reach count } := by
  by_cases hsame : count = a.instances
  · subst hsame
    simp [clamp, ha.reach_instances]
  · by_cases he : a.scaling.enabled <;> simp [clamp, Scaling.reach, he, hsame]

/-- Another count alone is never rejected, and opens no generation. -/
theorem apply_ofInstances (ha : a.Lawful) (count : UInt32) :
    a.apply (.ofInstances count) = .ok { a with instances := a.scaling.reach count } := by
  obtain ⟨hcpu, hbounds⟩ := a.scaling.passes_iff.1 ha.scaling.passes
  refine (settle_ok_iff _ _ _ _).2 ?_
  rw [assign_ofInstances]
  refine ⟨hcpu, a.scaling, hbounds, ?_⟩
  rw [clamp_ofInstances ha]
  exact renew_quiet (not_opensGeneration_of_same rfl rfl rfl rfl)

theorem Lawful.ofInstances (ha : a.Lawful) (count : UInt32) :
    { a with instances := a.scaling.reach count }.Lawful :=
  apply_lawful ha (apply_ofInstances ha count)

theorem not_opensGeneration_ofInstances (a : Application) (count : UInt32) :
    ¬ opensGeneration a (clamp a { a with instances := count }) := by
  rw [opensGeneration_clamp]
  exact not_opensGeneration_of_same rfl rfl rfl rfl

theorem apply_ofInstances_ne_overflow (a : Application) (count : UInt32) :
    a.apply (.ofInstances count) ≠ .error .overflow := by
  intro h
  rw [apply, assign_ofInstances] at h
  exact not_opensGeneration_of_same rfl rfl rfl rfl (settle_overflow h).1

/-- An accepted change of the count alone moves it within bounds that are in order. -/
theorem eq_clamp_of_apply (h : a.apply (.ofInstances count) = .ok b) :
    (∀ min ∈ a.scaling.minInstances, ∀ max ∈ a.scaling.maxInstances, min ≤ max) ∧
      b = clamp a { a with instances := count } := by
  obtain ⟨-, s, hs, hb⟩ := (settle_ok_iff _ _ _ _).1 h
  obtain ⟨rfl, -, -, hord⟩ := (Scaling.reconcile_ok_iff _ _ _).1 hs
  rw [assign_ofInstances] at hb hord
  have hkept : a.scaling.completeBounds (Update.ofInstances count).boundEdits = a.scaling :=
    Scaling.completeBounds_neither _
  simp only [hkept] at hb hord
  rw [renew_quiet (not_opensGeneration_ofInstances a count)] at hb
  exact ⟨hord, (Except.ok.inj hb).symm⟩

theorem apply_ofInstances_frame (h : a.apply (.ofInstances count) = .ok b) :
    b = { a with instances := b.instances } := by
  rw [(eq_clamp_of_apply h).2]
  exact clamp_frame _ _

/-- What an accepted change of the count alone makes of it, whatever it was before. -/
theorem count_of_apply (h : a.apply (.ofInstances count) = .ok b) :
    (∀ min ∈ a.scaling.minInstances, ∀ max ∈ a.scaling.maxInstances, min ≤ max) ∧
      b.scaling = a.scaling ∧
      (count = a.instances ∧ b.instances = a.instances ∨
        count ≠ a.instances ∧ b.instances = a.scaling.reach count) := by
  obtain ⟨hord, rfl⟩ := eq_clamp_of_apply h
  refine ⟨hord, by rw [clamp_frame], ?_⟩
  by_cases hsame : count = a.instances
  · refine .inl ⟨hsame, ?_⟩
    subst hsame
    simp [clamp]
  · refine .inr ⟨hsame, ?_⟩
    by_cases he : a.scaling.enabled <;> simp [clamp, Scaling.reach, he, hsame]

/-- It is the bounds alone that may have a change of the count rejected. -/
theorem apply_ofInstances_iff : (∃ b, a.apply (.ofInstances count) = .ok b) ↔ a.scaling.passes := by
  constructor
  · rintro ⟨b, hb⟩
    exact (count_of_apply hb).2.1 ▸ apply_passes hb
  · intro hpasses
    obtain ⟨hcpu, hbounds⟩ := a.scaling.passes_iff.1 hpasses
    refine ⟨clamp a { a with instances := count }, (settle_ok_iff _ _ _ _).2 ?_⟩
    rw [assign_ofInstances]
    exact ⟨hcpu, a.scaling, hbounds, renew_quiet (not_opensGeneration_ofInstances a count)⟩

/-- A change of the count to this one does not lower it: autoscaling keeps it at the lower bound, or
it is asked for no less, and nothing is above the upper bound that autoscaling would move. -/
def KeepsUp (a : Application) (count : UInt32) : Prop :=
  a.instances = count ∨
  a.instances < count ∧ (a.scaling.enabled → ∀ max ∈ a.scaling.maxInstances, a.instances ≤ max) ∨
  a.scaling.enabled ∧ ∃ min ∈ a.scaling.minInstances, a.instances ≤ min

theorem keepsUp_iff (h : a.apply (.ofInstances count) = .ok b) :
    a.instances ≤ b.instances ↔ a.KeepsUp count := by
  obtain ⟨hord, -, ⟨rfl, hb⟩ | ⟨hne, hb⟩⟩ := count_of_apply h
  · simp [KeepsUp, hb]
  · have hlt : a.instances < count ↔ a.instances ≤ count := by
      rw [UInt32.lt_iff_toNat_lt, UInt32.le_iff_toNat_le]
      have := mt UInt32.toNat_inj.1 hne
      omega
    rw [hb, Scaling.reach, KeepsUp, hlt]
    by_cases he : a.scaling.enabled
    · simp [he, Scaling.le_nearest_iff hord, Ne.symm hne]
    · simp [he, Ne.symm hne]

/-- While autoscaling is on, no change of the count alone raises it above the upper bound. -/
theorem within_of_raised (h : a.apply (.ofInstances count) = .ok b) (he : a.scaling.enabled)
    (hup : a.instances < b.instances) : ∀ max ∈ a.scaling.maxInstances, b.instances ≤ max := by
  obtain ⟨hord, -, ⟨-, hb⟩ | ⟨-, hb⟩⟩ := count_of_apply h
  · rw [hb] at hup
    exact absurd hup (UInt32.lt_irrefl _)
  · rw [hb, Scaling.reach, if_pos he]
    exact Scaling.nearest_le hord count

end Application

end AppFleet
