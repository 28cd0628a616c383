import AppFleet.Proofs.Dispatch.Recount
import AppFleet.Proofs.Fleet.Lawful

/-! Adjusting the desired count. An adjustment brings a lawful application to the count nearest to the
requested one, unless that is against its direction. Upwards that is the greater of two counts, so it
does not matter how often and in what order upward adjustments are delivered. -/

namespace AppFleet

namespace AdjustInstances

/-- The count that an adjustment brings about. -/
def result (c : AdjustInstances) (s : Scaling) (count : UInt32) : UInt32 :=
  if c.before < c.after then max count (s.reach c.after)
  else if c.after < c.before then min count (s.reach c.after)
  else count

/-- A count moves in the requested direction or not at all, and not beyond the requested one. -/
structure Moves (c : AdjustInstances) (old new : UInt32) : Prop where
  up : c.before < c.after → old ≤ new ∧ new ≤ max old c.after
  down : c.after < c.before → min old c.after ≤ new ∧ new ≤ old
  level : c.before = c.after → new = old

variable {c : AdjustInstances} {a : Application} {s : Scaling} {count : UInt32}

theorem result_moves (ha : a.Lawful) : c.Moves a.instances (c.result a.scaling a.instances) := by
  obtain ⟨hlow, hhigh⟩ := ha.reach_between c.after
  unfold result
  constructor <;> intro h <;> split_ifs <;>
    simp only [UInt32.le_iff_toNat_le, UInt32.lt_iff_toNat_lt, UInt32.toNat_max, UInt32.toNat_min,
      ← UInt32.toNat_inj] at * <;> omega

def results (l : List AdjustInstances) (s : Scaling) (count : UInt32) : UInt32 :=
  l.foldl (fun count c => c.result s count) count

/-- Upwards it is the least count that none of them exceeds. -/
theorem results_le_iff {l : List AdjustInstances} (hup : ∀ c ∈ l, c.before < c.after)
    (count bound : UInt32) :
    results l s count ≤ bound ↔ count ≤ bound ∧ ∀ c ∈ l, s.reach c.after ≤ bound := by
  induction l generalizing count with
  | nil => simp [results]
  | cons c rest ih =>
    have hstep : results (c :: rest) s count = results rest s (max count (s.reach c.after)) := by
      simp [results, result, hup c]
    have hmax : max count (s.reach c.after) ≤ bound ↔ count ≤ bound ∧ s.reach c.after ≤ bound := by
      simp only [UInt32.le_iff_toNat_le, UInt32.toNat_max]
      omega
    rw [hstep, ih fun c hc => hup c (List.mem_cons_of_mem _ hc), hmax, List.forall_mem_cons, and_assoc]

theorem results_congr {l l' : List AdjustInstances} (hup : ∀ c ∈ l, c.before < c.after)
    (hsame : ∀ c, c ∈ l' ↔ c ∈ l) (count : UInt32) : results l' s count = results l s count := by
  have hup' : ∀ c ∈ l', c.before < c.after := fun c hc => hup c ((hsame c).1 hc)
  have hle : ∀ bound, results l' s count ≤ bound ↔ results l s count ≤ bound := by
    intro bound
    simp only [results_le_iff hup, results_le_iff hup', hsame]
  exact UInt32.le_antisymm ((hle _).2 (UInt32.le_refl _)) ((hle _).1 (UInt32.le_refl _))

/-- Once it was brought about, it is not changed again. -/
theorem result_result (c : AdjustInstances) (s : Scaling) (count : UInt32) :
    c.result s (c.result s count) = c.result s count := by
  unfold result
  split_ifs <;> simp only [UInt32.toNat_max, UInt32.toNat_min, ← UInt32.toNat_inj] <;> omega

end AdjustInstances

namespace Respondent

open Activity

variable {config : StagingConfig} {counts : AdjustInstances} {a : Application} {w w' : World}
  {steps : List Step} {outcome : Except ReactionError AdjustOutcome}

theorem adjusted_eq (ha : a.Lawful) : adjusted counts a =
    .ok { a with instances := counts.result a.scaling a.instances } := by
  have hresult : counts.result a.scaling a.instances =
      if isSatisfied counts a.instances then a.instances else a.scaling.reach counts.after := by
    obtain ⟨hlow, hhigh⟩ := ha.reach_between counts.after
    unfold AdjustInstances.result
    simp only [isSatisfied, Bool.or_eq_true, Bool.and_eq_true, decide_eq_true_eq]
    split_ifs <;>
      simp only [UInt32.le_iff_toNat_le, UInt32.lt_iff_toNat_lt, UInt32.toNat_max, UInt32.toNat_min,
        ← UInt32.toNat_inj] at * <;> omega
  rw [hresult, adjusted]
  split
  · rfl
  · exact Application.apply_ofInstances ha counts.after

theorem adjusted_frame {b : Application} (h : adjusted counts a = .ok b) :
    b = { a with instances := b.instances } := by
  unfold adjusted at h
  split at h
  · cases h
    rfl
  · exact Application.apply_ofInstances_frame h

theorem steady_adjust (app : AppId) : (adjust config app counts).Steady := by
  refine Dispatch.steady_recount config (fun a h => ?_) (fun a b => adjusted_frame)
    (fun r => steady_pure _) (steady_pure _) fun diff hobserve => ?_
  · unfold adjusted at h
    split at h
    · cases h
    · exact Application.apply_ofInstances_ne_overflow a _ h
  · dsimp only
    split
    · split
      · split
        · exact hobserve.bind fun _ _ _ => steady_pure _
        · exact steady_pure _
      · exact steady_pure _
    · exact steady_pure _

/-- An application that is as it should be is left alone; any other is stored with the count, and of
others nothing is stored. -/
theorem adjust_leads (hstored : w.store.apps.get? a.id = some a) (ha : a.Lawful)
    (h : (adjust config a.id counts).Leads w steps outcome w') :
    (counts.result a.scaling a.instances = a.instances ∧ outcome = .ok .alreadySatisfied ∧
      w.Later w') ∨
    (counts.result a.scaling a.instances ≠ a.instances ∧
      outcome = .ok (.updated (counts.result a.scaling a.instances)) ∧
      (∃ b, w'.store.apps.get? a.id = some b ∧
        a.Recounts (counts.result a.scaling a.instances) b) ∧
      ∀ id, id ≠ a.id → w'.store.apps.get? id = w.store.apps.get? id) := by
  generalize hn : counts.result a.scaling a.instances = n
  have hmade : adjusted counts a = .ok { a with instances := n } := by rw [adjusted_eq ha, hn]
  obtain ⟨own, rest, answer, m, rfl, hown, hrest⟩ := (leads_bind _ _ _).1 h
  by_cases hsame : n = a.instances
  · subst hsame
    obtain ⟨found, hfound, -, hanswer, rfl⟩ := (leads_changeApp _).1 hown
    have hstored' : found.store.apps.get? a.id = some a := by rw [hfound.store]; exact hstored
    have hkept : found.store.changeApp found.wallClock a.id (adjusted counts) =
        (.ok (some (.updated a a)), found.store) := by
      simp [Store.changeApp, hstored', hmade]
    simp only [World.perform, hkept] at hanswer hrest
    cases answer <;> cases hanswer
    simp only [Diff.updated, Diff.instancesChanged, Diff.differs, ne_eq, not_true_eq_false,
      decide_false, Bool.false_eq_true, if_false] at hrest
    obtain ⟨-, rfl, rfl⟩ := (leads_pure _ _).1 hrest
    exact .inl ⟨rfl, rfl, hfound⟩
  · obtain ⟨found, -, -, rfl, hputs⟩ := leads_recount hstored hmade hsame hown
    have hdiffers : a.instances ≠ n := Ne.symm hsame
    simp only [Diff.updated, Diff.instancesChanged, Diff.differs, Application.recounted, ne_eq,
      hdiffers, not_false_eq_true, decide_true, if_true] at hrest
    refine .inr ⟨hsame, ?_⟩
    split at hrest
    · obtain ⟨reaction, hobserved, rfl⟩ := (leads_bind_pure _ _ _).1 hrest
      have hagain := Dispatch.observe_recounted hsame hputs.self hobserved
      exact ⟨rfl, hagain.recounts, fun id hid => (hagain.others id hid).trans (hputs.others id hid)⟩
    · obtain ⟨-, rfl, rfl⟩ := (leads_pure _ _).1 hrest
      exact ⟨rfl, ⟨_, hputs.self, rfl, .inl rfl⟩, hputs.others⟩

theorem adjust_recounts (hstored : w.store.apps.get? a.id = some a) (ha : a.Lawful)
    (h : (adjust config a.id counts).Leads w steps outcome w') :
    ∃ b, w'.store.apps.get? a.id = some b ∧ b.Lawful ∧
      a.Recounts (counts.result a.scaling a.instances) b := by
  have hadjusted : adjusted counts a = _ := adjusted_eq ha
  have hlawful := adjusted_lawful ha hadjusted
  rcases adjust_leads hstored ha h with ⟨hsame, -, hlater⟩ | ⟨-, -, ⟨b, hb, hcounts⟩, -⟩
  · refine ⟨a, by rw [hlater.store]; exact hstored, ha, ?_⟩
    rw [hsame]
    exact .refl a
  · exact ⟨b, hb, hcounts.lawful hlawful, hcounts⟩

/-- These adjustments are delivered one after the other. Each finds the application as the one before
left it, whatever else was done in between. -/
def Delivered (config : StagingConfig) (app : AppId) : List AdjustInstances → World → World → Prop
  | [], w, w' => w'.store.apps.get? app = w.store.apps.get? app
  | counts :: rest, w, w' => ∃ found steps outcome m,
      found.store.apps.get? app = w.store.apps.get? app ∧
        (adjust config app counts).Leads found steps outcome m ∧ Delivered config app rest m w'

theorem exists_delivered (config : StagingConfig) (app : AppId) (l : List AdjustInstances) (w : World) :
    ∃ w', Delivered config app l w w' := by
  induction l generalizing w with
  | nil => exact ⟨w, rfl⟩
  | cons counts rest ih =>
    obtain ⟨steps, outcome, m, hleads⟩ := (steady_adjust app).exists_leads w
    obtain ⟨w', hrest⟩ := ih m
    exact ⟨w', w, steps, outcome, m, rfl, hleads, hrest⟩

theorem delivered_recounts {l : List AdjustInstances} (hstored : w.store.apps.get? a.id = some a)
    (ha : a.Lawful) (h : Delivered config a.id l w w') :
    ∃ b, w'.store.apps.get? a.id = some b ∧
      a.Recounts (AdjustInstances.results l a.scaling a.instances) b := by
  induction l generalizing a w with
  | nil => exact ⟨a, h.trans hstored, .refl a⟩
  | cons counts rest ih =>
    obtain ⟨found, steps, outcome, m, hfound, hleads, hrest⟩ := h
    obtain ⟨b, hb, hlawful, hcounts⟩ := adjust_recounts (hfound.trans hstored) ha hleads
    rw [← hcounts.id] at hb hrest
    obtain ⟨c, hc, hrecounts⟩ := ih hb hlawful hrest
    rw [hcounts.id] at hc
    rw [hcounts.scaling, hcounts.instances] at hrecounts
    exact ⟨c, hc, hcounts.trans hrecounts⟩

/-- An adjustment moves the count in the requested direction and not beyond the requested one, touches
nothing else but pending routes, and does nothing when it is delivered again. It never panics. Upward
adjustments lead to the same count in any order and however often each is delivered. -/
theorem adjust_converges (config : StagingConfig) (hstored : w.store.apps.get? a.id = some a)
    (ha : a.Lawful) :
    (∀ counts, (adjust config a.id counts).Steady ∧
      (∃ steps outcome w', (adjust config a.id counts).Leads w steps outcome w') ∧
      ∀ steps outcome w', (adjust config a.id counts).Leads w steps outcome w' →
        ∃ b, w'.store.apps.get? a.id = some b ∧ counts.Moves a.instances b.instances ∧
        a.Recounts b.instances b ∧
        (b.instances = a.instances → outcome = .ok .alreadySatisfied ∧ w.Later w') ∧
        (b.instances ≠ a.instances → outcome = .ok (.updated b.instances)) ∧
        (∀ id, id ≠ a.id → w'.store.apps.get? id = w.store.apps.get? id) ∧
        ∀ found again answer w'', found.store.apps.get? a.id = some b →
          (adjust config a.id counts).Leads found again answer w'' →
          answer = .ok .alreadySatisfied ∧ found.Later w'') ∧
    ∀ l : List AdjustInstances, (∀ counts ∈ l, counts.before < counts.after) →
      ∃ count, ∀ l' : List AdjustInstances, (∀ counts, counts ∈ l' ↔ counts ∈ l) →
        (∃ w', Delivered config a.id l' w w') ∧
        ∀ w', Delivered config a.id l' w w' →
          ∃ b, w'.store.apps.get? a.id = some b ∧ b.instances = count := by
  constructor
  · intro counts
    have hsteady : (adjust config a.id counts).Steady := steady_adjust a.id
    refine ⟨hsteady, hsteady.exists_leads w, fun steps outcome w' h => ?_⟩
    obtain ⟨b, hb, hlawful, hcounts⟩ := adjust_recounts hstored ha h
    have hinstances := hcounts.instances
    refine ⟨b, hb, ?_, ?_, ?_, ?_, ?_, ?_⟩
    · rw [hinstances]
      exact AdjustInstances.result_moves ha
    · rw [hinstances]
      exact hcounts
    · rcases adjust_leads hstored ha h with ⟨-, houtcome, hlater⟩ | ⟨hne, -, -⟩
      · exact fun _ => ⟨houtcome, hlater⟩
      · exact fun heq => absurd (hinstances.symm.trans heq) hne
    · rcases adjust_leads hstored ha h with ⟨hsame, -, -⟩ | ⟨-, houtcome, -⟩
      · exact fun hne => absurd (hinstances.trans hsame) hne
      · exact fun _ => by rw [hinstances, houtcome]
    · rcases adjust_leads hstored ha h with ⟨-, -, hlater⟩ | ⟨-, -, -, hothers⟩
      · exact fun id _ => by rw [hlater.store]
      · exact hothers
    · intro found again answer w'' hfound hagain
      have hdone : counts.result b.scaling b.instances = b.instances := by
        rw [hcounts.scaling, hinstances, AdjustInstances.result_result]
      rw [← hcounts.id] at hfound hagain
      rcases adjust_leads hfound hlawful hagain with ⟨-, hanswer, hlater⟩ | ⟨hne, -, -⟩
      · exact ⟨hanswer, hlater⟩
      · exact absurd hdone hne
  · intro l hup
    -- upward orders lead to a maximum, so that only which of them there are counts
    refine ⟨AdjustInstances.results l a.scaling a.instances, fun l' hsame => ?_⟩
    refine ⟨exists_delivered config a.id l' w, fun w' hdelivered => ?_⟩
    obtain ⟨b, hb, hcounts⟩ := delivered_recounts hstored ha hdelivered
    exact ⟨b, hb, by rw [hcounts.instances, AdjustInstances.results_congr hup hsame]⟩

/-- From two instances, an order to have nine leads to a count in between and is then satisfied. Orders
to have three and nine lead to one count, in either order, and also if one of them is repeated. -/
theorem adjust_converges_web :
    (Application.bounded 4).instances = 2 ∧ (Application.bounded 4).routesPending ∧
    (∃ steps outcome w', (adjust .default "web" ⟨2, 9⟩).Leads (.storing (.bounded 4)) steps outcome w' ∧
      ∃ b, w'.store.apps.get? "web" = some b ∧ 2 ≤ b.instances ∧ b.instances ≤ 9 ∧
        b.version = (Application.bounded 4).version ∧
        ∀ again answer w'', (adjust .default "web" ⟨2, 9⟩).Leads w' again answer w'' →
          answer = .ok .alreadySatisfied ∧ w'.Later w'') ∧
    ∃ count, ∀ l ∈ [[⟨1, 3⟩, ⟨2, 9⟩], [⟨2, 9⟩, ⟨1, 3⟩, ⟨2, 9⟩]], ∀ w',
      Delivered .default "web" l (.storing (.bounded 4)) w' →
        ∃ b, w'.store.apps.get? "web" = some b ∧ b.instances = count := by
  have hinstances : (Application.bounded 4).instances = 2 := by decide +kernel
  have hid : (Application.bounded 4).id = "web" := by decide +kernel
  have hstored : (World.storing (.bounded 4)).store.apps.get? (Application.bounded 4).id = some (.bounded 4) :=
    Table.get?_put_self _ _ _
  obtain ⟨hadjust, hdelivered⟩ :=
    adjust_converges .default hstored (Application.bounded_lawful 4)
  rw [hid] at hadjust hdelivered
  refine ⟨hinstances, by decide +kernel, ?_, ?_⟩
  · obtain ⟨-, ⟨steps, outcome, w', hleads⟩, hall⟩ := hadjust ⟨2, 9⟩
    obtain ⟨b, hb, hmoves, hcounts, -, -, -, hagain⟩ := hall steps outcome w' hleads
    obtain ⟨hlow, hhigh⟩ := hmoves.up (by decide)
    rw [hinstances] at hlow hhigh
    refine ⟨steps, outcome, w', hleads, b, hb, hlow, hhigh, by rw [hcounts.same], ?_⟩
    exact fun again answer w'' h => hagain w' again answer w'' hb h
  · obtain ⟨count, hcount⟩ := hdelivered [⟨1, 3⟩, ⟨2, 9⟩] (by decide)
    refine ⟨count, fun l hl w' h => (hcount l ?_).2 w' h⟩
    simp only [List.mem_cons, List.not_mem_nil, or_false] at hl
    rcases hl with rfl | rfl
    · exact fun _ => .rfl
    · intro counts
      simp only [List.mem_cons, List.not_mem_nil, or_false]
      tauto

end Respondent

end AppFleet
