import AppFleet.Proofs.Activity.Course

/-! What an activity makes of the world while nobody else acts. The clocks go on as they like, back too,
from one step to the next; and while the activity waits, what travels on the bus is up to others. -/

namespace AppFleet

namespace World

def Later (w w' : World) : Prop :=
  w' = { w with clock := w'.clock, wallClock := w'.wallClock, horizon := w'.horizon }

/-- These steps lead from one world to the other, with nobody in between. -/
def LeftAlone : World → List Step → World → Prop
  | w, [], w' => w' = w
  | w, .act found action :: rest, w' => w.Later found ∧ (found.perform action).2.LeftAlone rest w'
  | w, .ask found _ _ :: rest, w' | w, .lost found _ :: rest, w' =>
    w.Later found ∧ ∃ link, { found with link }.LeftAlone rest w'
  | w, .pause _ :: rest, w' => w.LeftAlone rest w'
  | w, .survey found _ _ _ :: rest, w' => w.Later found ∧ ∃ ledger link,
      { found with store := { found.store with ledger }, link }.LeftAlone rest w'

variable {w w' w'' : World} {steps rest : List Step}

theorem Later.refl (w : World) : w.Later w := rfl

theorem Later.trans (h : w.Later w') (h' : w'.Later w'') : w.Later w'' := by
  unfold Later at h h' ⊢
  rw [h', h]

theorem Later.store (h : w.Later w') : w'.store = w.store := by rw [h]

theorem Later.link (h : w.Later w') : w'.link = w.link := by rw [h]

theorem Later.scaleUps (h : w.Later w') : w'.scaleUps = w.scaleUps := by rw [h]

/-- Nothing that is done moves the clock. -/
theorem perform_clock (w : World) (action : Action) : (w.perform action).2.clock = w.clock := by
  cases action <;> rfl

theorem leftAlone_append :
    w.LeftAlone (steps ++ rest) w' ↔ ∃ m, w.LeftAlone steps m ∧ m.LeftAlone rest w' := by
  induction steps generalizing w with
  | nil => simp [LeftAlone]
  | cons s steps ih =>
    cases s with
    | act found action => simp [LeftAlone, ih, and_assoc]
    | pause ms => simp [LeftAlone, ih]
    | ask found r replies | lost found r =>
      simp only [List.cons_append, LeftAlone, ih]
      grind
    | survey found records timeoutMs report =>
      simp only [List.cons_append, LeftAlone, ih]
      grind

end World

namespace Activity

/-- Left alone, the activity leads from one world to the other by these steps, and ends with this
result. -/
structure Leads (x : Activity α) (w : World) (steps : List Step) (b : α) (w' : World) : Prop where
  goes : x.Goes steps b
  alone : w.LeftAlone steps w'

variable {w w' : World} {steps : List Step}

@[simp] theorem leads_pure (a b : α) :
    (pure a : Activity α).Leads w steps b w' ↔ steps = [] ∧ b = a ∧ w' = w := by
  constructor
  · rintro ⟨⟨rfl, rfl⟩, rfl⟩
    exact ⟨rfl, rfl, rfl⟩
  · rintro ⟨rfl, rfl, rfl⟩
    exact ⟨⟨rfl, rfl⟩, rfl⟩

theorem leads_bind (x : Activity α) (f : α → Activity β) (b : β) : (x >>= f).Leads w steps b w' ↔
    ∃ own rest a m, steps = own ++ rest ∧ x.Leads w own a m ∧ (f a).Leads m rest b w' := by
  constructor
  · rintro ⟨hgoes, halone⟩
    obtain ⟨own, rest, a, rfl, hown, hrest⟩ := (goes_bind _ _ _).1 hgoes
    obtain ⟨m, hm, hm'⟩ := World.leftAlone_append.1 halone
    exact ⟨own, rest, a, m, rfl, ⟨hown, hm⟩, hrest, hm'⟩
  · rintro ⟨own, rest, a, m, rfl, ⟨hown, hm⟩, hrest, hm'⟩
    exact ⟨(goes_bind _ _ _).2 ⟨own, rest, a, rfl, hown, hrest⟩, World.leftAlone_append.2 ⟨m, hm, hm'⟩⟩

theorem leads_perform (action : Action) (answer : action.Answer) :
    (perform action).Leads w steps answer w' ↔ ∃ found, w.Later found ∧ steps = [.act found action] ∧
      answer = (found.perform action).1 ∧ w' = (found.perform action).2 := by
  constructor
  · rintro ⟨hgoes, halone⟩
    obtain ⟨found, rfl, rfl⟩ := (goes_perform _ _).1 hgoes
    exact ⟨found, halone.1, rfl, rfl, halone.2⟩
  · rintro ⟨found, hfound, rfl, rfl, rfl⟩
    exact ⟨(goes_perform _ _).2 ⟨found, rfl, rfl⟩, hfound, rfl⟩

theorem leads_changeApp {app : AppId} {change : Application → Except Fault Application}
    (answer : Except Rejection (Option Diff)) : (changeApp app change).Leads w steps answer w' ↔
      ∃ found, w.Later found ∧ steps = [.act found (.changeApp app change)] ∧
        (found.perform (.changeApp app change)).1 = answer.mapError .rejected ∧
        w' = (found.perform (.changeApp app change)).2 := by
  constructor
  · rintro ⟨hgoes, halone⟩
    obtain ⟨found, rfl, hchanged⟩ := (goes_changeApp answer).1 hgoes
    exact ⟨found, halone.1, rfl, hchanged, halone.2⟩
  · rintro ⟨found, hfound, rfl, hchanged, rfl⟩
    exact ⟨(goes_changeApp answer).2 ⟨found, rfl, hchanged⟩, hfound, rfl⟩

theorem leads_bind_pure (x : Activity α) (f : α → β) (b : β) :
    (x >>= fun a => pure (f a)).Leads w steps b w' ↔ ∃ a, x.Leads w steps a w' ∧ b = f a := by
  constructor
  · rintro ⟨hgoes, halone⟩
    obtain ⟨a, h, rfl⟩ := (goes_bind_pure _ _ _).1 hgoes
    exact ⟨a, ⟨h, halone⟩, rfl⟩
  · rintro ⟨a, ⟨h, halone⟩, rfl⟩
    exact ⟨(goes_bind_pure _ _ _).2 ⟨a, h, rfl⟩, halone⟩

/-- The course of an activity that is left alone while the clocks stand still and nobody answers: its
steps, its result unless it panics, and the world that it leads to. -/
def alone : Activity α → World → List Step × Option α × World
  | .done a, w => ([], some a, w)
  | .panic, w => ([], none, w)
  | .act action next, w =>
    let course := (next (w.perform action).1).alone (w.perform action).2
    (.act w action :: course.1, course.2)
  | .request r next, w =>
    if w.Awaits r then
      let course := (next (.ok [])).alone w
      (.ask w r (.ok []) :: course.1, course.2)
    else ([.lost w r], none, w)
  | .sleep ms next, w =>
    let course := next.alone w
    (.pause ms :: course.1, course.2)
  | .survey records timeoutMs next, w =>
    let course := (next ⟨0, 0⟩).alone w
    (.survey w records timeoutMs ⟨0, 0⟩ :: course.1, course.2)

theorem ends_alone (x : Activity α) (w : World) :
    x.Ends (x.alone w).1 (x.alone w).2.1 ∧ w.LeftAlone (x.alone w).1 (x.alone w).2.2 := by
  induction x generalizing w with
  | done a => exact ⟨⟨rfl, rfl⟩, rfl⟩
  | panic => exact ⟨rfl, rfl⟩
  | act action next ih =>
    obtain ⟨hends, halone⟩ := ih (w.perform action).1 (w.perform action).2
    exact ⟨hends.act, .refl w, halone⟩
  | request r next ih =>
    by_cases hawaits : w.Awaits r
    · obtain ⟨hends, halone⟩ := ih (.ok []) w
      simp only [alone, hawaits, if_true]
      exact ⟨hends.ask hawaits, .refl w, w.link, halone⟩
    · simp only [alone, hawaits, if_false]
      exact ⟨ends_lost hawaits, .refl w, w.link, rfl⟩
  | sleep ms next ih =>
    obtain ⟨hends, halone⟩ := ih w
    exact ⟨hends.pause, halone⟩
  | survey records timeoutMs next ih =>
    obtain ⟨hends, halone⟩ := ih ⟨0, 0⟩ w
    exact ⟨hends.survey, .refl w, w.store.ledger, w.link, halone⟩

theorem Steady.leads_alone {x : Activity α} (h : x.Steady) (w : World) :
    ∃ b, (x.alone w).2.1 = some b ∧ x.Leads w (x.alone w).1 b (x.alone w).2.2 := by
  obtain ⟨hends, halone⟩ := x.ends_alone w
  cases hresult : (x.alone w).2.1 with
  | none =>
    rw [hresult] at hends
    exact absurd hends (h _)
  | some b =>
    rw [hresult] at hends
    exact ⟨b, rfl, hends, halone⟩

theorem clock_of_mem_alone {x : Activity α} {w found : World} {action : Action}
    (h : .act found action ∈ (x.alone w).1) : found.clock = w.clock := by
  induction x generalizing w with
  | done a | panic => simp [alone] at h
  | act action next ih =>
    rcases List.mem_cons.1 h with heq | hrest
    · cases heq
      rfl
    · rw [ih _ hrest, World.perform_clock]
  | request r next ih =>
    simp only [alone] at h
    split at h
    · exact ih _ (List.mem_of_ne_of_mem (by simp) h)
    · simp at h
  | survey records timeoutMs next ih => exact ih _ (List.mem_of_ne_of_mem (by simp) h)
  | sleep ms next ih => exact ih (List.mem_of_ne_of_mem (by simp) h)

/-- Left alone, an activity that never panics comes to its end. -/
theorem Steady.exists_leads {x : Activity α} (h : x.Steady) (w : World) :
    ∃ steps b w', x.Leads w steps b w' := by
  obtain ⟨b, -, hleads⟩ := h.leads_alone w
  exact ⟨_, b, _, hleads⟩

end Activity

end AppFleet
