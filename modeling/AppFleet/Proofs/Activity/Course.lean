import AppFleet.Simulation.Stage
import Mathlib.Tactic.Common

/-! The courses of an activity: what it does from its beginning to its end, each step with the world
that it found. Others may have been at the world since the step before, and answer what they like. A
course ends with a result or with a panic. -/

namespace AppFleet

inductive Step where
  | act (found : World) (action : Action)
  | ask (found : World) (r : Request) (replies : Replies)
  /-- A request is sent that nobody waits for any more. -/
  | lost (found : World) (r : Request)
  | pause (ms : Nat)
  | survey (found : World) (records : List LedgerRecord) (timeoutMs : UInt64) (report : SweepReport)

/-- The request is refused, or its deadline is within reach. -/
def World.Awaits (w : World) (r : Request) : Prop :=
  r.subject ∉ w.link.refused → r.timeoutMs ≤ w.horizon.ms

instance (w : World) (r : Request) : Decidable (w.Awaits r) := inferInstanceAs (Decidable (_ → _))

theorem World.awaits_of_toNat (w : World) {r : Request} {ms : UInt64} (h : r.timeoutMs = ms.toNat) :
    w.Awaits r := by
  intro _
  rw [h]
  exact w.horizon.reaches ms

/-- A request tells by its outcome whether its deadline could be shown. -/
theorem World.request_awaits {w : World} {now : Nat} {r : Request}
    {sent : Except BusError (Option Exchange)} (h : (w.request now r).1 = sent) :
    w.Awaits r ↔ sent ≠ .ok none := by
  subst h
  by_cases hrefused : r.subject ∈ w.link.refused
  · simp [Awaits, request, Link.request, hrefused]
  · by_cases hreach : r.timeoutMs ≤ w.horizon.ms <;>
      simp [Awaits, request, Link.request, Exchange.start, Exchange.ask, Exchange.await?, hrefused, hreach]

/-- The activity may go these steps, and end with this result. -/
def Activity.Goes : Activity α → List Step → α → Prop
  | .done a, steps, b => steps = [] ∧ b = a
  | .panic, _, _ => False
  | .act action next, steps, b => ∃ w rest, steps = .act w action :: rest ∧
      (next (w.perform action).1).Goes rest b
  | .request r next, steps, b => ∃ w replies rest, steps = .ask w r replies :: rest ∧ w.Awaits r ∧
      (next replies).Goes rest b
  | .sleep ms next, steps, b => ∃ rest, steps = .pause ms :: rest ∧ next.Goes rest b
  | .survey records timeoutMs next, steps, b => ∃ w report rest,
      steps = .survey w records timeoutMs report :: rest ∧ (next report).Goes rest b

def Activity.Panics : Activity α → List Step → Prop
  | .done _, _ => False
  | .panic, steps => steps = []
  | .act action next, steps => ∃ w rest, steps = .act w action :: rest ∧
      (next (w.perform action).1).Panics rest
  | .request r next, steps => (∃ w, steps = [.lost w r] ∧ ¬ w.Awaits r) ∨
      ∃ w replies rest, steps = .ask w r replies :: rest ∧ w.Awaits r ∧ (next replies).Panics rest
  | .sleep ms next, steps => ∃ rest, steps = .pause ms :: rest ∧ next.Panics rest
  | .survey records timeoutMs next, steps => ∃ w report rest,
      steps = .survey w records timeoutMs report :: rest ∧ (next report).Panics rest

/-- The activity may go these steps, and ends with this result, or without one by a panic. -/
def Activity.Ends (x : Activity α) (steps : List Step) : Option α → Prop
  | some b => x.Goes steps b
  | none => x.Panics steps

namespace Step

def finds (t : Table Application) : Step → Prop
  | act w _ | ask w _ _ | lost w _ | survey w _ _ _ => w.store.apps = t
  | pause _ => True

def leaves (t : Table Application) : Step → Table Application
  | act w action => (w.perform action).2.store.apps
  | _ => t

def KeepsStore : Step → Prop
  | act w action => (w.perform action).2.store = w.store
  | ask .. | lost .. | pause _ => True
  | survey .. => False

/-- The step sends this. -/
def Sends (subject : String) (payload : Json) : Step → Prop
  | act _ (.publish told content) => told = subject ∧ content = payload
  | ask _ r _ | lost _ r => r.subject = subject ∧ r.payload = payload
  | survey _ records timeoutMs _ => ∃ r ∈ records,
      (Ledger.query timeoutMs r).subject = subject ∧ (Ledger.query timeoutMs r).payload = payload
  | _ => False

end Step

/-- The stored applications after these steps. -/
def Table.after (t : Table Application) (steps : List Step) : Table Application :=
  steps.foldl Step.leaves t

/-- Nobody else changes the stored applications from the first step to the last. -/
def Table.Undisturbed : Table Application → List Step → Prop
  | _, [] => True
  | t, s :: rest => s.finds t ∧ (s.leaves t).Undisturbed rest

namespace Table

variable {t : Table Application} {steps rest : List Step}

@[simp] theorem after_nil : t.after [] = t := rfl

@[simp] theorem after_cons {s : Step} : t.after (s :: rest) = (s.leaves t).after rest := rfl

@[simp] theorem after_append : t.after (steps ++ rest) = (t.after steps).after rest :=
  List.foldl_append

@[simp] theorem undisturbed_nil : t.Undisturbed [] := trivial

@[simp] theorem undisturbed_cons {s : Step} :
    t.Undisturbed (s :: rest) ↔ s.finds t ∧ (s.leaves t).Undisturbed rest := Iff.rfl

theorem undisturbed_append :
    t.Undisturbed (steps ++ rest) ↔ t.Undisturbed steps ∧ (t.after steps).Undisturbed rest := by
  induction steps generalizing t with
  | nil => simp
  | cons s steps ih => simp [ih, and_assoc]

theorem undisturbed_still (h : ∀ s ∈ steps, s.leaves t = t) :
    t.after steps = t ∧ (t.Undisturbed steps ↔ ∀ s ∈ steps, s.finds t) := by
  induction steps with
  | nil => simp
  | cons s steps ih =>
    have hs := h s List.mem_cons_self
    obtain ⟨hafter, hiff⟩ := ih fun s hs => h s (List.mem_cons_of_mem _ hs)
    simp [hs, hafter, hiff]

/-- Steps that keep the store, with nobody else in between, all find the same. -/
theorem undisturbed_kept (h : ∀ s ∈ steps, s.KeepsStore) (hu : t.Undisturbed steps) :
    t.after steps = t ∧ ∀ s ∈ steps, s.finds t := by
  induction steps with
  | nil => simp
  | cons s steps ih =>
    have hleaves : s.leaves t = t := by
      have hkeeps := h s List.mem_cons_self
      have hfinds := hu.1
      cases s with
      | act w action => exact (congrArg Store.apps hkeeps).trans hfinds
      | ask w r replies | lost w r | pause ms => rfl
      | survey w records timeoutMs report => exact hkeeps.elim
    obtain ⟨hafter, hall⟩ := ih (fun s hs => h s (List.mem_cons_of_mem _ hs)) (hleaves ▸ hu.2)
    exact ⟨by rw [after_cons, hleaves, hafter], List.forall_mem_cons.2 ⟨hu.1, hall⟩⟩

end Table

def Fault.answered? : Except Fault α → Option (Except Rejection α)
  | .ok a => some (.ok a)
  | .error (.rejected r) => some (.error r)
  | .error .overflow => none

namespace Activity

variable {steps : List Step}

@[simp] theorem goes_pure (a b : α) : (pure a : Activity α).Goes steps b ↔ steps = [] ∧ b = a := Iff.rfl

theorem goes_bind (x : Activity α) (f : α → Activity β) (b : β) : (x >>= f).Goes steps b ↔
    ∃ own rest a, steps = own ++ rest ∧ x.Goes own a ∧ (f a).Goes rest b := by
  change (x.bind f).Goes steps b ↔ _
  induction x generalizing steps with
  | done a =>
    constructor
    · intro h
      exact ⟨[], steps, a, rfl, ⟨rfl, rfl⟩, h⟩
    · rintro ⟨own, rest, a, rfl, ⟨rfl, rfl⟩, h⟩
      exact h
  | panic => simp [Activity.bind, Goes]
  | act action next ih =>
    simp only [Activity.bind, Goes, ih]
    constructor
    · rintro ⟨w, _, rfl, own, rest, a, rfl, hown, hrest⟩
      exact ⟨_, rest, a, rfl, ⟨w, own, rfl, hown⟩, hrest⟩
    · rintro ⟨_, rest, a, rfl, ⟨w, own, rfl, hown⟩, hrest⟩
      exact ⟨w, _, rfl, own, rest, a, rfl, hown, hrest⟩
  | request r next ih =>
    simp only [Activity.bind, Goes, ih]
    constructor
    · rintro ⟨w, replies, _, rfl, hawaits, own, rest, a, rfl, hown, hrest⟩
      exact ⟨_, rest, a, rfl, ⟨w, replies, own, rfl, hawaits, hown⟩, hrest⟩
    · rintro ⟨_, rest, a, rfl, ⟨w, replies, own, rfl, hawaits, hown⟩, hrest⟩
      exact ⟨w, replies, _, rfl, hawaits, own, rest, a, rfl, hown, hrest⟩
  | sleep ms next ih =>
    simp only [Activity.bind, Goes, ih]
    constructor
    · rintro ⟨_, rfl, own, rest, a, rfl, hown, hrest⟩
      exact ⟨_, rest, a, rfl, ⟨own, rfl, hown⟩, hrest⟩
    · rintro ⟨_, rest, a, rfl, ⟨own, rfl, hown⟩, hrest⟩
      exact ⟨_, rfl, own, rest, a, rfl, hown, hrest⟩
  | survey records timeoutMs next ih =>
    simp only [Activity.bind, Goes, ih]
    constructor
    · rintro ⟨w, report, _, rfl, own, rest, a, rfl, hown, hrest⟩
      exact ⟨_, rest, a, rfl, ⟨w, report, own, rfl, hown⟩, hrest⟩
    · rintro ⟨_, rest, a, rfl, ⟨w, report, own, rfl, hown⟩, hrest⟩
      exact ⟨w, report, _, rfl, own, rest, a, rfl, hown, hrest⟩

theorem Goes.append {x : Activity α} {f : α → Activity β} {own rest : List Step} {a : α} {b : β}
    (h : x.Goes own a) (hrest : (f a).Goes rest b) : (x >>= f).Goes (own ++ rest) b :=
  (goes_bind x f b).2 ⟨own, rest, a, rfl, h, hrest⟩

/-- The first panics, or the second after what the first came to. -/
theorem panics_bind (x : Activity α) (f : α → Activity β) : (x >>= f).Panics steps ↔
    x.Panics steps ∨ ∃ own rest a, steps = own ++ rest ∧ x.Goes own a ∧ (f a).Panics rest := by
  change (x.bind f).Panics steps ↔ _
  induction x generalizing steps with
  | done a =>
    constructor
    · intro h
      exact .inr ⟨[], steps, a, rfl, ⟨rfl, rfl⟩, h⟩
    · rintro (⟨⟨⟩⟩ | ⟨own, rest, a, rfl, ⟨rfl, rfl⟩, h⟩)
      exact h
  | panic => simp [Activity.bind, Goes, Panics]
  | act action next ih =>
    simp only [Activity.bind, Goes, Panics, ih]
    constructor
    · rintro ⟨w, _, rfl, hown | ⟨own, rest, a, rfl, hown, hrest⟩⟩
      · exact .inl ⟨w, _, rfl, hown⟩
      · exact .inr ⟨_, rest, a, rfl, ⟨w, own, rfl, hown⟩, hrest⟩
    · rintro (⟨w, own, rfl, hown⟩ | ⟨_, rest, a, rfl, ⟨w, own, rfl, hown⟩, hrest⟩)
      · exact ⟨w, own, rfl, .inl hown⟩
      · exact ⟨w, _, rfl, .inr ⟨own, rest, a, rfl, hown, hrest⟩⟩
  | request r next ih =>
    simp only [Activity.bind, Goes, Panics, ih]
    constructor
    · rintro (hlost | ⟨w, replies, _, rfl, hawaits, hown | ⟨own, rest, a, rfl, hown, hrest⟩⟩)
      · exact .inl (.inl hlost)
      · exact .inl (.inr ⟨w, replies, _, rfl, hawaits, hown⟩)
      · exact .inr ⟨_, rest, a, rfl, ⟨w, replies, own, rfl, hawaits, hown⟩, hrest⟩
    · rintro ((hlost | ⟨w, replies, own, rfl, hawaits, hown⟩) |
        ⟨_, rest, a, rfl, ⟨w, replies, own, rfl, hawaits, hown⟩, hrest⟩)
      · exact .inl hlost
      · exact .inr ⟨w, replies, own, rfl, hawaits, .inl hown⟩
      · exact .inr ⟨w, replies, _, rfl, hawaits, .inr ⟨own, rest, a, rfl, hown, hrest⟩⟩
  | sleep ms next ih =>
    simp only [Activity.bind, Goes, Panics, ih]
    constructor
    · rintro ⟨_, rfl, hown | ⟨own, rest, a, rfl, hown, hrest⟩⟩
      · exact .inl ⟨_, rfl, hown⟩
      · exact .inr ⟨_, rest, a, rfl, ⟨own, rfl, hown⟩, hrest⟩
    · rintro (⟨own, rfl, hown⟩ | ⟨_, rest, a, rfl, ⟨own, rfl, hown⟩, hrest⟩)
      · exact ⟨own, rfl, .inl hown⟩
      · exact ⟨_, rfl, .inr ⟨own, rest, a, rfl, hown, hrest⟩⟩
  | survey records timeoutMs next ih =>
    simp only [Activity.bind, Goes, Panics, ih]
    constructor
    · rintro ⟨w, report, _, rfl, hown | ⟨own, rest, a, rfl, hown, hrest⟩⟩
      · exact .inl ⟨w, report, _, rfl, hown⟩
      · exact .inr ⟨_, rest, a, rfl, ⟨w, report, own, rfl, hown⟩, hrest⟩
    · rintro (⟨w, report, own, rfl, hown⟩ | ⟨_, rest, a, rfl, ⟨w, report, own, rfl, hown⟩, hrest⟩)
      · exact ⟨w, report, own, rfl, .inl hown⟩
      · exact ⟨w, report, _, rfl, .inr ⟨own, rest, a, rfl, hown, hrest⟩⟩

theorem not_panics_pure (a : α) : ¬ (pure a : Activity α).Panics steps := nofun

@[simp] theorem ends_some {x : Activity α} {a : α} : x.Ends steps (some a) ↔ x.Goes steps a := Iff.rfl

@[simp] theorem ends_none {x : Activity α} : x.Ends steps none ↔ x.Panics steps := Iff.rfl

@[simp] theorem ends_pure (a : α) (o : Option α) :
    (pure a : Activity α).Ends steps o ↔ steps = [] ∧ o = some a := by
  cases o with
  | none => simpa using not_panics_pure a
  | some b => simp

theorem ends_bind (x : Activity α) (f : α → Activity β) (o : Option β) : (x >>= f).Ends steps o ↔
    o = none ∧ x.Panics steps ∨
      ∃ own rest a, steps = own ++ rest ∧ x.Goes own a ∧ (f a).Ends rest o := by
  cases o with
  | none => simpa [Ends] using panics_bind x f
  | some b => simpa [Ends] using goes_bind x f b

/-- What only becomes of the answer goes no further step. -/
theorem goes_bind_pure (x : Activity α) (f : α → β) (b : β) :
    (x >>= fun a => pure (f a)).Goes steps b ↔ ∃ a, x.Goes steps a ∧ b = f a := by
  constructor
  · intro h
    obtain ⟨own, none, a, rfl, hown, rfl, rfl⟩ := (goes_bind _ _ _).1 h
    exact ⟨a, by simpa using hown, rfl⟩
  · rintro ⟨a, h, rfl⟩
    exact (goes_bind _ _ _).2 ⟨steps, [], a, by simp, h, rfl, rfl⟩

theorem ends_bind_pure (x : Activity α) (f : α → β) (o : Option β) :
    (x >>= fun a => pure (f a)).Ends steps o ↔ ∃ own, x.Ends steps own ∧ o = own.map f := by
  cases o with
  | none =>
    rw [ends_none, panics_bind]
    constructor
    · rintro (h | ⟨own, rest, a, -, -, hrest⟩)
      · exact ⟨none, h, rfl⟩
      · exact absurd hrest (not_panics_pure _)
    · rintro ⟨_ | a, h, ho⟩
      · exact .inl h
      · cases ho
  | some b =>
    rw [ends_some, goes_bind_pure]
    constructor
    · rintro ⟨a, h, rfl⟩
      exact ⟨some a, h, rfl⟩
    · rintro ⟨_ | a, h, ho⟩
      · cases ho
      · exact ⟨a, h, Option.some.inj ho⟩

theorem perform_bind_ends (action : Action) (f : action.Answer → Activity β) (o : Option β) :
    (perform action >>= f).Ends steps o ↔ ∃ w rest, steps = .act w action :: rest ∧
      (f (w.perform action).1).Ends rest o := by
  cases o <;> exact Iff.rfl

theorem goes_perform (action : Action) (answer : action.Answer) :
    (perform action).Goes steps answer ↔
      ∃ w, steps = [.act w action] ∧ answer = (w.perform action).1 := by
  constructor
  · rintro ⟨w, _, rfl, rfl, h⟩
    exact ⟨w, rfl, h⟩
  · rintro ⟨w, rfl, h⟩
    exact ⟨w, [], rfl, rfl, h⟩

theorem goes_ask (r : Request) (answer : Replies) :
    (ask r).Goes steps answer ↔ ∃ w, w.Awaits r ∧ steps = [.ask w r answer] := by
  constructor
  · rintro ⟨w, replies, _, rfl, hawaits, rfl, rfl⟩
    exact ⟨w, hawaits, rfl⟩
  · rintro ⟨w, hawaits, rfl⟩
    exact ⟨w, answer, [], rfl, hawaits, rfl, rfl⟩

theorem goes_pause (ms : Nat) (u : Unit) : (pause ms).Goes steps u ↔ steps = [.pause ms] := by
  constructor
  · rintro ⟨_, rfl, rfl, -⟩
    rfl
  · rintro rfl
    exact ⟨[], rfl, rfl, rfl⟩

theorem not_panics_perform (action : Action) : ¬ (perform action).Panics steps := by
  rintro ⟨w, rest, -, ⟨⟩⟩

theorem not_panics_pause (ms : Nat) : ¬ (pause ms).Panics steps := by
  rintro ⟨rest, -, ⟨⟩⟩

theorem panics_ask (r : Request) : (ask r).Panics steps ↔ ∃ w, steps = [.lost w r] ∧ ¬ w.Awaits r := by
  constructor
  · rintro (hlost | ⟨w, replies, rest, -, -, ⟨⟩⟩)
    exact hlost
  · exact .inl

section

variable {app : AppId} {change : Application → Except Fault Application}

/-- A change is answered, unless it overflows. -/
theorem goes_changeApp (answer : Except Rejection (Option Diff)) :
    (changeApp app change).Goes steps answer ↔ ∃ w, steps = [.act w (.changeApp app change)] ∧
      (w.perform (.changeApp app change)).1 = answer.mapError .rejected := by
  constructor
  · intro h
    obtain ⟨own, rest, changed, rfl, hown, hrest⟩ := (goes_bind _ _ _).1 h
    obtain ⟨w, rfl, rfl⟩ := (goes_perform _ _).1 hown
    split at hrest <;> rename_i heq
    · obtain ⟨rfl, rfl⟩ := hrest
      exact ⟨w, rfl, heq⟩
    · obtain ⟨rfl, rfl⟩ := hrest
      exact ⟨w, rfl, heq⟩
    · exact hrest.elim
  · rintro ⟨w, rfl, hchanged⟩
    refine (goes_bind _ _ _).2 ⟨_, [], _, rfl, (goes_perform _ _).2 ⟨w, rfl, rfl⟩, ?_⟩
    rw [hchanged]
    cases answer <;> exact ⟨rfl, rfl⟩

theorem panics_changeApp : (changeApp app change).Panics steps ↔
    ∃ w, steps = [.act w (.changeApp app change)] ∧
      (w.perform (.changeApp app change)).1 = .error .overflow := by
  constructor
  · intro h
    obtain ⟨own, rest, changed, rfl, hown, hrest⟩ :=
      ((panics_bind _ _).1 h).resolve_left (not_panics_perform _)
    obtain ⟨w, rfl, rfl⟩ := (goes_perform _ _).1 hown
    split at hrest <;> rename_i heq
    · exact hrest.elim
    · exact hrest.elim
    · obtain rfl := hrest
      exact ⟨w, rfl, heq⟩
  · rintro ⟨w, rfl, hchanged⟩
    refine (panics_bind _ _).2 (.inr ⟨_, [], _, rfl, (goes_perform _ _).2 ⟨w, rfl, rfl⟩, ?_⟩)
    rw [hchanged]
    exact rfl

theorem changeApp_bind_ends (f : Except Rejection (Option Diff) → Activity β) (o : Option β) :
    (changeApp app change >>= f).Ends steps o ↔ ∃ w rest,
      steps = .act w (.changeApp app change) :: rest ∧
        match Fault.answered? (w.perform (.changeApp app change)).1 with
        | none => o = none ∧ rest = []
        | some answer => (f answer).Ends rest o := by
  rw [ends_bind]
  constructor
  · rintro (⟨rfl, hpanics⟩ | ⟨own, rest, answer, rfl, hown, hrest⟩)
    · obtain ⟨w, rfl, hover⟩ := panics_changeApp.1 hpanics
      refine ⟨w, [], rfl, ?_⟩
      rw [hover]
      exact ⟨rfl, rfl⟩
    · obtain ⟨w, rfl, hchanged⟩ := (goes_changeApp answer).1 hown
      refine ⟨w, rest, rfl, ?_⟩
      rw [hchanged]
      cases answer <;> exact hrest
  · rintro ⟨w, rest, rfl, hrest⟩
    obtain ⟨changed, hchanged⟩ : ∃ changed : Except Fault (Option Diff),
        (w.perform (.changeApp app change)).1 = changed := ⟨_, rfl⟩
    rw [hchanged] at hrest
    match changed, hrest with
    | .ok recorded, hrest =>
      exact .inr ⟨_, rest, .ok recorded, rfl, (goes_changeApp _).2 ⟨w, rfl, hchanged⟩, hrest⟩
    | .error (.rejected r), hrest =>
      exact .inr ⟨_, rest, .error r, rfl, (goes_changeApp _).2 ⟨w, rfl, hchanged⟩, hrest⟩
    | .error .overflow, hrest =>
      obtain ⟨rfl, rfl⟩ := hrest
      exact .inl ⟨rfl, panics_changeApp.2 ⟨w, rfl, hchanged⟩⟩

end

section

variable {x : Activity α} {next : Activity α} {o : Option α} {rest : List Step} {w : World}

theorem Ends.act {action : Action} {next : action.Answer → Activity α}
    (h : (next (w.perform action).1).Ends rest o) :
    (Activity.act action next).Ends (.act w action :: rest) o := by
  cases o <;> exact ⟨w, rest, rfl, h⟩

theorem Ends.ask {r : Request} {replies : Replies} {next : Replies → Activity α}
    (hawaits : w.Awaits r) (h : (next replies).Ends rest o) :
    (Activity.request r next).Ends (.ask w r replies :: rest) o := by
  cases o with
  | none => exact .inr ⟨w, replies, rest, rfl, hawaits, h⟩
  | some b => exact ⟨w, replies, rest, rfl, hawaits, h⟩

theorem ends_lost {r : Request} {next : Replies → Activity α} (h : ¬ w.Awaits r) :
    (Activity.request r next).Ends [.lost w r] none := .inl ⟨w, rfl, h⟩

theorem Ends.pause {ms : Nat} (h : next.Ends rest o) :
    (Activity.sleep ms next).Ends (.pause ms :: rest) o := by
  cases o <;> exact ⟨rest, rfl, h⟩

theorem Ends.survey {records : List LedgerRecord} {timeoutMs : UInt64} {report : SweepReport}
    {next : SweepReport → Activity α} (h : (next report).Ends rest o) :
    (Activity.survey records timeoutMs next).Ends (.survey w records timeoutMs report :: rest) o := by
  cases o <;> exact ⟨w, report, rest, rfl, h⟩

end

/-- Left alone, an activity can always go on to its end. -/
theorem exists_ends (x : Activity α) (t : Table Application) :
    ∃ steps o, x.Ends steps o ∧ t.Undisturbed steps := by
  let w : World := { World.initial 0 0 0 with store := { Store.empty with apps := t } }
  induction x generalizing t with
  | done a => exact ⟨[], some a, ⟨rfl, rfl⟩, trivial⟩
  | panic => exact ⟨[], none, rfl, trivial⟩
  | act action next ih =>
    obtain ⟨rest, o, hends, hu⟩ := ih (w.perform action).1 (w.perform action).2.store.apps
    exact ⟨.act w action :: rest, o, hends.act, rfl, hu⟩
  | request r next ih =>
    by_cases hawaits : w.Awaits r
    · obtain ⟨rest, o, hends, hu⟩ := ih (.ok []) t
      exact ⟨.ask w r (.ok []) :: rest, o, hends.ask hawaits, rfl, hu⟩
    · exact ⟨[.lost w r], none, ends_lost hawaits, rfl, trivial⟩
  | sleep ms next ih =>
    obtain ⟨rest, o, hends, hu⟩ := ih t
    exact ⟨.pause ms :: rest, o, hends.pause, trivial, hu⟩
  | survey records timeoutMs next ih =>
    obtain ⟨rest, o, hends, hu⟩ := ih ⟨0, 0⟩ t
    exact ⟨.survey w records timeoutMs ⟨0, 0⟩ :: rest, o, hends.survey, rfl, hu⟩

/-- The activity never panics. -/
def Steady (x : Activity α) : Prop := ∀ steps, ¬ x.Panics steps

theorem steady_pure (a : α) : (pure a : Activity α).Steady := fun _ => not_panics_pure a

theorem steady_perform (action : Action) : (perform action).Steady := fun _ => not_panics_perform action

theorem steady_publish (subject : String) (payload : Json) : (publish subject payload).Steady :=
  steady_perform _

theorem Steady.bind {x : Activity α} {f : α → Activity β} (hx : x.Steady)
    (hf : ∀ steps a, x.Goes steps a → (f a).Steady) : (x >>= f).Steady := by
  intro steps h
  obtain ⟨own, rest, a, rfl, hown, hrest⟩ := ((panics_bind x f).1 h).resolve_left (hx _)
  exact hf own a hown rest hrest

theorem steady_changeApp {app : AppId} {change : Application → Except Fault Application}
    (h : ∀ a, change a ≠ .error .overflow) : (changeApp app change).Steady := by
  intro steps hpanics
  obtain ⟨w, -, hover⟩ := panics_changeApp.1 hpanics
  simp only [World.perform, Store.changeApp] at hover
  split at hover
  · cases hover
  · rename_i a _
    split at hover
    · rename_i e he
      cases hover
      exact h a he
    · split at hover <;> cases hover

theorem Steady.exists_goes {x : Activity α} (h : x.Steady) (t : Table Application) :
    ∃ steps b, x.Goes steps b ∧ t.Undisturbed steps := by
  obtain ⟨steps, o, hends, hu⟩ := x.exists_ends t
  cases o with
  | none => exact absurd hends (h steps)
  | some b => exact ⟨steps, b, hends, hu⟩

/-- Every step of the activity is as `P` says, whatever it finds, whatever is replied and however it
ends. -/
def Only (P : Step → Prop) (x : Activity α) : Prop := ∀ steps o, x.Ends steps o → ∀ s ∈ steps, P s

variable {P Q : Step → Prop}

theorem Only.mono {x : Activity α} (h : x.Only P) (hPQ : ∀ s, P s → Q s) : x.Only Q :=
  fun steps o hx s hs => hPQ s (h steps o hx s hs)

theorem Only.goes {x : Activity α} (h : x.Only P) {b : α} (hx : x.Goes steps b) : ∀ s ∈ steps, P s :=
  h steps (some b) hx

theorem only_pure (a : α) : (pure a : Activity α).Only P := by
  rintro steps (_ | b) h
  · exact h.elim
  · obtain ⟨rfl, -⟩ := h
    simp

theorem only_panic : (Activity.panic : Activity α).Only P := by
  rintro steps (_ | b) h
  · obtain rfl := h
    simp
  · exact h.elim

theorem Only.bind {x : Activity α} {f : α → Activity β} (hx : x.Only P) (hf : ∀ a, (f a).Only P) :
    (x >>= f).Only P := by
  intro steps o h s hs
  rcases (ends_bind x f o).1 h with ⟨-, hpanics⟩ | ⟨own, rest, a, rfl, hown, hrest⟩
  · exact hx steps none hpanics s hs
  · rcases List.mem_append.1 hs with hs | hs
    · exact hx.goes hown s hs
    · exact hf a rest o hrest s hs

theorem only_perform {action : Action} (h : ∀ w, P (.act w action)) : (perform action).Only P := by
  rintro steps (_ | answer) hends
  · exact absurd hends (not_panics_perform action)
  · obtain ⟨w, rfl, -⟩ := (goes_perform action answer).1 hends
    simpa using h w

theorem only_changeApp {app : AppId} {change : Application → Except Fault Application}
    (h : ∀ w, P (.act w (.changeApp app change))) : (changeApp app change).Only P := by
  refine (only_perform h).bind fun changed => ?_
  split
  · exact only_pure _
  · exact only_pure _
  · exact only_panic

theorem only_ask {r : Request} (h : ∀ w replies, P (.ask w r replies)) (hlost : ∀ w, P (.lost w r)) :
    (ask r).Only P := by
  rintro steps (_ | answer) hends
  · obtain ⟨w, rfl, -⟩ := (panics_ask r).1 hends
    simpa using hlost w
  · obtain ⟨w, -, rfl⟩ := (goes_ask r answer).1 hends
    simpa using h w answer

theorem only_pause {ms : Nat} (h : P (.pause ms)) : (pause ms).Only P := by
  rintro steps (_ | u) hends
  · exact absurd hends (not_panics_pause ms)
  · obtain rfl := (goes_pause ms u).1 hends
    simpa using h

end Activity

end AppFleet
