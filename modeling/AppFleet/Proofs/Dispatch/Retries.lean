import AppFleet.Proofs.Dispatch.Staging
import Mathlib.Data.Nat.Find

/-! How often the stager is called. Its answers are an endless sequence, of which a course takes as
many as it needs: it goes on while there is no capacity, up to the attempts that a configuration allows.
These are counted in 32 bits, in which there is nothing after the greatest number of retries. -/

namespace AppFleet

/-- The requests of these steps find these worlds, and are answered so, one after the other. -/
def AnsweredBy : (Nat → World) → (Nat → Replies) → List Step → Prop
  | _, _, [] => True
  | found, replies, .ask w _ reply :: rest =>
    w = found 0 ∧ reply = replies 0 ∧ AnsweredBy (fun i => found (i + 1)) (fun i => replies (i + 1)) rest
  | found, replies, .lost w _ :: rest => w = found 0 ∧ AnsweredBy (fun i => found (i + 1)) replies rest
  | found, replies, _ :: rest => AnsweredBy found replies rest

namespace Staging

/-- What an answer of the stager amounts to. -/
def answer (config : StagingConfig) : Replies → Except StagingError StagingResult
  | .ok replies => verdict config replies
  | .error cause => .error (.unavailable cause)

def IsFull : Except StagingError StagingResult → Prop
  | .error (.noCapacity _) => True
  | _ => False

instance : DecidablePred IsFull
  | .error (.noCapacity _) => .isTrue trivial
  | .error (.failed _) | .error (.timedOut _) | .error (.unavailable _) | .error (.notRestaged _)
  | .ok _ => .isFalse id

/-- Stages, and up to so many times more while there is no capacity, without a count of the attempts. -/
def stageUpTo (config : StagingConfig) (a : Application) :
    (retries : Nat) → Activity (Except StagingError StagingResult)
  | 0 => stage config a
  | retries + 1 => do
    match ← stage config a with
    | .error (.noCapacity _) =>
      Activity.pause config.retryMs.toNat
      stageUpTo config a retries
    | answer => return answer

def calls (config : StagingConfig) (a : Application) (found : Nat → World) (replies : Nat → Replies)
    (n : Nat) : List Step :=
  ((List.range n).map fun i => .ask (found i) (question config a) (replies i)).intersperse
    (.pause config.retryMs.toNat)

def waits (config : StagingConfig) (a : Application) (found : Nat → World) (replies : Nat → Replies)
    (n : Nat) : List Step :=
  (List.range n).flatMap fun i =>
    [.ask (found i) (question config a) (replies i), .pause config.retryMs.toNat]

/-- How many calls it takes with so many retries. -/
def made (config : StagingConfig) : (Nat → Replies) → (retries : Nat) → Nat
  | _, 0 => 1
  | replies, retries + 1 =>
    if IsFull (answer config (replies 0)) then made config (fun i => replies (i + 1)) retries + 1 else 1

/-- How many calls there are to be: up to the first that does not lack capacity, and so many at most. -/
def Due (config : StagingConfig) (replies : Nat → Replies) (most n : Nat) : Prop :=
  (∃ first, (∀ i < first, IsFull (answer config (replies i))) ∧
    ¬ IsFull (answer config (replies first)) ∧ n = min (first + 1) most) ∨
  (∀ i, IsFull (answer config (replies i))) ∧ n = most

/-- The stager is called so many times, with the delay between the calls, and the last answer is
returned. Or else the first call whose deadline no clock can show is a panic. -/
def Called (config : StagingConfig) (a : Application) (found : Nat → World) (replies : Nat → Replies)
    (n : Nat) (steps : List Step) (o : Option (Except StagingError StagingResult)) : Prop :=
  (∀ i < n, (found i).Awaits (question config a)) ∧ steps = calls config a found replies n ∧
    o = some (answer config (replies (n - 1))) ∨
  ∃ m < n, (∀ i < m, (found i).Awaits (question config a)) ∧ ¬ (found m).Awaits (question config a) ∧
    steps = waits config a found replies m ++ [.lost (found m) (question config a)] ∧ o = none

variable {config : StagingConfig} {a : Application} {steps : List Step} {found : Nat → World}
  {replies : Nat → Replies} {result : Except StagingError StagingResult}
  {o : Option (Except StagingError StagingResult)} {retries n : Nat}

/-- Up to the last of 32 bits the attempts can be counted, so that the count does not matter. -/
theorem stageFrom_eq (config : StagingConfig) (a : Application) {left : Nat} {attempt : UInt32}
    (h : attempt.toNat + left ≤ 4294967295) : stageFrom config a left attempt = stageUpTo config a left := by
  induction left generalizing attempt with
  | zero => rfl
  | succ left ih =>
    have hne : attempt ≠ 0xffffffff := by
      rintro rfl
      simp only [UInt32.reduceToNat] at h
      omega
    have hnext : (attempt + 1).toNat = attempt.toNat + 1 := by
      rw [UInt32.toNat_add, UInt32.toNat_one]
      omega
    simp only [stageFrom, next?, hne, if_false, @ih (attempt + 1) (by omega)]
    rfl

/-- One more than the greatest number of retries is a panic. -/
theorem stageWithRetry_eq (config : StagingConfig) (a : Application) : stageWithRetry config a =
    if config.maxRetries = 4294967295 then .panic
    else stageUpTo config a config.maxRetries.toNat := by
  have hlt : config.maxRetries.toNat < 4294967296 := UInt32.toNat_lt _
  by_cases hretries : config.maxRetries = 4294967295
  · simp only [stageWithRetry, attempts?, next?, hretries, if_true]
  · have hne : config.maxRetries.toNat ≠ 4294967295 := by
      rw [← UInt32.toNat_inj] at hretries
      exact hretries
    have hattempts : (config.maxRetries + 1).toNat - 1 = config.maxRetries.toNat := by
      rw [UInt32.toNat_add, UInt32.toNat_one]
      omega
    simp only [stageWithRetry, attempts?, next?, hretries, if_false, hattempts]
    exact stageFrom_eq config a (by rw [UInt32.toNat_one]; omega)

theorem stage_ends : (stage config a).Ends steps o ↔
    (∃ w reply, w.Awaits (question config a) ∧ steps = [.ask w (question config a) reply] ∧
      o = some (answer config reply)) ∨
    ∃ w, ¬ w.Awaits (question config a) ∧ steps = [.lost w (question config a)] ∧ o = none := by
  have hnext (reply : Replies) (rest : List Step) :
      (match reply with
        | .ok replies => return verdict config replies
        | .error cause => return .error (.unavailable cause) :
          Activity (Except StagingError StagingResult)).Ends rest o ↔
      rest = [] ∧ o = some (answer config reply) := by
    cases reply <;> exact Activity.ends_pure _ _
  constructor
  · intro h
    rcases (Activity.ends_bind _ _ _).1 h with ⟨rfl, hlost⟩ | ⟨own, rest, reply, rfl, hown, hrest⟩
    · obtain ⟨w, rfl, hw⟩ := (Activity.panics_ask _).1 hlost
      exact .inr ⟨w, hw, rfl, rfl⟩
    · obtain ⟨w, hw, rfl⟩ := (Activity.goes_ask _ _).1 hown
      obtain ⟨rfl, rfl⟩ := (hnext reply rest).1 hrest
      exact .inl ⟨w, reply, hw, rfl, rfl⟩
  · rintro (⟨w, reply, hw, rfl, rfl⟩ | ⟨w, hw, rfl, rfl⟩)
    · exact (Activity.ends_bind _ _ _).2 (.inr ⟨_, [], reply, rfl, (Activity.goes_ask _ _).2 ⟨w, hw, rfl⟩,
        (hnext reply []).2 ⟨rfl, rfl⟩⟩)
    · exact (Activity.ends_bind _ _ _).2 (.inl ⟨rfl, (Activity.panics_ask _).2 ⟨w, rfl, hw⟩⟩)

/-- The first call is the last, unless it lacks capacity: then there is a pause, and the rest. -/
theorem stageUpTo_succ_ends : (stageUpTo config a (retries + 1)).Ends steps o ↔
    (∃ w reply rest, w.Awaits (question config a) ∧ steps = .ask w (question config a) reply :: rest ∧
      if IsFull (answer config reply) then ∃ later, rest = .pause config.retryMs.toNat :: later ∧
        (stageUpTo config a retries).Ends later o
      else rest = [] ∧ o = some (answer config reply)) ∨
    ∃ w, ¬ w.Awaits (question config a) ∧ steps = [.lost w (question config a)] ∧ o = none := by
  have hpause (rest : List Step) : (do
      Activity.pause config.retryMs.toNat
      stageUpTo config a retries).Ends rest o ↔ ∃ later, rest = .pause config.retryMs.toNat :: later ∧
        (stageUpTo config a retries).Ends later o := by
    cases o <;> exact Iff.rfl
  have hnext (reply : Replies) (rest : List Step) :
      (match answer config reply with
        | .error (.noCapacity _) => do
          Activity.pause config.retryMs.toNat
          stageUpTo config a retries
        | answer => return answer).Ends rest o ↔
      if IsFull (answer config reply) then ∃ later, rest = .pause config.retryMs.toNat :: later ∧
        (stageUpTo config a retries).Ends later o
      else rest = [] ∧ o = some (answer config reply) := by
    rcases answer config reply with e | staged
    · cases e <;> first | exact hpause rest | exact Activity.ends_pure _ _
    · exact Activity.ends_pure _ _
  constructor
  · intro h
    rcases (Activity.ends_bind _ _ _).1 h with ⟨rfl, hlost⟩ | ⟨own, rest, answered, rfl, hown, hrest⟩
    · obtain ⟨w, reply, -, -, ⟨⟩⟩ | hlost := stage_ends.1 (Activity.ends_none.2 hlost)
      exact .inr hlost
    · obtain ⟨w, reply, hw, rfl, ⟨⟩⟩ | ⟨w, -, -, ⟨⟩⟩ := stage_ends.1 (Activity.ends_some.2 hown)
      exact .inl ⟨w, reply, rest, hw, rfl, (hnext reply rest).1 hrest⟩
  · rintro (⟨w, reply, rest, hw, rfl, hrest⟩ | ⟨w, hw, rfl, rfl⟩)
    · exact (Activity.ends_bind _ _ _).2 (.inr ⟨_, rest, _, rfl,
        Activity.ends_some.1 (stage_ends.2 (.inl ⟨w, reply, hw, rfl, rfl⟩)), (hnext reply rest).2 hrest⟩)
    · exact (Activity.ends_bind _ _ _).2
        (.inl ⟨rfl, Activity.ends_none.1 (stage_ends.2 (.inr ⟨w, hw, rfl, rfl⟩))⟩)

theorem stageUpTo_asks_first (h : (stageUpTo config a retries).Ends steps o) :
    (∃ w reply rest, steps = .ask w (question config a) reply :: rest) ∨
      ∃ w, steps = [.lost w (question config a)] := by
  cases retries with
  | zero =>
    obtain ⟨w, reply, -, rfl, -⟩ | ⟨w, -, rfl, -⟩ := stage_ends.1 h
    · exact .inl ⟨w, reply, [], rfl⟩
    · exact .inr ⟨w, rfl⟩
  | succ retries =>
    obtain ⟨w, reply, rest, -, rfl, -⟩ | ⟨w, -, rfl, -⟩ := stageUpTo_succ_ends.1 h
    · exact .inl ⟨w, reply, rest, rfl⟩
    · exact .inr ⟨w, rfl⟩

theorem calls_succ (found : Nat → World) (n : Nat) : calls config a found replies (n + 2) =
    .ask (found 0) (question config a) (replies 0) :: .pause config.retryMs.toNat ::
      calls config a (fun i => found (i + 1)) (fun i => replies (i + 1)) (n + 1) := by
  simp [calls, List.range_succ_eq_map, Function.comp_def]

theorem waits_succ (found : Nat → World) (n : Nat) : waits config a found replies (n + 1) =
    .ask (found 0) (question config a) (replies 0) :: .pause config.retryMs.toNat ::
      waits config a (fun i => found (i + 1)) (fun i => replies (i + 1)) n := by
  simp [waits, List.range_succ_eq_map, List.flatMap_map]

theorem called_one : Called config a found replies 1 steps o ↔
    ((found 0).Awaits (question config a) ∧ steps = [.ask (found 0) (question config a) (replies 0)] ∧
      o = some (answer config (replies 0))) ∨
    ¬ (found 0).Awaits (question config a) ∧ steps = [.lost (found 0) (question config a)] ∧
      o = none := by
  simp [Called, calls, waits]

theorem called_succ (n : Nat) : Called config a found replies (n + 2) steps o ↔
    ((found 0).Awaits (question config a) ∧ ∃ later,
      steps = .ask (found 0) (question config a) (replies 0) :: .pause config.retryMs.toNat :: later ∧
      Called config a (fun i => found (i + 1)) (fun i => replies (i + 1)) (n + 1) later o) ∨
    ¬ (found 0).Awaits (question config a) ∧ steps = [.lost (found 0) (question config a)] ∧
      o = none := by
  constructor
  · rintro (⟨hall, rfl, rfl⟩ | ⟨_ | m, hm, hall, hlost, rfl, rfl⟩)
    · exact .inl ⟨hall 0 (by omega), _, calls_succ found n,
        .inl ⟨fun i hi => hall (i + 1) (by omega), rfl, rfl⟩⟩
    · exact .inr ⟨hlost, rfl, rfl⟩
    · refine .inl ⟨hall 0 (by omega), _, by rw [waits_succ]; rfl, .inr ⟨m, by omega, ?_, hlost, rfl, rfl⟩⟩
      exact fun i hi => hall (i + 1) (by omega)
  · rintro (⟨hfirst, later, rfl, ⟨hall, rfl, rfl⟩ | ⟨m, hm, hall, hlost, rfl, rfl⟩⟩ |
      ⟨hlost, rfl, rfl⟩)
    · refine .inl ⟨?_, (calls_succ found n).symm, rfl⟩
      rintro (_ | i) hi
      · exact hfirst
      · exact hall i (by omega)
    · refine .inr ⟨m + 1, by omega, ?_, hlost, by rw [waits_succ]; rfl, rfl⟩
      rintro (_ | i) hi
      · exact hfirst
      · exact hall i (by omega)
    · exact .inr ⟨0, by omega, by simp, hlost, rfl, rfl⟩

theorem made_pos (config : StagingConfig) (replies : Nat → Replies) (retries : Nat) :
    0 < made config replies retries := by
  cases retries with
  | zero => exact Nat.one_pos
  | succ retries =>
    rw [made]
    split <;> omega

theorem made_full (h : IsFull (answer config (replies 0))) :
    made config replies (retries + 1) = made config (fun i => replies (i + 1)) retries + 1 :=
  if_pos h

theorem made_settled (h : ¬ IsFull (answer config (replies 0))) :
    made config replies (retries + 1) = 1 := if_neg h

/-- Answered from the sequence, a course is the calls that it takes. -/
theorem stageUpTo_ends : (stageUpTo config a retries).Ends steps o ∧ AnsweredBy found replies steps ↔
    Called config a found replies (made config replies retries) steps o := by
  induction retries generalizing steps found replies with
  | zero =>
    rw [made, called_one]
    constructor
    · rintro ⟨h, hanswered⟩
      obtain ⟨w, reply, hw, rfl, rfl⟩ | ⟨w, hw, rfl, rfl⟩ := stage_ends.1 h
      · obtain ⟨rfl, rfl, -⟩ := hanswered
        exact .inl ⟨hw, rfl, rfl⟩
      · obtain ⟨rfl, -⟩ := hanswered
        exact .inr ⟨hw, rfl, rfl⟩
    · rintro (⟨hw, rfl, rfl⟩ | ⟨hw, rfl, rfl⟩)
      · exact ⟨stage_ends.2 (.inl ⟨_, _, hw, rfl, rfl⟩), rfl, rfl, trivial⟩
      · exact ⟨stage_ends.2 (.inr ⟨_, hw, rfl, rfl⟩), rfl, trivial⟩
  | succ retries ih =>
    rw [stageUpTo_succ_ends]
    by_cases hfull : IsFull (answer config (replies 0))
    · obtain ⟨n, hn⟩ : ∃ n, made config (fun i => replies (i + 1)) retries = n + 1 :=
        ⟨_, (Nat.sub_add_cancel (made_pos _ _ _)).symm⟩
      have hrest (later : List Step) := @ih later (fun i => found (i + 1)) fun i => replies (i + 1)
      simp only [hn] at hrest
      rw [made_full hfull, hn, called_succ]
      constructor
      · rintro ⟨⟨w, reply, rest, hw, rfl, h⟩ | ⟨w, hw, rfl, rfl⟩, hanswered⟩
        · obtain ⟨rfl, rfl, hanswered⟩ := hanswered
          rw [if_pos hfull] at h
          obtain ⟨later, rfl, hlater⟩ := h
          exact .inl ⟨hw, later, rfl, (hrest later).1 ⟨hlater, hanswered⟩⟩
        · obtain ⟨rfl, -⟩ := hanswered
          exact .inr ⟨hw, rfl, rfl⟩
      · rintro (⟨hw, later, rfl, hcalled⟩ | ⟨hw, rfl, rfl⟩)
        · obtain ⟨hlater, hanswered⟩ := (hrest later).2 hcalled
          exact ⟨.inl ⟨_, _, _, hw, rfl, (if_pos hfull).mpr ⟨later, rfl, hlater⟩⟩, rfl, rfl, hanswered⟩
        · exact ⟨.inr ⟨_, hw, rfl, rfl⟩, rfl, trivial⟩
    · rw [made_settled hfull, called_one]
      constructor
      · rintro ⟨⟨w, reply, rest, hw, rfl, h⟩ | ⟨w, hw, rfl, rfl⟩, hanswered⟩
        · obtain ⟨rfl, rfl, -⟩ := hanswered
          rw [if_neg hfull] at h
          obtain ⟨rfl, rfl⟩ := h
          exact .inl ⟨hw, rfl, rfl⟩
        · obtain ⟨rfl, -⟩ := hanswered
          exact .inr ⟨hw, rfl, rfl⟩
      · rintro (⟨hw, rfl, rfl⟩ | ⟨hw, rfl, rfl⟩)
        · exact ⟨.inl ⟨_, _, [], hw, rfl, (if_neg hfull).mpr ⟨rfl, rfl⟩⟩, rfl, rfl, trivial⟩
        · exact ⟨.inr ⟨_, hw, rfl, rfl⟩, rfl, trivial⟩

theorem made_eq_min (retries : Nat) : ∀ (replies : Nat → Replies) (first : Nat),
    (∀ i < first, IsFull (answer config (replies i))) → ¬ IsFull (answer config (replies first)) →
    made config replies retries = min (first + 1) (retries + 1) := by
  induction retries with
  | zero =>
    intro replies first _ _
    rw [made]
    omega
  | succ retries ih =>
    intro replies first hfull hsettled
    cases first with
    | zero =>
      rw [made_settled hsettled]
      omega
    | succ first =>
      have hlater := ih (fun i => replies (i + 1)) first (fun i hi => hfull (i + 1) (by omega)) hsettled
      rw [made_full (hfull 0 (by omega)), hlater]
      omega

theorem made_of_full (h : ∀ i, IsFull (answer config (replies i))) (retries : Nat) :
    made config replies retries = retries + 1 := by
  induction retries generalizing replies with
  | zero => rfl
  | succ retries ih => rw [made_full (h 0), ih fun i => h (i + 1)]

theorem due_iff : Due config replies (retries + 1) n ↔ n = made config replies retries := by
  constructor
  · rintro (⟨first, hfull, hsettled, rfl⟩ | ⟨hfull, rfl⟩)
    · exact (made_eq_min retries _ _ hfull hsettled).symm
    · exact (made_of_full hfull retries).symm
  · rintro rfl
    by_cases hall : ∀ i, IsFull (answer config (replies i))
    · exact .inr ⟨hall, made_of_full hall retries⟩
    · have hsome : ∃ i, ¬ IsFull (answer config (replies i)) := not_forall.1 hall
      have hfull (i : Nat) (hi : i < Nat.find hsome) : IsFull (answer config (replies i)) :=
        not_not.1 (Nat.find_min hsome hi)
      exact .inl ⟨_, hfull, Nat.find_spec hsome, made_eq_min retries _ _ hfull (Nat.find_spec hsome)⟩

theorem exists_panicked_iff : (∃ steps, Called config a found replies n steps none) ↔
    ∃ m < n, ¬ (found m).Awaits (question config a) := by
  constructor
  · rintro ⟨steps, ⟨-, -, ⟨⟩⟩ | ⟨m, hm, -, hlost, -⟩⟩
    exact ⟨m, hm, hlost⟩
  · rintro ⟨m, hm, hlost⟩
    have hsome : ∃ i, ¬ (found i).Awaits (question config a) := ⟨m, hlost⟩
    refine ⟨_, .inr ⟨Nat.find hsome, Nat.lt_of_le_of_lt (Nat.find_min' hsome hlost) hm, ?_,
      Nat.find_spec hsome, rfl, rfl⟩⟩
    exact fun i hi => not_not.1 (Nat.find_min hsome hi)

/-- Whatever the stager answers, call after call, and whatever the calls find: there is one course, and
in it the stager is called as often as is due, with the delay between the calls and the last answer for
a result. Of all that is computed on the way, the sum of the first attempt and the retries overflows
exactly for the greatest number of retries, before any call; the count of the attempts never does; and a
deadline does exactly if a call is due at which no clock can show it. Then there is a panic. -/
theorem called_as_due_iff (config : StagingConfig) (a : Application) (found : Nat → World)
    (replies : Nat → Replies) : ∃ n, Due config replies (config.maxRetries.toNat + 1) n ∧
      (∀ steps o, (stageWithRetry config a).Ends steps o ∧ AnsweredBy found replies steps ↔
        config.maxRetries = 4294967295 ∧ steps = [] ∧ o = none ∨
        config.maxRetries ≠ 4294967295 ∧ Called config a found replies n steps o) ∧
      ((∃ steps, (stageWithRetry config a).Panics steps ∧ AnsweredBy found replies steps) ↔
        config.maxRetries = 4294967295 ∨ ∃ m < n, ¬ (found m).Awaits (question config a)) := by
  refine ⟨_, due_iff.2 rfl, ?_⟩
  have hcourse (steps : List Step) (o : Option (Except StagingError StagingResult)) :
      (stageWithRetry config a).Ends steps o ∧ AnsweredBy found replies steps ↔
        config.maxRetries = 4294967295 ∧ steps = [] ∧ o = none ∨ config.maxRetries ≠ 4294967295 ∧
          Called config a found replies (made config replies config.maxRetries.toNat) steps o := by
    rw [stageWithRetry_eq]
    by_cases hmax : config.maxRetries = 4294967295
    · simp only [hmax, if_true, true_and, ne_eq, not_true_eq_false, false_and, or_false]
      constructor
      · rintro ⟨h, -⟩
        cases o with
        | none => exact ⟨h, rfl⟩
        | some result => exact h.elim
      · rintro ⟨rfl, rfl⟩
        exact ⟨rfl, trivial⟩
    · simp only [hmax, if_false, false_and, ne_eq, not_false_eq_true, true_and, false_or]
      exact stageUpTo_ends
  refine ⟨hcourse, ?_⟩
  have hpanics (steps : List Step) := hcourse steps none
  simp only [Activity.ends_none] at hpanics
  simp only [hpanics]
  by_cases hmax : config.maxRetries = 4294967295
  · simp [hmax]
  · simpa [hmax] using exists_panicked_iff

def greatestRetries : Config :=
  { Config.default with staging := { StagingConfig.default with maxRetries := 4294967295 } }

theorem panics_at_once : ¬ ∀ (config : Config) (a : Application) (found : Nat → World)
    (replies : Nat → Replies), config.validate = .ok () →
      (∀ i, (found i).Awaits (question config.staging a)) →
      ∃ n, Due config.staging replies (config.staging.maxRetries.toNat + 1) n ∧
        (stageWithRetry config.staging a).Goes (calls config.staging a found replies n)
          (answer config.staging (replies (n - 1))) := by
  intro h
  obtain ⟨n, -, hgoes⟩ := h greatestRetries .web (fun _ => .storing .web) (fun _ => .ok []) rfl
    fun _ => by decide
  rw [stageWithRetry_eq] at hgoes
  exact hgoes

end Staging

end AppFleet
