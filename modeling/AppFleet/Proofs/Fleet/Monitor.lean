import AppFleet.Proofs.Fleet.Basic
import Mathlib.Data.List.Induction

/-! Monitors: a state beside an activity that its own actions move. What a monitor allows along every
path of an activity it allows in every run, whatever other tasks do between two turns, as long as the
link from the run to the state of the monitor outlives their events. -/

namespace AppFleet

/-- `after` leaves out the answers that the world never gives, and `answers` the replies. -/
structure Monitor (γ : Type) where
  allows : γ → Action → Prop
  after : γ → (action : Action) → action.Answer → γ → Prop
  asked : γ → Request → γ
  answers : Replies → Prop
  /-- The records whose instances may be asked for their usage. -/
  surveys : γ → LedgerRecord → Prop
  /-- What has to be done by the end. -/
  ends : γ → Prop

/-- Every action along every path is allowed, and every end is as `post` says. A panic owes nothing. -/
def Activity.Obeys (m : Monitor γ) (post : α → γ → Prop) : Activity α → γ → Prop
  | .done a, g => post a g
  | .panic, _ => True
  | .act action next, g =>
    m.allows g action ∧ ∀ answer g', m.after g action answer g' → (next answer).Obeys m post g'
  | .request r next, g => ∀ replies, m.answers replies → (next replies).Obeys m post (m.asked g r)
  | .sleep _ next, g => next.Obeys m post g
  | .survey records _ next, g =>
    (∀ r ∈ records, m.surveys g r) ∧ ∀ report, (next report).Obeys m post g

structure Monitor.Implies (m : Monitor γ) (m' : Monitor δ) (rel : γ → δ → Prop) : Prop where
  allows : ∀ g h action, rel g h → m.allows g action → m'.allows h action
  after : ∀ g h action answer h', rel g h → m'.after h action answer h' →
    ∃ g', m.after g action answer g' ∧ rel g' h'
  asked : ∀ g h r, rel g h → rel (m.asked g r) (m'.asked h r)
  answers : ∀ replies, m'.answers replies → m.answers replies
  surveys : ∀ g h r, rel g h → m.surveys g r → m'.surveys h r

namespace Activity

variable {m : Monitor γ} {g : γ}

theorem Obeys.mono {post post' : α → γ → Prop} {x : Activity α} (h : x.Obeys m post g)
    (hpost : ∀ a g', post a g' → post' a g') : x.Obeys m post' g := by
  induction x generalizing g with
  | done a => exact hpost a g h
  | panic => trivial
  | act action next ih => exact ⟨h.1, fun answer g' hg => ih answer (h.2 answer g' hg)⟩
  | request r next ih => exact fun replies hr => ih replies (h replies hr)
  | sleep ms next ih => exact ih h
  | survey records timeoutMs next ih => exact ⟨h.1, fun report => ih report (h.2 report)⟩

theorem Obeys.implied {m' : Monitor δ} {rel : γ → δ → Prop} (hm : m.Implies m' rel)
    {post : α → γ → Prop} {x : Activity α} (hx : x.Obeys m post g) {h : δ} (hrel : rel g h) :
    x.Obeys m' (fun a h' => ∃ g', rel g' h' ∧ post a g') h := by
  induction x generalizing g h with
  | done a => exact ⟨g, hrel, hx⟩
  | panic => trivial
  | act action next ih =>
    refine ⟨hm.allows g h action hrel hx.1, fun answer h' hafter => ?_⟩
    obtain ⟨g', hg, hrel'⟩ := hm.after g h action answer h' hrel hafter
    exact ih answer (hx.2 answer g' hg) hrel'
  | request r next ih =>
    exact fun replies hr => ih replies (hx replies (hm.answers replies hr)) (hm.asked g h r hrel)
  | sleep ms next ih => exact ih hx hrel
  | survey records timeoutMs next ih =>
    exact ⟨fun r hr => hm.surveys g h r hrel (hx.1 r hr), fun report => ih report (hx.2 report) hrel⟩

theorem obeys_bind {post : β → γ → Prop} (x : Activity α) (f : α → Activity β) :
    (x >>= f).Obeys m post g ↔ x.Obeys m (fun a => (f a).Obeys m post) g := by
  change (x.bind f).Obeys m post g ↔ _
  induction x generalizing g with
  | done a | panic => rfl
  | act action next ih => simp only [Activity.bind, Obeys, ih]
  | request r next ih => simp only [Activity.bind, Obeys, ih]
  | sleep ms next ih => simp only [Activity.bind, Obeys, ih]
  | survey records timeoutMs next ih => simp only [Activity.bind, Obeys, ih]

theorem Obeys.bind {mid : α → γ → Prop} {post : β → γ → Prop} {x : Activity α}
    {f : α → Activity β} (hx : x.Obeys m mid g)
    (hf : ∀ a g', mid a g' → (f a).Obeys m post g') : (x >>= f).Obeys m post g :=
  (obeys_bind x f).2 (hx.mono hf)

@[simp] theorem obeys_pure {post : α → γ → Prop} (a : α) :
    (pure a : Activity α).Obeys m post g ↔ post a g := Iff.rfl

@[simp] theorem obeys_perform {action : Action} {post : action.Answer → γ → Prop} :
    (perform action).Obeys m post g ↔
      m.allows g action ∧ ∀ answer g', m.after g action answer g' → post answer g' := Iff.rfl

/-- A change that overflows is a panic, and leaves nothing to do. -/
@[simp] theorem obeys_changeApp {id : AppId} {change : Application → Except Fault Application}
    {post : Except Rejection (Option Diff) → γ → Prop} :
    (changeApp id change).Obeys m post g ↔ m.allows g (.changeApp id change) ∧
      ∀ answer g', m.after g (.changeApp id change) (answer.mapError .rejected) g' →
        post answer g' := by
  simp only [changeApp, obeys_bind, obeys_perform]
  refine and_congr_right fun _ => ⟨fun h answer g' hg => ?_, fun h answer g' hg => ?_⟩
  · cases answer with
    | ok recorded => exact h _ g' hg
    | error r => exact h _ g' hg
  · match answer with
    | .ok recorded => exact h (.ok recorded) g' hg
    | .error (.rejected r) => exact h (.error r) g' hg
    | .error .overflow => trivial

@[simp] theorem obeys_ask {r : Request} {post : Replies → γ → Prop} :
    (ask r).Obeys m post g ↔ ∀ replies, m.answers replies → post replies (m.asked g r) := Iff.rfl

@[simp] theorem obeys_pause {ms : Nat} {post : Unit → γ → Prop} :
    (pause ms).Obeys m post g ↔ post () g := Iff.rfl

end Activity

namespace World

/-- A survey waits for answers about records that it asked for. -/
theorem sendSurvey_sublist (w : World) (now : Nat) (timeoutMs : UInt64) (records : List LedgerRecord) :
    ((w.sendSurvey now timeoutMs records).1.map (·.1)).Sublist records := by
  induction records generalizing w with
  | nil => exact .slnil
  | cons r rest ih =>
    simp only [sendSurvey]
    split
    · exact (ih _).cons_cons r
    · exact (ih _).cons r
    · exact (ih _).cons r

theorem pollSurvey_sublist (w : World) (now : Nat) (report : SweepReport)
    (exchanges : List (LedgerRecord × Exchange)) :
    ((w.pollSurvey now report exchanges).1.map (·.1)).Sublist (exchanges.map (·.1)) := by
  induction exchanges generalizing w report with
  | nil => exact .slnil
  | cons x rest ih =>
    simp only [pollSurvey]
    split
    · exact (ih _ _).cons x.1
    · exact (ih _ _).cons_cons x.1

end World

namespace Stage

def Obeys (m : Monitor γ) : Stage Unit → γ → Prop
  | finished _, g => m.ends g
  | panicked, _ => True
  | asleep _ next, g => next.Obeys m (fun _ => m.ends) g
  | waiting _ next, g => ∀ replies, m.answers replies → (next replies).Obeys m (fun _ => m.ends) g
  | surveying exchanges _ next, g =>
    (∀ r ∈ exchanges.map (·.1), m.surveys g r) ∧
      ∀ report, (next report).Obeys m (fun _ => m.ends) g

variable {m : Monitor γ} {g : γ} {now : Nat} {w : World} {stage : Stage Unit}

theorem isOver_of_isFinished (h : stage.isFinished) : stage.isOver := by
  cases stage <;> first | rfl | cases h

theorem action?_eq_some_iff {action : Action} : stage.action? now = some action ↔
    ∃ wake next, wake ≤ now ∧ stage = .asleep wake (.act action next) := by
  constructor
  · intro h
    unfold action? at h
    split at h
    · split at h
      · cases h
        exact ⟨_, _, ‹_›, rfl⟩
      · cases h
    · cases h
  · rintro ⟨wake, next, hw, rfl⟩
    simp [action?, hw]

theorem request?_eq_some_iff {r : Request} : stage.request? now = some r ↔
    ∃ wake next, wake ≤ now ∧ stage = .asleep wake (.request r next) := by
  constructor
  · intro h
    unfold request? at h
    split at h
    · split at h
      · cases h
        exact ⟨_, _, ‹_›, rfl⟩
      · cases h
    · cases h
  · rintro ⟨wake, next, hw, rfl⟩
    simp [request?, hw]

theorem Obeys.allows {action : Action} (h : stage.Obeys m g) (ha : stage.action? now = some action) :
    m.allows g action := by
  obtain ⟨wake, next, -, rfl⟩ := action?_eq_some_iff.1 ha
  exact h.1

theorem Obeys.turn_act {action : Action} {g' : γ} (h : stage.Obeys m g)
    (ha : stage.action? now = some action) (hg : m.after g action (w.perform action).1 g') :
    (stage.turn now w).1.Obeys m g' := by
  obtain ⟨wake, next, hw, rfl⟩ := action?_eq_some_iff.1 ha
  simp only [turn, hw, if_true, Activity.turn]
  exact h.2 _ g' hg

theorem Obeys.turn_request {r : Request} (h : stage.Obeys m g) (hr : stage.request? now = some r)
    (hanswers : ∀ replies, stage.replies? now w = some replies → m.answers replies) :
    (stage.turn now w).1.Obeys m (m.asked g r) := by
  obtain ⟨wake, next, hw, rfl⟩ := request?_eq_some_iff.1 hr
  simp only [turn, hw, if_true, Activity.turn]
  split <;> rename_i heq
  · exact h
  · trivial
  · exact h _ (hanswers _ (by simp [replies?, hw, heq]))

theorem Obeys.turn_other (h : stage.Obeys m g) (ha : stage.action? now = none)
    (hr : stage.request? now = none)
    (hanswers : ∀ replies, stage.replies? now w = some replies → m.answers replies) :
    (stage.turn now w).1.Obeys m g := by
  cases stage with
  | finished a | panicked => exact h
  | waiting x next =>
    simp only [turn]
    split <;> rename_i heq
    · exact h _ (hanswers _ (by simp [replies?, heq]))
    · exact h
  | surveying exchanges report next =>
    have hleft := w.pollSurvey_sublist now report exchanges
    simp only [turn]
    split <;> rename_i heq <;> rw [heq] at hleft
    · exact h.2 _
    · exact ⟨fun r hr => h.1 r (hleft.subset hr), h.2⟩
  | asleep wake next =>
    by_cases hw : wake ≤ now
    · simp only [turn, hw, if_true]
      cases next with
      | done a | panic => exact h
      | act action next => simp [action?, hw] at ha
      | request r next => simp [request?, hw] at hr
      | sleep ms next => exact h
      | survey records timeoutMs next =>
        have hsent := w.sendSurvey_sublist now timeoutMs records
        simp only [Activity.turn]
        split <;> rename_i heq <;> rw [heq] at hsent
        · exact h.2 _
        · exact ⟨fun r hr => h.1 r (hsent.subset hr), h.2⟩
    · simpa [turn, hw] using h

theorem turn_world {action : Action} (ha : stage.action? now = some action) :
    (stage.turn now w).2 = (w.perform action).2 := by
  obtain ⟨wake, next, hw, rfl⟩ := action?_eq_some_iff.1 ha
  simp [turn_snd, after, hw]

end Stage

namespace World

/-- Waiting, asking and being answered leave the applications alone. -/
theorem request_apps (w : World) (now : Nat) (r : Request) :
    (w.request now r).2.store.apps = w.store.apps := rfl

theorem sendSurvey_apps (now : Nat) (timeoutMs : UInt64) (records : List LedgerRecord) (w : World) :
    (w.sendSurvey now timeoutMs records).2.store.apps = w.store.apps := by
  induction records generalizing w with
  | nil => rfl
  | cons r rest ih => exact ih _

theorem mergeReplies_apps (w : World) (report : SweepReport) (r : LedgerRecord) (replies : Replies) :
    (w.mergeReplies report r replies).2.store.apps = w.store.apps := by
  unfold mergeReplies
  split
  · rfl
  · rename_i reply _
    have hm : (w.mergeStats r reply).2.store.apps = w.store.apps := rfl
    split <;> rename_i heq <;> rw [heq] at hm <;> exact hm

theorem pollSurvey_apps (now : Nat) (exchanges : List (LedgerRecord × Exchange)) (w : World)
    (report : SweepReport) : (w.pollSurvey now report exchanges).2.2.store.apps = w.store.apps := by
  induction exchanges generalizing w report with
  | nil => rfl
  | cons x rest ih =>
    simp only [pollSurvey]
    split
    · rw [ih, mergeReplies_apps]
    · rw [ih]

end World

theorem Stage.turn_apps {stage : Stage Unit} {now : Nat} (w : World)
    (ha : stage.action? now = none) : (stage.turn now w).2.store.apps = w.store.apps := by
  rw [turn_snd]
  cases stage with
  | finished a | panicked | waiting x next => rfl
  | surveying exchanges report next => exact w.pollSurvey_apps now exchanges report
  | asleep wake next =>
    by_cases hw : wake ≤ now
    · cases next with
      | done a | panic | sleep ms next => rfl
      | act action next => simp [action?, hw] at ha
      | request r next => simpa [after, hw] using w.request_apps now r
      | survey records timeoutMs next =>
        simpa [after, hw] using w.sendSurvey_apps now timeoutMs records
    · cases next <;> simp [after, hw]

namespace Fleet

variable {config : Config} {s : Fleet}

/-- The state of a monitor may speak of the run so far, of the place of its task and of what that
task has asked. Then it holds of every task of every run if it holds at each call, outlives every
event and follows the actions and the requests of its own task. What holds of the applications may
help it along, as long as every action keeps it. -/
structure Tracks (config : Config) (s : Fleet) (admitted : Call → Prop) (m : Call → Monitor γ)
    (I : Table Application → Prop) (R : List Event → Nat → Call → List Request → γ → Prop) :
    Prop where
  hears : ∀ c replies, (m c).answers replies
  begins : ∀ es c, admitted c → ∃ g, R (es ++ [.call c]) (run config s es).tasks.length c [] g ∧
    (c.activity config).Obeys (m c) (fun _ => (m c).ends) g
  lasts : ∀ es e i c asked g, (e = .turn i → (run config s es).next? i = none) →
    R es i c asked g → R (es ++ [e]) i c asked g
  acts : ∀ es i t g action, (run config s es).tasks[i]? = some t →
    t.stage.action? (run config s es).now = some action → I (run config s es).apps →
    R es i t.call t.asked g → (m t.call).allows g action →
    I ((run config s es).world.perform action).2.store.apps ∧
      ∃ g', (m t.call).after g action ((run config s es).world.perform action).1 g' ∧
        R (es ++ [.turn i]) i t.call t.asked g'
  asks : ∀ es i c asked g r, (run config s es).next? i = none → R es i c asked g →
    R (es ++ [.turn i]) i c (asked ++ [r]) ((m c).asked g r)

theorem step_task_of_ne {e : Event} {i : Nat} (he : e ≠ .turn i) (hi : i < s.tasks.length) :
    (step config s e).tasks[i]? = s.tasks[i]? := by
  cases e with
  | call c => simp [step, List.getElem?_append_left hi]
  | turn j =>
    simp only [step, takeTurn]
    split
    · rfl
    · exact List.getElem?_set_ne (fun hj => he (by rw [hj]))
  | _ => rfl

theorem takeTurn_task {i : Nat} {t : Task} (ht : s.tasks[i]? = some t) :
    (s.takeTurn i).tasks[i]? = some { t with
      asked := t.asked ++ (t.stage.request? s.now).toList
      stage := (t.stage.turn s.now s.world).1 } := by
  simp only [takeTurn, ht]
  rw [List.getElem?_set_self]
  exact (List.getElem?_eq_some_iff.1 ht).1

theorem step_new_task {e : Event} {i : Nat} {t : Task} (ht : (step config s e).tasks[i]? = some t)
    (hi : ¬ i < s.tasks.length) : ∃ c, e = .call c ∧ i = s.tasks.length ∧
      t = ⟨c, [], .asleep s.now (c.activity config)⟩ := by
  have hlt := (List.getElem?_eq_some_iff.1 ht).1
  cases e with
  | call c =>
    have hi : i = s.tasks.length := by
      simp only [step, List.length_append, List.length_singleton] at hlt
      omega
    subst hi
    simp only [step, List.getElem?_concat_length, Option.some.injEq] at ht
    exact ⟨c, rfl, rfl, ht.symm⟩
  | turn j =>
    simp only [step, takeTurn] at hlt
    split at hlt
    · exact absurd hlt hi
    · rw [List.length_set] at hlt
      exact absurd hlt hi
  | _ => exact absurd hlt hi

theorem step_apps (config : Config) (s : Fleet) (e : Event) :
    (∃ i t action, e = .turn i ∧ s.tasks[i]? = some t ∧ t.stage.action? s.now = some action ∧
      (step config s e).apps = (s.world.perform action).2.store.apps) ∨
      (step config s e).apps = s.apps := by
  cases e with
  | turn i =>
    simp only [step, takeTurn]
    match ht : s.tasks[i]? with
    | none => exact .inr rfl
    | some t =>
      match ha : t.stage.action? s.now with
      | some action =>
        exact .inl ⟨i, t, action, rfl, ht, ha, congrArg (·.store.apps) (Stage.turn_world ha)⟩
      | none => exact .inr (Stage.turn_apps s.world ha)
  | _ => exact .inr rfl

/-- The applications after a turn are those that its action leaves. -/
theorem apps_turn (config : Config) (s : Fleet) (i : Nat) : (step config s (.turn i)).apps =
    (s.next? i).elim s.apps fun action => (s.world.perform action).2.store.apps := by
  simp only [step, takeTurn, next?]
  cases ht : s.tasks[i]? with
  | none => rfl
  | some t =>
    cases ha : t.stage.action? s.now with
    | none =>
      simp only [Option.bind_some, ha, Option.elim_none]
      exact Stage.turn_apps s.world ha
    | some action =>
      simp only [Option.bind_some, ha, Option.elim_some]
      exact congrArg (·.store.apps) (Stage.turn_world ha)

section

variable {admitted : Call → Prop} {m : Call → Monitor γ} {I : Table Application → Prop}
  {R : List Event → Nat → Call → List Request → γ → Prop}

theorem Tracks.turn (h : Tracks config s admitted m I R) {es : List Event} {i : Nat} {t : Task} {g : γ}
    (ht : (run config s es).tasks[i]? = some t) (hI : I (run config s es).apps)
    (hR : R es i t.call t.asked g) (hobeys : t.stage.Obeys (m t.call) g) :
    ∃ g', R (es ++ [.turn i]) i t.call
        (t.asked ++ (t.stage.request? (run config s es).now).toList) g' ∧
      (t.stage.turn (run config s es).now (run config s es).world).1.Obeys (m t.call) g' := by
  have hnext : (run config s es).next? i = t.stage.action? (run config s es).now := by
    simp [next?, ht]
  match ha : t.stage.action? (run config s es).now, hr : t.stage.request? (run config s es).now with
  | some action, some r =>
    obtain ⟨_, _, -, hstage⟩ := Stage.action?_eq_some_iff.1 ha
    simp [Stage.request?, hstage] at hr
  | some action, none =>
    obtain ⟨-, g', hg, hR'⟩ := h.acts es i t g action ht ha hI hR (hobeys.allows ha)
    exact ⟨g', by simpa using hR', hobeys.turn_act ha hg⟩
  | none, some r =>
    exact ⟨_, h.asks es i _ _ g r (hnext.trans ha) hR, hobeys.turn_request hr fun _ _ => h.hears _ _⟩
  | none, none =>
    have hlasts := h.lasts es (.turn i) i _ _ g (fun _ => hnext.trans ha) hR
    exact ⟨g, by simpa using hlasts, hobeys.turn_other ha hr fun _ _ => h.hears _ _⟩

theorem Tracks.run (h : Tracks config s admitted m I R) (hs : s.tasks = []) (hI : I s.apps)
    (es : List Event) (hes : ∀ c, Event.call c ∈ es → admitted c) :
    I (run config s es).apps ∧ ∀ i t, (run config s es).tasks[i]? = some t →
      ∃ g, R es i t.call t.asked g ∧ t.stage.Obeys (m t.call) g := by
  induction es using List.reverseRecOn with
  | nil => exact ⟨hI, by simp [hs]⟩
  | append_singleton es e ih =>
    obtain ⟨ihI, ih⟩ := ih (fun c hc => hes c (List.mem_append_left _ hc))
    rw [run_snoc]
    refine ⟨?_, fun i t ht => ?_⟩
    · rcases step_apps config (Fleet.run config s es) e with ⟨i, t, action, rfl, ht, ha, heq⟩ | heq
      · obtain ⟨g, hR, hobeys⟩ := ih i t ht
        rw [heq]
        exact (h.acts es i t g action ht ha ihI hR (hobeys.allows ha)).1
      · rw [heq]
        exact ihI
    · by_cases hi : i < (Fleet.run config s es).tasks.length
      · by_cases he : e = .turn i
        · subst he
          obtain ⟨t₀, ht₀⟩ : ∃ t₀, (Fleet.run config s es).tasks[i]? = some t₀ :=
            ⟨_, List.getElem?_eq_getElem hi⟩
          obtain ⟨g, hR, hobeys⟩ := ih i t₀ ht₀
          rw [step, takeTurn_task ht₀] at ht
          cases ht
          exact h.turn ht₀ ihI hR hobeys
        · rw [step_task_of_ne he hi] at ht
          obtain ⟨g, hR, hobeys⟩ := ih i t ht
          exact ⟨g, h.lasts es e i _ _ g (fun h => absurd h he) hR, hobeys⟩
      · obtain ⟨c, rfl, rfl, rfl⟩ := step_new_task ht hi
        exact h.begins es c (hes c (by simp))

end

end Fleet

end AppFleet
