import AppFleet.Proofs.Activity.Course
import AppFleet.Proofs.Fleet.Sent
import AppFleet.Proofs.Fleet.Unstaged

/-! The courses of a fleet whose calls come one at a time. What the latest task has done since its call
is the beginning of a course that nobody disturbed, and whatever it goes on with, the whole is one. -/

namespace AppFleet

/-- How far an activity is that has gone these steps from a table on. With a request under way, it has
asked, and goes on with whatever is replied. -/
def Stage.Left (x : Activity Unit) (t : Table Application) (past : List Step) : Stage Unit → Prop
  | finished u => x.Goes past u
  | panicked => x.Panics past
  | asleep _ next => ∀ rest o, next.Ends rest o → x.Ends (past ++ rest) o
  | waiting _ next => ∃ w r, w.store.apps = t.after past ∧
      ∀ replies rest o, (next replies).Ends rest o → x.Ends (past ++ .ask w r replies :: rest) o
  | surveying _ _ next => ∃ w records timeoutMs, w.store.apps = t.after past ∧
      ∀ report rest o, (next report).Ends rest o →
        x.Ends (past ++ .survey w records timeoutMs report :: rest) o

structure Stage.Gone (x : Activity Unit) (t t' : Table Application) (past : List Step)
    (stage : Stage Unit) : Prop where
  left : stage.Left x t past
  undisturbed : t.Undisturbed past
  after : t.after past = t'

variable {x : Activity Unit} {t t' : Table Application} {past : List Step} {stage : Stage Unit}
  {w : World} {now : Nat}

namespace Stage

theorem Left.snoc {s : Step} {next : Activity Unit} {wake : Nat}
    (h : ∀ rest o, next.Ends rest o → x.Ends (past ++ s :: rest) o) :
    (asleep wake next).Left x t (past ++ [s]) := by
  intro rest o hrest
  simpa using h rest o hrest

theorem Gone.snoc (s : Step) {next : Activity Unit} {wake : Nat}
    (hu : t.Undisturbed past) (hfinds : s.finds (t.after past))
    (hleaves : s.leaves (t.after past) = t')
    (h : ∀ rest o, next.Ends rest o → x.Ends (past ++ s :: rest) o) :
    (asleep wake next).Gone x t t' (past ++ [s]) :=
  ⟨.snoc h, Table.undisturbed_append.2 ⟨hu, hfinds, trivial⟩, by simpa using hleaves⟩

/-- What is awake goes one step on, or comes to its end. -/
theorem gone_turn (now : Nat) {next : Activity Unit} (hu : t.Undisturbed past)
    (hafter : t.after past = w.store.apps)
    (hleft : ∀ rest o, next.Ends rest o → x.Ends (past ++ rest) o) :
    ∃ past', (next.turn now w).1.Gone x t (next.turn now w).2.store.apps past' := by
  cases next with
  | done u =>
    have hall := hleft [] (some u) ⟨rfl, rfl⟩
    rw [List.append_nil] at hall
    exact ⟨past, hall, hu, hafter⟩
  | panic =>
    have hall := hleft [] none rfl
    rw [List.append_nil] at hall
    exact ⟨past, hall, hu, hafter⟩
  | act action next =>
    refine ⟨_, .snoc (.act w action) hu hafter.symm rfl fun rest o hrest => ?_⟩
    exact hleft _ o hrest.act
  | request r next =>
    have hasked (hawaits : w.Awaits r) (replies : Replies) (rest : List Step) (o : Option Unit)
        (hrest : (next replies).Ends rest o) : x.Ends (past ++ .ask w r replies :: rest) o :=
      hleft _ o (hrest.ask hawaits)
    have happs := w.request_apps now r
    -- the request waits, or no clock can show its deadline, or the bus refuses it
    simp only [Activity.turn]
    split <;> rename_i heq <;> have hawaits := World.request_awaits (congrArg Prod.fst heq) <;>
      rw [heq] at happs
    · replace hawaits := hawaits.2 (by simp)
      exact ⟨past, ⟨w, r, hafter.symm, hasked hawaits⟩, hu, hafter.trans happs.symm⟩
    · have hlost : ¬ w.Awaits r := fun h => hawaits.1 h rfl
      have hfinds : (Step.lost w r).finds (t.after past) := hafter.symm
      refine ⟨past ++ [.lost w r], hleft _ none (Activity.ends_lost hlost),
        Table.undisturbed_append.2 ⟨hu, hfinds, trivial⟩, ?_⟩
      rw [Table.after_append]
      exact hafter.trans happs.symm
    · rename_i e _
      exact ⟨_, .snoc (.ask w r (.error e)) hu hafter.symm (hafter.trans happs.symm)
        (hasked (hawaits.2 (by simp)) _)⟩
  | sleep ms next =>
    refine ⟨_, .snoc (.pause ms) hu trivial hafter fun rest o hrest => ?_⟩
    exact hleft _ o hrest.pause
  | survey records timeoutMs next =>
    have happs := w.sendSurvey_apps now timeoutMs records
    have hasked (report : SweepReport) (rest : List Step) (o : Option Unit)
        (hrest : (next report).Ends rest o) :
        x.Ends (past ++ .survey w records timeoutMs report :: rest) o :=
      hleft _ o hrest.survey
    simp only [Activity.turn]
    split <;> rename_i heq <;> rw [heq] at happs
    · exact ⟨_, .snoc (.survey w records timeoutMs ⟨records.length, 0⟩) hu hafter.symm
        (hafter.trans happs.symm) (hasked _)⟩
    · exact ⟨past, ⟨w, records, timeoutMs, hafter.symm, hasked⟩, hu, hafter.trans happs.symm⟩

theorem Gone.turn (now : Nat) (h : stage.Gone x t w.store.apps past) :
    ∃ past', (stage.turn now w).1.Gone x t (stage.turn now w).2.store.apps past' := by
  obtain ⟨hleft, hu, hafter⟩ := h
  cases stage with
  | finished u | panicked => exact ⟨past, hleft, hu, hafter⟩
  | asleep wake next =>
    by_cases hwake : wake ≤ now
    · simpa only [Stage.turn, if_pos hwake] using gone_turn now hu hafter hleft
    · exact ⟨past, by simpa [Stage.turn, hwake] using hleft, hu, by simpa [Stage.turn, hwake] using hafter⟩
  | waiting exchange next =>
    obtain ⟨w', r, hfound, hleft⟩ := hleft
    simp only [Stage.turn]
    split
    · rename_i replies _ _ _
      exact ⟨_, .snoc (.ask w' r replies) hu hfound hafter (hleft replies)⟩
    · exact ⟨past, ⟨w', r, hfound, hleft⟩, hu, hafter⟩
  | surveying exchanges report next =>
    have happs := w.pollSurvey_apps now exchanges report
    obtain ⟨w', records, timeoutMs, hfound, hleft⟩ := hleft
    simp only [Stage.turn]
    split <;> rename_i heq <;> rw [heq] at happs
    · rename_i report _
      exact ⟨_, .snoc (.survey w' records timeoutMs report) hu hfound (hafter.trans happs.symm)
        (hleft report)⟩
    · exact ⟨past, ⟨w', records, timeoutMs, hfound, hleft⟩, hu, hafter.trans happs.symm⟩

/-- What the next turn sends is a step of a course, and finds the applications as they are. -/
theorem Gone.sends {m : Sent} (h : stage.Gone x t w.store.apps past) (hm : m ∈ stage.sends now w) :
    ∃ s rest o, x.Ends (past ++ s :: rest) o ∧ t.Undisturbed (past ++ s :: rest) ∧
      s.finds w.store.apps ∧ s.Sends m.subject m.payload := by
  obtain ⟨hleft, hu, hafter⟩ := h
  have hcourse (s : Step) (next : Activity Unit) (hfinds : s.finds w.store.apps)
      (hsends : s.Sends m.subject m.payload)
      (hleft : ∀ rest o, next.Ends rest o → x.Ends (past ++ s :: rest) o) :
      ∃ s rest o, x.Ends (past ++ s :: rest) o ∧ t.Undisturbed (past ++ s :: rest) ∧
        s.finds w.store.apps ∧ s.Sends m.subject m.payload := by
    obtain ⟨rest, o, hrest, hurest⟩ := next.exists_ends (s.leaves w.store.apps)
    refine ⟨s, rest, o, hleft rest o hrest, Table.undisturbed_append.2 ⟨hu, ?_⟩, hfinds, hsends⟩
    rw [hafter]
    exact ⟨hfinds, hurest⟩
  unfold Stage.sends at hm
  split at hm
  · split at hm
    · rename_i subject payload next _
      obtain rfl := List.mem_singleton.1 hm
      exact hcourse (.act w (.publish subject payload)) _ rfl ⟨rfl, rfl⟩ fun rest o hrest =>
        hleft _ o hrest.act
    · cases hm
  · split at hm
    · rename_i r next _
      obtain rfl := List.mem_singleton.1 hm
      by_cases hawaits : w.Awaits r
      · exact hcourse (.ask w r (.ok [])) _ rfl ⟨rfl, rfl⟩ fun rest o hrest =>
          hleft _ o (hrest.ask hawaits)
      · refine ⟨.lost w r, [], none, hleft _ none (Activity.ends_lost hawaits), ?_, rfl, rfl, rfl⟩
        exact Table.undisturbed_append.2 ⟨hu, hafter.symm, trivial⟩
    · cases hm
  · split at hm
    · rename_i records timeoutMs next _
      obtain ⟨r, hr, rfl⟩ := List.mem_map.1 hm
      exact hcourse (.survey w records timeoutMs ⟨0, 0⟩) _ rfl ⟨r, hr, rfl, rfl⟩ fun rest o hrest =>
        hleft _ o hrest.survey
    · cases hm
  · cases hm

end Stage

namespace Fleet

/-- All is over but the call after the first `j` events, and that has gone these steps. -/
structure Latest (config : Config) (w : World) (es : List Event) (j : Nat) (c : Call)
    (ended : List Task) (t : Task) (past : List Step) : Prop where
  called : es[j]? = some (.call c)
  index : ended.length = (run config (start w) (es.take j)).tasks.length
  tasks : (run config (start w) es).tasks = ended ++ [t]
  ended : ∀ t ∈ ended, t.stage.isOver
  gone : t.stage.Gone (c.activity config) (run config (start w) (es.take j)).apps
    (run config (start w) es).apps past

variable {ok : Fleet → Event → Bool} {config : Config} {es : List Event} {e : Event} {j k : Nat}
  {c : Call} {ended : List Task} {task : Task}

theorem throughout_append {s : Fleet} {es' : List Event} : throughout ok config s (es ++ es') ↔
    throughout ok config s es ∧ throughout ok config (run config s es) es' := by
  simp [throughout, log_append]

theorem throughout_take {s : Fleet} (h : throughout ok config s es) (k : Nat) :
    throughout ok config s (es.take k) := by
  rw [← List.take_append_drop k es] at h
  exact (throughout_append.1 h).1

theorem Latest.snoc (h : Latest config w es j c ended task past) {t' : Task} {past' : List Step}
    (htasks : (run config (start w) (es ++ [e])).tasks = ended ++ [t'])
    (hgone : t'.stage.Gone (c.activity config) (run config (start w) (es.take j)).apps
      (run config (start w) (es ++ [e])).apps past') :
    Latest config w (es ++ [e]) j c ended t' past' := by
  have hj : j < es.length := (List.getElem?_eq_some_iff.1 h.called).1
  have htake : (es ++ [e]).take j = es.take j := List.take_append_of_le_length (Nat.le_of_lt hj)
  exact ⟨by rw [List.getElem?_append_left hj]; exact h.called, by rw [htake]; exact h.index, htasks,
    h.ended, by rw [htake]; exact hgone⟩

theorem Latest.turn (h : Latest config w es j c ended task past) (i : Nat) :
    ∃ t' past', Latest config w (es ++ [.turn i]) j c ended t' past' := by
  have hstep : run config (start w) (es ++ [.turn i]) = (run config (start w) es).takeTurn i :=
    run_snoc ..
  have hsame (hno : (run config (start w) es).takeTurn i = run config (start w) es) :
      ∃ t' past', Latest config w (es ++ [.turn i]) j c ended t' past' :=
    ⟨task, past, h.snoc (by rw [hstep, hno]; exact h.tasks) (by rw [hstep, hno]; exact h.gone)⟩
  rcases Nat.lt_trichotomy i ended.length with hi | rfl | hi
  · refine hsame (takeTurn_of_isOver ?_ (h.ended _ (List.getElem_mem hi)))
    rw [h.tasks, List.getElem?_append_left hi, List.getElem?_eq_getElem hi]
  · set s := run config (start w) es
    obtain ⟨past', hgone⟩ := h.gone.turn s.now
    have hturn : s.takeTurn ended.length = { s with
        world := (task.stage.turn s.now s.world).2
        tasks := ended ++ [{ task with
          asked := task.asked ++ (task.stage.request? s.now).toList
          stage := (task.stage.turn s.now s.world).1 }] } := by
      simp [takeTurn, h.tasks, s]
    exact ⟨_, past', h.snoc (by rw [hstep, hturn]) (by rw [hstep, hturn]; exact hgone)⟩
  · exact hsame (takeTurn_of_none (List.getElem?_eq_none (by simp [h.tasks]; omega)))

/-- With calls that come one at a time there is a latest one, once there is any. -/
theorem latest_run (hok : ∀ s c, ok s (.call c) → s.isIdle) (h : throughout ok config (start w) es) :
    (run config (start w) es).tasks = [] ∨
      ∃ j c ended t past, Latest config w es j c ended t past := by
  induction es using List.reverseRecOn with
  | nil => exact .inl rfl
  | append_singleton es e ih =>
    obtain ⟨hes, he⟩ := throughout_snoc.1 h
    have hother (htasks : (run config (start w) (es ++ [e])).tasks = (run config (start w) es).tasks)
        (happs : (run config (start w) (es ++ [e])).apps = (run config (start w) es).apps) :
        (run config (start w) (es ++ [e])).tasks = [] ∨
          ∃ j c ended t past, Latest config w (es ++ [e]) j c ended t past := by
      refine (ih hes).imp (fun hnone => by rw [htasks, hnone]) ?_
      rintro ⟨j, c, ended, t, past, hlatest⟩
      exact ⟨j, c, ended, t, past, hlatest.snoc (by rw [htasks]; exact hlatest.tasks)
        (by rw [happs]; exact hlatest.gone)⟩
    cases e with
    | call c =>
      have hidle := List.all_eq_true.1 (hok _ c he)
      let begun : Task := ⟨c, [], .asleep (run config (start w) es).now (c.activity config)⟩
      refine .inr ⟨es.length, c, _, begun, [], by simp, ?_, by rw [run_snoc]; rfl, hidle, ?_⟩
      · rw [List.take_left' rfl]
      · rw [run_snoc, List.take_left' rfl]
        exact ⟨fun rest o hrest => hrest, trivial, rfl⟩
    | turn i =>
      rcases ih hes with hnone | ⟨j, c, ended, t, past, hlatest⟩
      · refine .inl ?_
        rw [run_snoc, step, takeTurn_of_none (by simp [hnone]), hnone]
      · obtain ⟨t', past', hlatest'⟩ := hlatest.turn i
        exact .inr ⟨j, c, ended, t', past', hlatest'⟩
    | _ => exact hother (by rw [run_snoc]; rfl) (by rw [run_snoc]; rfl)

theorem Latest.sends (h : Latest config w es j c ended task past) {i : Nat} {m : Sent}
    (hm : m ∈ (run config (start w) es).sends (.turn i)) : i = ended.length ∧
      ∃ s steps o, s ∈ steps ∧ (c.activity config).Ends steps o ∧
        (run config (start w) (es.take j)).apps.Undisturbed steps ∧
        s.finds (run config (start w) es).apps ∧ s.Sends m.subject m.payload := by
  rcases Nat.lt_trichotomy i ended.length with hi | rfl | hi
  · have hover := h.ended _ (List.getElem_mem hi)
    simp only [Fleet.sends, h.tasks, List.getElem?_append_left hi, List.getElem?_eq_getElem hi,
      Option.elim_some] at hm
    cases hstage : ended[i].stage with
    | finished u | panicked => simp [hstage, Stage.sends] at hm
    | _ => simp [hstage, Stage.isOver] at hover
  · simp only [Fleet.sends, h.tasks, List.getElem?_concat_length, Option.elim_some] at hm
    obtain ⟨s, rest, o, hends, hu, hfinds, hsends⟩ := h.gone.sends hm
    exact ⟨rfl, s, _, o, List.mem_append_right _ List.mem_cons_self, hends, hu, hfinds, hsends⟩
  · have hnone : (ended ++ [task])[i]? = none := List.getElem?_eq_none (by simp; omega)
    simp [Fleet.sends, h.tasks, hnone] at hm

end Fleet

end AppFleet
