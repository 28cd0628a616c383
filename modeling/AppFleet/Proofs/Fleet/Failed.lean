import AppFleet.Proofs.Dispatch.Tuned
import AppFleet.Proofs.Fleet.Course
import AppFleet.Proofs.Message.RoundTrip

/-! Applications whose package has failed. With updates and messages that come one at a time a failure
lasts until there are other bits; meanwhile nothing is staged, and nothing is started that would have to
be staged. A change of the instances is scaled all the same. -/

namespace AppFleet

def Application.FailedFor (reason : Option String) (a : Application) : Prop :=
  a.stagingFailed ∧ a.stagingFailure = reason

instance (reason : Option String) : DecidablePred (Application.FailedFor reason) := fun a =>
  inferInstanceAs (Decidable (a.stagingFailed = true ∧ a.stagingFailure = reason))

/-- What is sent to bring instances of an application into service, and when. -/
inductive Application.Served (scales : Application → Prop) (a : Application) : String → Json → Prop where
  | stage : a.isUnstaged → Served scales a Subject.stagerStage (StageRequest.codec.write (.ofApp a))
  | start (indices : List UInt32) : a.isStarted → (a.stagingFailed → ¬ a.needsStaging) →
      Served scales a Subject.nodeStart (RunCommand.codec.write { RunCommand.ofApp a with indices })
  | scale : a.isStarted → scales a →
      Served scales a Subject.nodeScale (RunCommand.codec.write (.ofApp a))

/-- The subjects on which instances are brought into service. -/
def Subject.serving : List String := [stagerStage, nodeStart, nodeScale]

variable {config : Config} {w : World} {app : AppId} {reason : Option String} {c : Call}
  {scales : Application → Prop} {t : Table Application}

theorem Step.Proper.served {s : Step} {subject : String} {payload : Json}
    (h : s.Proper config.staging app scales) (hsends : s.Sends subject payload) (hfinds : s.finds t)
    (hsubject : subject ∈ Subject.serving) :
    ∃ a, t.get? app = some a ∧ a.id = app ∧ a.Served scales subject payload := by
  cases h with
  | plain hplain =>
    have hrunning : subject ∈ Subject.running := by
      simp only [Subject.serving, List.mem_cons, List.not_mem_nil, or_false] at hsubject
      rcases hsubject with rfl | rfl | rfl <;> decide
    cases s with
    | act w action =>
      cases action with
      | publish told content =>
        obtain ⟨rfl, -⟩ := hsends
        exact absurd hrunning hplain
      | _ => exact hsends.elim
    | pause ms => exact hsends.elim
    | _ => exact hplain.elim
  | stop =>
    obtain ⟨rfl, -⟩ := hsends
    exact absurd hsubject (by decide)
  | stage ha hwaits =>
    obtain ⟨rfl, rfl⟩ := hsends
    cases hfinds
    exact ⟨_, ha.1, ha.2, .stage hwaits⟩
  | lost ha hwaits =>
    obtain ⟨rfl, rfl⟩ := hsends
    cases hfinds
    exact ⟨_, ha.1, ha.2, .stage hwaits⟩
  | start ha hs hready =>
    obtain ⟨rfl, rfl⟩ := hsends
    cases hfinds
    exact ⟨_, ha.1, ha.2, .start _ hs hready⟩
  | scale ha hs hscale =>
    obtain ⟨rfl, rfl⟩ := hsends
    cases hfinds
    exact ⟨_, ha.1, ha.2, .scale hs hscale⟩
  | updated =>
    obtain ⟨rfl, -⟩ := hsends
    exact absurd hsubject (by decide)
  | live =>
    obtain ⟨rfl, -⟩ := hsends
    exact absurd hsubject (by decide)

namespace Application

theorem Served.mono {scales' : Application → Prop} {a : Application} {subject : String} {payload : Json}
    (h : a.Served scales subject payload) (hscales : scales a → scales' a) :
    a.Served scales' subject payload := by
  cases h with
  | stage hwaits => exact .stage hwaits
  | start indices hs hready => exact .start indices hs hready
  | scale hs hscale => exact .scale hs (hscales hscale)

section

variable {a : Application} {subject : String} {payload : Json} (h : a.Served scales subject payload)
include h

theorem Served.of_stage (hsubject : subject = Subject.stagerStage) :
    payload = StageRequest.codec.write (.ofApp a) ∧ a.isUnstaged := by
  cases h with
  | stage hwaits => exact ⟨rfl, hwaits⟩
  | _ => exact absurd hsubject (by decide)

theorem Served.of_start (hsubject : subject = Subject.nodeStart) :
    (∃ indices, payload = RunCommand.codec.write { RunCommand.ofApp a with indices }) ∧ a.isStarted ∧
      (a.stagingFailed → ¬ a.needsStaging) := by
  cases h with
  | start indices hs hready => exact ⟨⟨indices, rfl⟩, hs, hready⟩
  | _ => exact absurd hsubject (by decide)

theorem Served.of_scale (hsubject : subject = Subject.nodeScale) :
    payload = RunCommand.codec.write (.ofApp a) ∧ a.isStarted ∧ scales a := by
  cases h with
  | scale hs hscale => exact ⟨rfl, hs, hscale⟩
  | _ => exact absurd hsubject (by decide)

end

/-- What has failed and is not started as unstaged has no bits, or wants no instances. -/
theorem FailedFor.not_needsStaging {a : Application} (ha : a.FailedFor reason) (hs : a.isStarted)
    (h : ¬ a.needsStaging) : a.packageHash = none ∨ a.instances = 0 := by
  have hstaged : a.isStaged = false := by
    have hfailed : a.package = .failed := by simpa [FailedFor, stagingFailed] using ha.1
    simp [isStaged, hfailed]
  simpa [needsStaging, bitsUploaded, hstaged, hs, UInt32.pos_iff_ne_zero, or_iff_not_imp_left,
    Option.isSome_iff_ne_none] using h

theorem apply_failed {a b : Application} {u : Update} (ha : a.FailedFor reason)
    (h : a.apply u = .ok b) : b.FailedFor reason ∨ b.isPending := by
  rw [settle_frame h]
  rcases assign_package a u with ⟨hpending, -⟩ | ⟨hpackage, hfailure⟩
  · right
    simp [isPending, hpending]
  · left
    simpa [FailedFor, stagingFailed, hpackage, hfailure] using ha

/-- A verdict is for what is pending. -/
theorem not_verdict_of_failed {a b : Application} {mark : Application → Except Fault Application}
    (ha : a.FailedFor reason) (hm : IsVerdict mark) : mark a ≠ .ok b := by
  intro h
  have hpending : a.package = .pending := by
    cases hm with
    | staged result => exact ((markStaged_ok_iff a b result).1 h).1
    | failed reason => exact ((markFailed_ok_iff a b reason).1 h).1
  simp [FailedFor, stagingFailed, hpending] at ha

end Application

/-- A failure outlives whatever is written and noted, unless the package is pending again. -/
theorem Call.keeps_failed {change : Application → Except Fault Application}
    (h : c.Writes (.changeApp app change) ∨ Action.Notes (.changeApp app change)) {a b : Application}
    (ha : a.FailedFor reason) (hb : change a = .ok b) : b.FailedFor reason ∨ b.isPending := by
  rcases h with h | h
  · cases h with
    | update app u => exact Application.apply_failed ha hb
    | adjust e app counts =>
      simp only [Respondent.adjusted] at hb
      split at hb
      · cases hb
        exact .inl ha
      · exact Application.apply_failed ha hb
    | scaleUp e app target => exact Application.apply_failed ha hb
  · cases h with
    | verdict app mark hm => exact absurd hb (Application.not_verdict_of_failed ha hm)
    | routesPushed app =>
      cases hb
      exact .inl ha

/-- Updates and messages remove no application that has failed, and put no other in its place. -/
theorem World.perform_failed {action : Action} (hc : c.tunes)
    (h : action.Quiet ∨ c.Writes action ∨ action.Notes)
    (hfailed : Is (·.FailedFor reason) (w.store.apps.get? app)) :
    Is (fun a => a.FailedFor reason ∨ a.isPending) ((w.perform action).2.store.apps.get? app) := by
  obtain ⟨a, ha, hfailed⟩ := hfailed
  have hsame : Is (fun a => a.FailedFor reason ∨ a.isPending) (w.store.apps.get? app) :=
    ⟨a, ha, .inl hfailed⟩
  rcases h with hquiet | h
  · rw [w.perform_quiet hquiet]
    exact hsame
  · cases action with
    | changeApp id change =>
      simp only [perform]
      rcases w.store.changeApp_cases w.wallClock id change with ⟨_, r, -, -, heq⟩ | ⟨-, heq⟩ |
        ⟨before, made, after, hb, hm, hstamp, -, hself, hother⟩
      · rw [heq]
        exact hsame
      · rw [heq]
        exact hsame
      · by_cases hid : app = id
        · subst hid
          cases ha.symm.trans hb
          have hkept := Call.keeps_failed h hfailed hm
          exact ⟨after, hself, by rw [hstamp]; exact hkept⟩
        · rw [hother app hid]
          exact hsame
    | putApp a =>
      rcases h with h | h
      · cases h
        cases hc
      · cases h
    | removeApp id =>
      rcases h with h | h
      · cases h
        cases hc
      · cases h
    | _ => rcases h with h | h <;> cases h

namespace Fleet

/-- Updates and messages, each when all before it are over. -/
def inTurn (s : Fleet) : Event → Bool
  | .call c => s.isIdle && c.tunes
  | _ => true

section

variable (config : Config) (w : World) (es : List Event)

/-- After the first `n` events the package has failed, and it is not pending again by the first `k`. -/
structure NotRestaged (n k : Nat) (app : AppId) (reason : Option String) : Prop where
  le : n ≤ k
  failed : AppIs config w es n app (·.FailedFor reason)
  since : ∀ j, n ≤ j → j ≤ k → ¬ AppIs config w es j app (·.isPending)

/-- Some call is that of this task, and has made the instances of the application what they are. -/
def ScaledBy (k i : Nat) (a : Application) : Prop :=
  ∃ j < k, CallsAt config w es j (fun t _ => t.Rescaled a) ∧
    (run config (start w) (es.take j)).tasks.length = i

end

variable {ok : Fleet → Event → Bool} {s : Fleet} {es : List Event} {e : Event} {i k n : Nat}

theorem throughout_getElem (h : throughout ok config s es) (he : es[n]? = some e) :
    ok (run config s (es.take n)) e := by
  have htake : es.take (n + 1) = es.take n ++ [e] := by
    rw [List.take_add_one, he, Option.toList_some]
  have hn := throughout_take h (n + 1)
  rw [htake] at hn
  exact (throughout_snoc.1 hn).2

theorem tunes_of_task (h : throughout inTurn config (start w) es) {t : Task}
    (ht : t ∈ (run config (start w) es).tasks) : t.call.tunes := by
  induction es using List.reverseRecOn generalizing t with
  | nil => cases ht
  | append_singleton es e ih =>
    obtain ⟨hes, he⟩ := throughout_snoc.1 h
    obtain ⟨i, hi⟩ := List.mem_iff_getElem?.1 ht
    rw [run_snoc] at hi
    by_cases hlt : i < (run config (start w) es).tasks.length
    · have hbefore := ih hes (List.getElem_mem hlt)
      by_cases hturn : e = .turn i
      · subst hturn
        rw [step, takeTurn_task (List.getElem?_eq_getElem hlt)] at hi
        cases hi
        exact hbefore
      · rw [step_task_of_ne hturn hlt, List.getElem?_eq_getElem hlt] at hi
        cases hi
        exact hbefore
    · obtain ⟨c, rfl, -, rfl⟩ := step_new_task hi hlt
      exact (Bool.and_eq_true_iff.1 he).2

theorem failed_succ (hw : w.store.apps.Holds fun _ => True)
    (hes : throughout inTurn config (start w) es) (h : AppIs config w es n app (·.FailedFor reason)) :
    AppIs config w es (n + 1) app fun a => a.FailedFor reason ∨ a.isPending := by
  have hsame : AppIs config w es n app fun a => a.FailedFor reason ∨ a.isPending :=
    h.imp fun a ha => ⟨ha.1, .inl ha.2⟩
  unfold AppIs appAt at hsame ⊢
  rw [List.take_add_one]
  cases he : es[n]? with
  | none => simpa using hsame
  | some e =>
    rw [Option.toList_some, run_snoc]
    rcases step_apps config (run config (start w) (es.take n)) e with ⟨i, t, action, -, ht, ha, heq⟩ | heq
    · obtain ⟨g, -, hobeys⟩ := run_obeys hw (es.take n) ht
      have htunes := tunes_of_task (throughout_take hes n) (List.mem_of_getElem? ht)
      rw [heq]
      have happs := (hobeys.allows ha).1.apps.imp_right fun h => h.imp_left And.right
      exact World.perform_failed htunes happs h
    · rw [heq]
      exact hsame

/-- A failure lasts, with its reason, for as long as the package is not pending again. -/
theorem failed_run (hw : w.store.apps.Holds fun _ => True)
    (hes : throughout inTurn config (start w) es) (h : NotRestaged config w es n k app reason) :
    AppIs config w es k app (·.FailedFor reason) := by
  obtain ⟨hnk, hfailed, hsince⟩ := h
  induction hnk with
  | refl => exact hfailed
  | @step k hnk ih =>
    have hbefore := ih fun j hj hjk => hsince j hj (Nat.le_succ_of_le hjk)
    obtain ⟨a, ha, hkept | hpending⟩ := failed_succ hw hes hbefore
    · exact ⟨a, ha, hkept⟩
    · exact absurd ⟨a, ha, hpending⟩ (hsince (k + 1) (Nat.le_succ_of_le hnk) (Nat.le_refl _))

/-- What a turn sends to bring instances into service is about an application as it is stored, and it is
scaled only by the call that changed its instances. -/
theorem sends_stored (hw : w.store.apps.Holds fun _ => True)
    (hes : throughout inTurn config (start w) es) {m : Sent}
    (hm : m ∈ (run config (start w) (es.take k)).sends (.turn i))
    (hserving : m.subject ∈ Subject.serving) :
    ∃ a, appAt config w es k a.id = some a ∧
      a.Served (ScaledBy config w es k i) m.subject m.payload := by
  have hidle (s : Fleet) (c : Call) (h : inTurn s (.call c)) : s.isIdle := (Bool.and_eq_true_iff.1 h).1
  rcases latest_run hidle (throughout_take hes k) with hnone | ⟨j, c, ended, t, past, hlatest⟩
  · simp [sends, hnone] at hm
  · obtain ⟨rfl, s, steps, o, hs, hends, hu, hfinds, hsends⟩ := hlatest.sends hm
    have hj : j < k := by
      have hlt := (List.getElem?_eq_some_iff.1 hlatest.called).1
      rw [List.length_take] at hlt
      omega
    have htake : (es.take k).take j = es.take j := by rw [List.take_take, Nat.min_eq_left (by omega)]
    have hcalled : es[j]? = some (.call c) := by
      rw [← hlatest.called, List.getElem?_take_of_lt hj]
    have hindex := hlatest.index
    rw [htake] at hu hindex
    have hc : c.tunes := (Bool.and_eq_true_iff.1 (throughout_getElem hes hcalled)).2
    obtain ⟨id, hproper⟩ := Call.tuned hc (holds_run hw _) hends hu s hs
    obtain ⟨a, ha, rfl, hserved⟩ := hproper.served hsends hfinds hserving
    have hscaled (h : (run config (start w) (es.take j)).apps.Rescaled a) :
        ScaledBy config w es k ended.length a := ⟨j, hj, ⟨c, hcalled, h⟩, hindex.symm⟩
    exact ⟨a, ha, hserved.mono hscaled⟩

/-- A failed package stays so, with its reason, until it is pending again. Until then nobody is asked to
stage the application. It is started only if it has no bits or is to have no instances, so that it need
not be staged, and scaled only by a call that changed its instances. -/
theorem failed_stays_out (hw : w.store.apps.Holds fun _ => True)
    (hes : throughout inTurn config (start w) es) (h : NotRestaged config w es n k app reason) :
    AppIs config w es k app (·.FailedFor reason) ∧
    ∀ i m, m ∈ (run config (start w) (es.take k)).sends (.turn i) →
      (m.subject = Subject.stagerStage →
        ∃ q, StageRequest.codec.read m.payload = .ok q ∧ q.appId ≠ app) ∧
      (m.subject = Subject.nodeStart → ∃ cmd, RunCommand.codec.read m.payload = .ok cmd ∧
        (cmd.appId = app → AppIs config w es k app fun a =>
          cmd.instances = a.instances ∧ (a.packageHash = none ∨ a.instances = 0))) ∧
      (m.subject = Subject.nodeScale → ∃ cmd, RunCommand.codec.read m.payload = .ok cmd ∧
        (cmd.appId = app → AppIs config w es k app fun a =>
          cmd = .ofApp a ∧ a.isStarted ∧ ScaledBy config w es k i a)) := by
  have hfailed := failed_run hw hes h
  refine ⟨hfailed, fun i m hm => ⟨fun hsubject => ?_, fun hsubject => ?_, fun hsubject => ?_⟩⟩
  all_goals
    obtain ⟨a, ha, hserved⟩ := sends_stored hw hes hm (by rw [hsubject]; decide)
    have hsame (hid : a.id = app) : a.FailedFor reason := by
      obtain ⟨f, hf, hfails⟩ := hfailed
      rw [hid] at ha
      cases ha.symm.trans hf
      exact hfails
  · obtain ⟨hpayload, hwaits⟩ := hserved.of_stage hsubject
    refine ⟨.ofApp a, by rw [hpayload]; exact StageRequest.codec_faithful _, fun hid => ?_⟩
    simp [Application.isUnstaged, (hsame hid).1] at hwaits
  · obtain ⟨⟨indices, hpayload⟩, hs, hready⟩ := hserved.of_start hsubject
    refine ⟨_, by rw [hpayload]; exact RunCommand.codec_faithful _, fun hid => ?_⟩
    have hfails := hsame hid
    exact ⟨a, hid ▸ ha, rfl, hfails.not_needsStaging hs (hready hfails.1)⟩
  · obtain ⟨hpayload, hs, hscaled⟩ := hserved.of_scale hsubject
    refine ⟨_, by rw [hpayload]; exact RunCommand.codec_faithful _, fun hid => ?_⟩
    exact ⟨a, hid ▸ ha, rfl, hs, hscaled⟩

end Fleet

def Application.unbuilt : Application := Operation.run (.new "web" "web")
  [.apply { Update.empty with
    state := some .started
    packageHash := some "bits-1" },
   .markFailed "boom"]

def Application.bitless : Application := Operation.run (.new "web" "web") [.markFailed "boom"]

structure Sent.Spares (app : AppId) (m : Sent) : Prop where
  stage : ∀ q, m.subject = Subject.stagerStage → StageRequest.codec.read m.payload = .ok q →
    q.appId ≠ app
  start : ∀ cmd, m.subject = Subject.nodeStart → RunCommand.codec.read m.payload = .ok cmd →
    cmd.appId ≠ app
  scale : ∀ cmd, m.subject = Subject.nodeScale → RunCommand.codec.read m.payload = .ok cmd →
    cmd.appId = app → cmd.instances = 0

def Sent.runs (subject : String) (app : AppId) (count : UInt32) (m : Sent) : Bool :=
  m.subject = subject && (RunCommand.codec.read m.payload).toOption.any fun cmd =>
    cmd.appId = app && cmd.instances = count

theorem Sent.runs_iff {subject : String} {count : UInt32} {m : Sent} : m.runs subject app count ↔
    m.subject = subject ∧ ∃ cmd, RunCommand.codec.read m.payload = .ok cmd ∧ cmd.appId = app ∧
      cmd.instances = count := by
  simp only [runs, Bool.and_eq_true, decide_eq_true_eq]
  cases RunCommand.codec.read m.payload <;> simp [Except.toOption]

namespace Fleet

theorem NotRestaged.of_failed (hnk : n ≤ k)
    (h : ∀ j : Fin (k + 1), (appAt config w es j app).any (Application.FailedFor reason ·)) :
    NotRestaged config w es n k app reason := by
  have hfailed (j : Nat) (hj : j ≤ k) : AppIs config w es j app (·.FailedFor reason) := by
    obtain ⟨a, ha, hfails⟩ := (Option.any_eq_true _ _).1 (h ⟨j, by omega⟩)
    exact ⟨a, ha, of_decide_eq_true hfails⟩
  refine ⟨hnk, hfailed n hnk, fun j _ hj => ?_⟩
  rintro ⟨a, ha, hpending⟩
  obtain ⟨b, hb, hfails, -⟩ := hfailed j hj
  cases ha.symm.trans hb
  simp only [Application.stagingFailed, Application.isPending, decide_eq_true_eq] at hfails hpending
  cases hfails.symm.trans hpending

/-- An application is scaled to none, and gets more memory, so that it is rolled out. -/
def growUnbuilt : List Event :=
  [.call (.update "web" (.ofInstances 0)), .turn 0, .turn 0, .turn 0, .turn 0,
    .call (.update "web" { Update.empty with memoryMb := some 512 }), .turn 1, .turn 1, .turn 1]

theorem sends_growUnbuilt : throughout inTurn .default (start (.storing .unbuilt)) growUnbuilt ∧
    (∀ j : Fin 9, (appAt .default (.storing .unbuilt) growUnbuilt j "web").any
      (Application.FailedFor (some "boom") ·)) ∧
    ((run .default (start (.storing .unbuilt)) (growUnbuilt.take 8)).sends (.turn 1)).any
      (·.runs Subject.nodeStart "web" 0) := by
  decide +kernel

theorem failed_stays_out_web :
    ∃ m ∈ (run .default (start (.storing .unbuilt)) (growUnbuilt.take 8)).sends (.turn 1),
      m.subject = Subject.nodeStart ∧ ∃ cmd, RunCommand.codec.read m.payload = .ok cmd ∧
        cmd.instances = 0 ∧ AppIs .default (.storing .unbuilt) growUnbuilt 8 "web" fun a =>
          a.FailedFor (some "boom") ∧ (a.packageHash = none ∨ a.instances = 0) := by
  obtain ⟨hturns, hfailed, hsends⟩ := sends_growUnbuilt
  have hnot : NotRestaged .default (.storing .unbuilt) growUnbuilt 0 8 "web" (some "boom") :=
    .of_failed (by decide) hfailed
  obtain ⟨m, hm, hruns⟩ := List.any_eq_true.1 hsends
  obtain ⟨hsubject, cmd, hcmd, hid, hcount⟩ := Sent.runs_iff.1 hruns
  obtain ⟨⟨a, ha, hfails⟩, hall⟩ := failed_stays_out (World.holds_storing _) hturns hnot
  obtain ⟨cmd', hcmd', hout⟩ := (hall 1 m hm).2.1 hsubject
  cases hcmd.symm.trans hcmd'
  obtain ⟨b, hb, -, hneeds⟩ := hout hid
  cases ha.symm.trans hb
  exact ⟨m, hm, hsubject, cmd, hcmd, hcount, a, ha, hfails, hneeds⟩

def SparesFailed (subject : String) : Prop :=
  ∀ (config : Config) (w : World) (es : List Event) (n k i : Nat) (app : AppId) (reason : Option String)
    (m : Sent), w.store.apps.Holds (fun _ => True) → throughout inTurn config (start w) es →
    NotRestaged config w es n k app reason →
    m ∈ (run config (start w) (es.take k)).sends (.turn i) → m.subject = subject → m.Spares app

def scaleUnbuilt : List Event := [.call (.update "web" (.ofInstances 2)), .turn 0, .turn 0]

theorem sends_scaleUnbuilt : throughout inTurn .default (start (.storing .unbuilt)) scaleUnbuilt ∧
    (∀ j : Fin 3, (appAt .default (.storing .unbuilt) scaleUnbuilt j "web").any
      (Application.FailedFor (some "boom") ·)) ∧
    ((run .default (start (.storing .unbuilt)) (scaleUnbuilt.take 2)).sends (.turn 0)).any
      (·.runs Subject.nodeScale "web" 2) := by
  decide +kernel

def startBitless : List Event :=
  [.call (.update "web" { Update.empty with state := some .started }), .turn 0, .turn 0]

theorem sends_startBitless : throughout inTurn .default (start (.storing .bitless)) startBitless ∧
    (∀ j : Fin 3, (appAt .default (.storing .bitless) startBitless j "web").any
      (Application.FailedFor (some "boom") ·)) ∧
    ((run .default (start (.storing .bitless)) (startBitless.take 2)).sends (.turn 0)).any
      (·.runs Subject.nodeStart "web" 1) := by
  decide +kernel

theorem serves_failed : ¬ SparesFailed Subject.nodeScale ∧ ¬ SparesFailed Subject.nodeStart := by
  constructor
  · intro h
    obtain ⟨hturns, hfailed, hsends⟩ := sends_scaleUnbuilt
    obtain ⟨m, hm, hruns⟩ := List.any_eq_true.1 hsends
    obtain ⟨hsubject, cmd, hcmd, hid, hcount⟩ := Sent.runs_iff.1 hruns
    have hspares := h _ _ _ 0 2 0 "web" _ m (World.holds_storing _) hturns
      (.of_failed (by decide) hfailed) hm hsubject
    have hnone := hspares.scale cmd hsubject hcmd hid
    rw [hcount] at hnone
    cases hnone
  · intro h
    obtain ⟨hturns, hfailed, hsends⟩ := sends_startBitless
    obtain ⟨m, hm, hruns⟩ := List.any_eq_true.1 hsends
    obtain ⟨hsubject, cmd, hcmd, hid, -⟩ := Sent.runs_iff.1 hruns
    have hspares := h _ _ _ 0 2 0 "web" _ m (World.holds_storing _) hturns
      (.of_failed (by decide) hfailed) hm hsubject
    exact hspares.start cmd hsubject hcmd hid

end Fleet

end AppFleet
