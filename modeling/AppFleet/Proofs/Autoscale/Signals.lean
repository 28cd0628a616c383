import AppFleet.Autoscale.Policy
import AppFleet.Proofs.Dispatch.Recount
import AppFleet.Proofs.Fleet.Lawful

/-! Scaling up on signals, handled one after the other. Every decision is made on the application as it is
stored and on the time that was noted when it last grew; signals about others have no part in it. -/

namespace AppFleet

namespace Decision

variable {a : Application} {target : UInt32}

/-- Whatever is aimed at, an application grows, and not past its maximum. -/
theorem ofTarget_scaleTo {aim : UInt32} (h : ofTarget a aim = .scaleTo target) :
    a.instances < target ∧ ∀ most ∈ a.scaling.maxInstances, target ≤ most := by
  cases hmost : a.scaling.maxInstances with
  | none =>
    simp only [ofTarget, hmost] at h
    split at h
    · cases h
      exact ⟨‹_›, by simp⟩
    · cases h
  | some most =>
    simp only [ofTarget, hmost] at h
    split at h
    · cases h
      refine ⟨‹_›, ?_⟩
      simp only [Option.mem_def, Option.some.injEq, forall_eq', UInt32.le_iff_toNat_le, UInt32.toNat_min]
      omega
    · cases h

/-- With one place left, one instance is added, whatever is aimed at. -/
theorem ofTarget_of_last (hmost : a.scaling.maxInstances = some (successor a.instances))
    (habove : a.instances < successor a.instances) (aim : UInt32) :
    ofTarget a aim = .scaleTo (successor a.instances) := by
  have hle : min (max aim (successor a.instances)) (successor a.instances) = successor a.instances := by
    simp only [← UInt32.toNat_inj, UInt32.toNat_min, UInt32.toNat_max]
    omega
  simp [ofTarget, hmost, hle, habove]

theorem make_scaleTo {cpu : Float} {cooldown now : UInt64} {last : Option UInt64}
    (h : make a cpu cooldown now last = .scaleTo target) :
    a.isStarted ∧ a.scaling.enabled ∧ isCooling cooldown now last = false ∧
      a.instances < target ∧ ∀ most ∈ a.scaling.maxInstances, target ≤ most := by
  unfold make at h
  simp only at h
  split at h
  · rename_i hmay
    simp only [mayGrow, Bool.and_eq_true, Bool.not_eq_true'] at hmay
    exact ⟨hmay.1.1.1.2, hmay.1.1.1.1, hmay.2, ofTarget_scaleTo h⟩
  · cases h

theorem make_bounded {cooldown now : UInt64} {last : Option UInt64}
    (h : isCooling cooldown now last = false) :
    make (.bounded 3) (Float.ofNat 100) cooldown now last = .scaleTo 3 := by
  have hmay : mayGrow (.bounded 3) && exceeds (Float.ofNat 100)
    (threshold (Application.bounded 3).scaling) := by decide +kernel
  simp only [make, hmay, h, Bool.not_false, Bool.and_self, if_true]
  exact ofTarget_of_last (by decide +kernel) (by decide +kernel) _

end Decision

theorem Activity.leads_findApp {w m : World} {steps : List Step} {app : AppId}
    {answer : Option Application} (h : (findApp app).Leads w steps answer m) :
    w.Later m ∧ steps = [.act m (.findApp app)] ∧ answer = w.store.apps.get? app := by
  obtain ⟨found, hfound, rfl, rfl, rfl⟩ := (leads_perform _ _).1 h
  exact ⟨hfound, rfl, by rw [← hfound.store]; rfl⟩

namespace ScalePolicy

open Activity

variable {p : ScalePolicy} {w w' m : World} {steps : List Step} {a : Application} {cpu : Float}
  {outcome : Except ScaleError Decision}

def carryOut (p : ScalePolicy) (app : AppId) : Decision → Activity (Except ScaleError Decision)
  | .noChange => return .ok .noChange
  | .scaleTo target => do
    match ← changeApp app (·.apply (.ofInstances target)) with
    | .error r => return .error (.rejected r)
    | .ok none => return .error (.vanished app)
    | .ok (some diff) =>
      perform (.noteScaleUp p.id app)
      let _ ← Dispatch.observe p.staging diff
      return .ok (.scaleTo target)

theorem scaleUp_eq (p : ScalePolicy) (app : AppId) (cpu : Float) : p.scaleUp app cpu = (do
    match ← findApp app with
    | none => return .error (.missing app)
    | some a => p.carryOut app (← p.evaluate a cpu)) := rfl

theorem evaluate_leads {decision : Decision} (h : (p.evaluate a cpu).Leads w steps decision m) :
    ∃ looked, w.Later m ∧ steps = [.act looked .clock, .act m (.lastScaleUp p.id a.id)] ∧
      decision = .make a cpu p.cooldown looked.clock ((w.scaleUps p.id).get? a.id) := by
  obtain ⟨own, rest, now, looked, rfl, hclock, hrest⟩ := (leads_bind _ _ _).1 h
  obtain ⟨looked, hlooked, rfl, rfl, rfl⟩ := (leads_perform _ _).1 hclock
  obtain ⟨last, hlast, rfl⟩ := (leads_bind_pure _ _ _).1 hrest
  obtain ⟨found, hfound, rfl, rfl, rfl⟩ := (leads_perform _ _).1 hlast
  have hlater := hlooked.trans hfound
  exact ⟨_, hlater, rfl, by rw [← hlater.scaleUps]; rfl⟩

theorem steady_handleSignal (p : Option ScalePolicy) (payload : Json) :
    (handleSignal p payload).Steady := by
  have hcarry (p : ScalePolicy) (app : AppId) (decision : Decision) :
      (p.carryOut app decision).Steady := by
    cases decision with
    | noChange => exact steady_pure _
    | scaleTo target =>
      refine Dispatch.steady_recount p.staging (fun a => a.apply_ofInstances_ne_overflow target)
        (fun a b => Application.apply_ofInstances_frame) (fun r => steady_pure _) (steady_pure _) ?_
      intro diff hobserve
      exact (steady_perform _).bind fun _ _ _ => hobserve.bind fun _ _ _ => steady_pure _
  unfold handleSignal
  split
  · refine Steady.bind ?_ fun _ _ _ => steady_pure _
    rw [scaleUp_eq]
    refine (steady_perform _).bind fun _ found _ => ?_
    cases found with
    | none => exact steady_pure _
    | some a =>
      have hevaluate (p : ScalePolicy) (cpu : Float) : (p.evaluate a cpu).Steady :=
        (steady_perform _).bind fun _ _ _ => (steady_perform _).bind fun _ _ _ => steady_pure _
      exact (hevaluate _ _).bind fun _ decision _ => hcarry _ _ decision
  · exact steady_pure _

/-- What the decision to grow leads to. -/
structure Grown (p : ScalePolicy) (w : World) (a : Application) (target : UInt32) (noted : UInt64)
    (w' : World) : Prop where
  stored : ∃ b, w'.store.apps.get? a.id = some b ∧ a.Recounts target b
  others : ∀ id, id ≠ a.id → w'.store.apps.get? id = w.store.apps.get? id
  told : ∃ news, w'.link.sent = w.link.sent ++ news ∧
    news.filter (·.subject ∈ Subject.orders) = [Dispatch.note w Subject.nodeScale
      (RunCommand.codec.write (.ofApp { a with instances := target }))]
  scaleUps : w'.scaleUps p.id = (w.scaleUps p.id).put a.id noted

theorem Grown.of_later {target : UInt32} {noted : UInt64} (h : p.Grown m a target noted w')
    (hlater : w.Later m) : p.Grown w a target noted w' where
  stored := h.stored
  others id hid := by rw [h.others id hid, hlater.store]
  told := by
    obtain ⟨news, hsent, horders⟩ := h.told
    rw [Dispatch.note, hlater.link] at horders
    exact ⟨news, by rw [hsent, hlater.link], horders⟩
  scaleUps := by rw [h.scaleUps, hlater.scaleUps]

theorem grow_leads {target : UInt32} (hstored : w.store.apps.get? a.id = some a) (ha : a.Lawful)
    (hs : a.isStarted) (habove : a.instances < target)
    (hwithin : ∀ most ∈ a.scaling.maxInstances, target ≤ most)
    (h : (p.carryOut a.id (.scaleTo target)).Leads w steps outcome w') :
    outcome = .ok (.scaleTo target) ∧ ∃ found noted rest,
      steps = .act found (.changeApp a.id (·.apply (.ofInstances target))) ::
        .act noted (.noteScaleUp p.id a.id) :: rest ∧ p.Grown w a target noted.clock w' := by
  have hne : target ≠ a.instances := Ne.symm (UInt32.ne_of_lt habove)
  have hchange : a.apply (.ofInstances target) = .ok { a with instances := target } := by
    rw [Application.apply_ofInstances ha, ha.reach_eq (UInt32.le_of_lt habove) hwithin]
  obtain ⟨own, rest, answer, m, rfl, hown, hrest⟩ := (leads_bind _ _ _).1 h
  obtain ⟨found, -, rfl, rfl, hputs⟩ := leads_recount hstored hchange hne hown
  obtain ⟨own, rest, u, m', rfl, hown, hrest⟩ := (leads_bind _ _ _).1 hrest
  obtain ⟨noted, hnoted, rfl, rfl, rfl⟩ := (leads_perform _ _).1 hown
  obtain ⟨reaction, hobserved, rfl⟩ := (leads_bind_pure _ _ _).1 hrest
  have hself : (noted.perform (.noteScaleUp p.id a.id)).2.store.apps.get? a.id =
      some (a.recounted target found.wallClock) := by
    rw [← hputs.self]
    exact congrArg (·.apps.get? a.id) hnoted.store
  have hdispatched := Dispatch.observe_recounted hne hself hobserved
  refine ⟨rfl, found, noted, rest, rfl, hdispatched.recounts, fun id hid => ?_, ?_, ?_⟩
  · calc w'.store.apps.get? id = noted.store.apps.get? id := hdispatched.others id hid
      _ = m.store.apps.get? id := by rw [hnoted.store]
      _ = w.store.apps.get? id := hputs.others id hid
  · obtain ⟨news, hsent, horders⟩ := hdispatched.sent
    have hlink : (noted.perform (.noteScaleUp p.id a.id)).2.link = w.link :=
      hnoted.link.trans hputs.link
    rw [if_pos hs, Dispatch.note, hlink] at horders
    exact ⟨news, by rw [hsent, hlink], horders⟩
  · have hbefore : noted.scaleUps = w.scaleUps := hnoted.scaleUps.trans hputs.scaleUps
    rw [hdispatched.scaleUps, ← hbefore]
    simp [World.perform, World.noteScaleUp]

theorem scaleUp_missing {app : AppId} (hstored : w.store.apps.get? app = none)
    (h : (p.scaleUp app cpu).Leads w steps outcome w') : outcome.toOption = none ∧ w.Later w' := by
  obtain ⟨own, rest, answer, found, rfl, hown, hrest⟩ := (leads_bind _ _ _).1 h
  obtain ⟨hfound, rfl, rfl⟩ := leads_findApp hown
  rw [hstored] at hrest
  obtain ⟨rfl, rfl, rfl⟩ := (leads_pure _ _).1 hrest
  exact ⟨rfl, hfound⟩

theorem scaleUp_leads (hstored : w.store.apps.get? a.id = some a) (ha : a.Lawful)
    (h : (p.scaleUp a.id cpu).Leads w steps outcome w') :
    ∃ decision found looked read rest, outcome = .ok decision ∧
      steps = .act found (.findApp a.id) :: .act looked .clock ::
        .act read (.lastScaleUp p.id a.id) :: rest ∧
      decision = .make a cpu p.cooldown looked.clock ((w.scaleUps p.id).get? a.id) ∧
      (decision = .noChange ∧ w.Later w' ∨ ∃ target changed noted more, decision = .scaleTo target ∧
        rest = .act changed (.changeApp a.id (·.apply (.ofInstances target))) ::
          .act noted (.noteScaleUp p.id a.id) :: more ∧ p.Grown w a target noted.clock w') := by
  obtain ⟨own, rest, answer, found, rfl, hown, hrest⟩ := (leads_bind _ _ _).1 h
  obtain ⟨hfound, rfl, rfl⟩ := leads_findApp hown
  rw [hstored] at hrest
  obtain ⟨own, rest, decision, m, rfl, hevaluate, hrest⟩ := (leads_bind _ _ _).1 hrest
  obtain ⟨looked, hread, rfl, hdecision⟩ := evaluate_leads hevaluate
  rw [hfound.scaleUps] at hdecision
  have hlater : w.Later m := hfound.trans hread
  cases decision with
  | noChange =>
    obtain ⟨rfl, rfl, rfl⟩ := (leads_pure _ _).1 hrest
    exact ⟨.noChange, found, looked, w', [], rfl, rfl, hdecision, .inl ⟨rfl, hlater⟩⟩
  | scaleTo target =>
    obtain ⟨hs, -, -, habove, hwithin⟩ := Decision.make_scaleTo hdecision.symm
    obtain ⟨rfl, changed, noted, more, rfl, hgrown⟩ :=
      grow_leads (by rw [hlater.store]; exact hstored) ha hs habove hwithin hrest
    refine ⟨.scaleTo target, found, looked, m, _, rfl, rfl, hdecision, .inr ?_⟩
    exact ⟨target, changed, noted, more, rfl, rfl, hgrown.of_later hlater⟩

end ScalePolicy

/-- A signal that was handled while nobody else acted. -/
structure Handling where
  before : World
  payload : Json
  steps : List Step
  decision : Option Decision
  after : World

namespace Handling

open Activity

variable (s : Handling)

def signal? : Option ScaleUpSignal := (ScaleUpSignal.codec.read s.payload).toOption

def decidedAt? : Option UInt64 := s.steps.findSome? fun
  | .act found .clock => some found.clock
  | _ => none

def notedAt? : Option UInt64 := s.steps.findSome? fun
  | .act found (.noteScaleUp ..) => some found.clock
  | _ => none

def scalesUp (app : AppId) : Bool :=
  s.signal?.any (·.appId = app) && (match s.decision with
    | some (.scaleTo _) => true
    | _ => false)

/-- The signal made this started application grow to the target, and its nodes were told once. Nothing
else was ordered, and nothing was stored of others. -/
structure Grows (p : ScalePolicy) (a : Application) (target : UInt32) (noted : UInt64) : Prop where
  found : s.before.store.apps.get? a.id = some a
  started : a.isStarted
  enabled : a.scaling.enabled
  above : a.instances < target
  within : ∀ most ∈ a.scaling.maxInstances, target ≤ most
  grown : p.Grown s.before a target noted s.after

def By (p : ScalePolicy) : Prop :=
  (ScalePolicy.handleSignal (some p) s.payload).Leads s.before s.steps s.decision s.after

variable {s : Handling} {p : ScalePolicy}

/-- A signal about no stored application is dropped. For any other it is decided by the clock, by what
is stored and by when the application last grew, and only a decision to grow changes anything. -/
theorem By.fares (h : s.By p) (hlawful : s.before.store.apps.Holds Application.Lawful) :
    (s.decision = none ∧ s.before.Later s.after ∧
      ∀ signal, s.signal? = some signal → s.before.store.apps.get? signal.appId = none) ∨
    ∃ signal a now, s.signal? = some signal ∧ signal.appId = a.id ∧
      s.before.store.apps.get? a.id = some a ∧ s.decidedAt? = some now ∧
      s.decision =
        some (.make a signal.cpu p.cooldown now ((s.before.scaleUps p.id).get? a.id)) ∧
      (s.decision = some .noChange ∧ s.before.Later s.after ∨
        ∃ target noted, s.decision = some (.scaleTo target) ∧ s.notedAt? = some noted ∧
          s.Grows p a target noted) := by
  obtain ⟨w, payload, steps, decision, w'⟩ := s
  simp only [By, ScalePolicy.handleSignal] at h
  simp only [signal?, decidedAt?, notedAt?] at *
  cases hread : ScaleUpSignal.codec.read payload with
  | error e =>
    rw [hread] at h
    obtain ⟨-, rfl, rfl⟩ := (leads_pure _ _).1 h
    exact .inl ⟨rfl, .refl _, by simp [Except.toOption]⟩
  | ok signal =>
    rw [hread] at h
    obtain ⟨outcome, hscale, rfl⟩ := (leads_bind_pure _ _ _).1 h
    cases hstored : w.store.apps.get? signal.appId with
    | none =>
      obtain ⟨hnone, hlater⟩ := ScalePolicy.scaleUp_missing hstored hscale
      exact .inl ⟨hnone, hlater, by simpa [Except.toOption] using hstored⟩
    | some a =>
      obtain ⟨hid, ha⟩ := hlawful _ _ hstored
      rw [← hid] at hstored hscale
      obtain ⟨decision, found, looked, read, rest, rfl, rfl, hdecision, hgrown⟩ :=
        ScalePolicy.scaleUp_leads hstored ha hscale
      refine .inr ⟨signal, a, looked.clock, rfl, hid.symm, hstored, rfl, congrArg some hdecision, ?_⟩
      rcases hgrown with ⟨rfl, hlater⟩ | ⟨target, changed, noted, more, rfl, rfl, hgrown⟩
      · exact .inl ⟨rfl, hlater⟩
      · obtain ⟨hs, he, -, habove, hwithin⟩ := Decision.make_scaleTo hdecision.symm
        exact .inr ⟨target, noted.clock, rfl, rfl, hstored, hs, he, habove, hwithin, hgrown⟩

theorem By.lawful (h : s.By p) (hlawful : s.before.store.apps.Holds Application.Lawful) :
    s.after.store.apps.Holds Application.Lawful := by
  rcases h.fares hlawful with
    ⟨-, hlater, -⟩ | ⟨_, a, _, -, -, ha, -, -, ⟨-, hlater⟩ | ⟨target, _, -, -, hgrows⟩⟩
  · rw [hlater.store]
    exact hlawful
  · rw [hlater.store]
    exact hlawful
  · intro id b hb
    by_cases hid : id = a.id
    · subst hid
      obtain ⟨b', hb', hcounts⟩ := hgrows.grown.stored
      obtain ⟨-, hla⟩ := hlawful _ _ ha
      have hmade := Application.Lawful.ofInstances hla target
      rw [hla.reach_eq (UInt32.le_of_lt hgrows.above) hgrows.within] at hmade
      cases hb.symm.trans hb'
      exact ⟨hcounts.id, hcounts.lawful hmade⟩
    · rw [hgrows.grown.others id hid] at hb
      exact hlawful id b hb

theorem scalesUp_iff {app : AppId} : s.scalesUp app ↔
    (∃ signal, s.signal? = some signal ∧ signal.appId = app) ∧
      ∃ target, s.decision = some (.scaleTo target) := by
  simp only [scalesUp, Bool.and_eq_true, Option.any_eq_true, decide_eq_true_eq]
  refine and_congr Iff.rfl ?_
  split <;> simp_all

/-- What is noted of an application changes only with a signal that makes it grow. -/
theorem By.notes (h : s.By p) (hlawful : s.before.store.apps.Holds Application.Lawful) (app : AppId) :
    (s.after.scaleUps p.id).get? app =
      if s.scalesUp app then s.notedAt? else (s.before.scaleUps p.id).get? app := by
  rcases h.fares hlawful with ⟨hnone, hlater, -⟩ |
    ⟨signal, a, -, hsignal, hid, -, -, -, ⟨hkept, hlater⟩ | ⟨target, noted, hdecision, hnoted, hgrows⟩⟩
  · rw [if_neg (by simp [scalesUp_iff, hnone]), hlater.scaleUps]
  · rw [if_neg (by simp [scalesUp_iff, hkept]), hlater.scaleUps]
  · rw [hgrows.grown.scaleUps]
    by_cases hself : app = a.id
    · subst hself
      rw [if_pos (scalesUp_iff.2 ⟨⟨signal, hsignal, hid⟩, target, hdecision⟩), hnoted]
      exact Table.get?_put_self _ _ _
    · have hother : ¬ s.scalesUp app := by
        rw [scalesUp_iff, hsignal]
        rintro ⟨⟨_, hsame, happ⟩, -⟩
        cases hsame
        exact hself (happ.symm.trans hid)
      rw [if_neg hother]
      exact Table.get?_put_of_ne _ _ hself

end Handling

namespace ScalePolicy

variable {p : ScalePolicy} {w w' : World} {s : Handling} {past rest hs : List Handling}

/-- Anything else may be done between signals that keeps the stored applications lawful. It is the
policy alone that notes when it made one grow. -/
structure Meanwhile (p : ScalePolicy) (w w' : World) : Prop where
  lawful : w.store.apps.Holds Application.Lawful → w'.store.apps.Holds Application.Lawful
  scaleUps : w'.scaleUps p.id = w.scaleUps p.id

def Handled (p : ScalePolicy) : World → List Handling → World → Prop
  | w, [], w' => p.Meanwhile w w'
  | w, s :: rest, w' => p.Meanwhile w s.before ∧ s.By p ∧ p.Handled s.after rest w'

theorem handled_append : p.Handled w (past ++ s :: rest) w' ↔
    p.Handled w past s.before ∧ s.By p ∧ p.Handled s.after rest w' := by
  induction past generalizing w with
  | nil => rfl
  | cons t past ih => simp only [List.cons_append, Handled, ih, and_assoc]

/-- When an application last grew, as it was noted for the last of these signals that made it grow. -/
def lastGrew (app : AppId) (last : Option UInt64) (past : List Handling) : Option UInt64 :=
  past.foldl (fun last s => if s.scalesUp app then s.notedAt? else last) last

theorem handled_notes (h : p.Handled w past w') (hlawful : w.store.apps.Holds Application.Lawful) :
    w'.store.apps.Holds Application.Lawful ∧ ∀ app, (w'.scaleUps p.id).get? app =
      lastGrew app ((w.scaleUps p.id).get? app) past := by
  induction past generalizing w with
  | nil => exact ⟨h.lawful hlawful, fun app => by rw [h.scaleUps]; rfl⟩
  | cons s past ih =>
    obtain ⟨hmeanwhile, hby, hrest⟩ := h
    have hbefore := hmeanwhile.lawful hlawful
    obtain ⟨hafter, hnotes⟩ := ih hrest (hby.lawful hbefore)
    refine ⟨hafter, fun app => ?_⟩
    rw [hnotes, hby.notes hbefore, hmeanwhile.scaleUps]
    rfl

/-- Signals about others, and those that do not make it grow, have no part in when it last grew. -/
theorem lastGrew_of_none {app : AppId} (h : ∀ s ∈ past, ¬ s.scalesUp app) (last : Option UInt64) :
    lastGrew app last past = last := by
  induction past generalizing last with
  | nil => rfl
  | cons s past ih =>
    have hs : ¬ s.scalesUp app := h s List.mem_cons_self
    simp only [lastGrew, List.foldl_cons, if_neg hs]
    exact ih (fun t ht => h t (List.mem_cons_of_mem _ ht)) last

theorem lastGrew_append (app : AppId) (last : Option UInt64) (past between : List Handling) :
    lastGrew app last (past ++ s :: between) =
      lastGrew app (if s.scalesUp app then s.notedAt? else lastGrew app last past) between := by
  simp [lastGrew]

/-- Every decision is about the application as it is stored, at the time of the clock, and knows when
it last grew. -/
theorem Handled.decides (h : p.Handled w (past ++ s :: rest) w')
    (hlawful : w.store.apps.Holds Application.Lawful) {signal : ScaleUpSignal} {a : Application}
    (hsignal : s.signal? = some signal) (ha : s.before.store.apps.get? signal.appId = some a) :
    ∃ now, s.decidedAt? = some now ∧ s.decision = some (.make a signal.cpu p.cooldown now
      (lastGrew a.id ((w.scaleUps p.id).get? a.id) past)) := by
  obtain ⟨hpast, hby, -⟩ := handled_append.1 h
  obtain ⟨hbefore, hnotes⟩ := handled_notes hpast hlawful
  rw [← hnotes]
  rcases hby.fares hbefore with ⟨-, -, hmissing⟩ |
    ⟨signal', a', now, hsignal', hid, hstored, hdecided, hdecision, -⟩
  · rw [hmissing signal hsignal] at ha
    cases ha
  · cases hsignal.symm.trans hsignal'
    rw [← hid] at hstored
    cases ha.symm.trans hstored
    exact ⟨now, hdecided, hdecision⟩

/-- A signal that is accepted makes a started application grow to the target, once; any other changes
nothing, and none panics. An application is decided about by when it last grew itself, and between two
signals that make it grow the cooldown passes, though the clock may go back in between. -/
theorem grows_after_cooldown (h : p.Handled w hs w') (hlawful : w.store.apps.Holds Application.Lawful) :
    (∀ payload, (handleSignal (some p) payload).Steady) ∧
    (∀ past s rest, hs = past ++ s :: rest →
      (∀ target, s.decision = some (.scaleTo target) → ∃ a noted, s.scalesUp a.id ∧
        s.notedAt? = some noted ∧ s.Grows p a target noted) ∧
      ((∀ target, s.decision ≠ some (.scaleTo target)) → s.before.Later s.after) ∧
      ∀ signal a, s.signal? = some signal → s.before.store.apps.get? signal.appId = some a →
        ∃ now, s.decidedAt? = some now ∧ s.decision = some (.make a signal.cpu p.cooldown now
          (lastGrew a.id ((w.scaleUps p.id).get? a.id) past))) ∧
    ∀ app past first between second rest, hs = past ++ first :: (between ++ second :: rest) →
      0 < p.cooldown → first.scalesUp app → second.scalesUp app →
      (∀ s ∈ between, ¬ s.scalesUp app) →
      ∃ t₁ t₂, first.notedAt? = some t₁ ∧ second.decidedAt? = some t₂ ∧
        t₁.toNat + p.cooldown.toNat ≤ t₂.toNat := by
  have haccepted : ∀ past s rest, hs = past ++ s :: rest → ∀ target,
      s.decision = some (.scaleTo target) → ∃ a noted, s.scalesUp a.id ∧
        s.notedAt? = some noted ∧ s.Grows p a target noted := by
    rintro past s rest rfl target htarget
    obtain ⟨hpast, hby, -⟩ := handled_append.1 h
    rcases hby.fares (handled_notes hpast hlawful).1 with ⟨hnone, -, -⟩ |
      ⟨signal, a, -, hsignal, hid, -, -, -, ⟨hkept, -⟩ | ⟨_, noted, hdecision, hnoted, hgrows⟩⟩
    · cases htarget.symm.trans hnone
    · cases htarget.symm.trans hkept
    · cases htarget.symm.trans hdecision
      exact ⟨a, noted, Handling.scalesUp_iff.2 ⟨⟨signal, hsignal, hid⟩, target, htarget⟩, hnoted,
        hgrows⟩
  refine ⟨steady_handleSignal (some p), fun past s rest heq => ⟨haccepted past s rest heq, ?_, ?_⟩, ?_⟩
  · subst heq
    intro hkept
    obtain ⟨hpast, hby, -⟩ := handled_append.1 h
    rcases hby.fares (handled_notes hpast hlawful).1 with ⟨-, hlater, -⟩ |
      ⟨-, -, -, -, -, -, -, -, ⟨-, hlater⟩ | ⟨target, -, hdecision, -, -⟩⟩
    · exact hlater
    · exact hlater
    · exact absurd hdecision (hkept target)
  · subst heq
    exact fun signal a => h.decides hlawful
  · rintro app past first between second rest heq hpos hfirst hsecond hbetween
    have hmid : hs = (past ++ first :: between) ++ second :: rest := by simp [heq]
    obtain ⟨-, t, hfirst'⟩ := Handling.scalesUp_iff.1 hfirst
    obtain ⟨⟨signal, hsignal, happ⟩, target, htarget⟩ := Handling.scalesUp_iff.1 hsecond
    obtain ⟨_, t₁, -, hnoted, -⟩ := haccepted past first _ heq t hfirst'
    obtain ⟨a, _, hself, -, hgrows⟩ := haccepted _ second rest hmid target htarget
    obtain ⟨⟨_, hsame, hid⟩, -⟩ := Handling.scalesUp_iff.1 hself
    cases hsignal.symm.trans hsame
    have hfound := hgrows.found
    rw [← hid] at hfound
    subst hmid
    obtain ⟨t₂, hdecided, hdecision⟩ := h.decides hlawful hsignal hfound
    -- nothing in between makes it grow, so the second is decided by when the first was noted
    rw [← hid, happ, lastGrew_append, if_pos hfirst, lastGrew_of_none hbetween, hnoted] at hdecision
    have hgrew := Option.some.inj (htarget.symm.trans hdecision)
    obtain ⟨-, -, hcooled, -, -⟩ := Decision.make_scaleTo hgrew.symm
    simp only [Decision.isCooling, decide_eq_false_iff_not] at hcooled
    have hpos' : 0 < p.cooldown.toNat := UInt64.lt_iff_toNat_lt.1 hpos
    exact ⟨t₁, t₂, hnoted, hdecided, by omega⟩

def webPolicy : ScalePolicy := ⟨0, 60, .default⟩

def webBusy : Json := .object [("app_id", .string "web"), ("cpu_percent", .number (.natural 100))]

def webHandling (w : World) : Handling :=
  let course := (handleSignal (some webPolicy) webBusy).alone w
  ⟨w, webBusy, course.1, course.2.1.join, course.2.2⟩

def webLater (w : World) (clock : UInt64) : World :=
  { w with clock, store := (World.storing (.bounded 3)).store }

theorem webHandling_by (w : World) : (webHandling w).By webPolicy := by
  obtain ⟨decision, hdecision, hleads⟩ := (steady_handleSignal (some webPolicy) webBusy).leads_alone w
  rw [Handling.By, show (webHandling w).decision = decision from congrArg Option.join hdecision]
  exact hleads

theorem webHandling_decidedAt {w : World} {now : UInt64} (h : (webHandling w).decidedAt? = some now) :
    now = w.clock := by
  obtain ⟨step, hstep, hclock⟩ := List.exists_of_findSome?_eq_some h
  split at hclock <;> cases hclock
  exact Activity.clock_of_mem_alone hstep

theorem webHandling_notedAt {w : World} {noted : UInt64}
    (h : (webHandling w).notedAt? = some noted) : noted = w.clock := by
  obtain ⟨step, hstep, hclock⟩ := List.exists_of_findSome?_eq_some h
  split at hclock <;> cases hclock
  exact Activity.clock_of_mem_alone hstep

theorem webHandling_grows {w : World} {clock : UInt64}
    (hcooled : Decision.isCooling 60 clock ((w.scaleUps 0).get? "web") = false) :
    (webHandling (webLater w clock)).scalesUp "web" ∧
      (webHandling (webLater w clock)).notedAt? = some clock := by
  have hlawful : (webLater w clock).store.apps.Holds Application.Lawful :=
    World.holds_storing_bounded 3
  have hstored : (webLater w clock).store.apps.get? "web" = some (.bounded 3) := rfl
  rcases (webHandling_by (webLater w clock)).fares hlawful with ⟨-, -, hmissing⟩ |
    ⟨signal, a, now, hsignal, hid, hfound, hdecided, hdecision, hgrown⟩
  · cases (hmissing _ rfl).symm.trans hstored
  · cases hsignal
    change "web" = a.id at hid
    have ha : some a = some (.bounded 3) := by
      rw [← hfound, ← hid]
      exact hstored
    cases ha
    cases webHandling_decidedAt hdecided
    rw [← hid] at hdecision
    have hdecision' := hdecision.trans (congrArg some (Decision.make_bounded hcooled))
    rcases hgrown with ⟨hkept, -⟩ | ⟨target, noted, -, hnoted, -⟩
    · cases hkept.symm.trans hdecision'
    · rw [webHandling_notedAt hnoted] at hnoted
      exact ⟨Handling.scalesUp_iff.2 ⟨⟨_, rfl, rfl⟩, _, hdecision'⟩, hnoted⟩

/-- With a cooldown of a minute, two signals make it grow that are a minute apart. -/
theorem grows_after_cooldown_web :
    let first := webHandling (webLater (.initial 0 0 0) 1000)
    let second := webHandling (webLater first.after 1060)
    first.scalesUp "web" ∧ second.scalesUp "web" ∧ ∃ t₁ t₂, first.notedAt? = some t₁ ∧
      second.decidedAt? = some t₂ ∧ t₁.toNat + 60 ≤ t₂.toNat := by
  intro first second
  have hempty : (World.initial 0 0 0).store.apps.Holds Application.Lawful := Table.holds_empty _
  have hmeanwhile (w : World) (clock : UInt64) : webPolicy.Meanwhile w (webLater w clock) :=
    ⟨fun _ => World.holds_storing_bounded 3, rfl⟩
  have hhandled : webPolicy.Handled (.initial 0 0 0) [first, second] second.after :=
    ⟨hmeanwhile _ _, webHandling_by _, hmeanwhile _ _, webHandling_by _, fun h => h, rfl⟩
  obtain ⟨hfirst, hnoted⟩ : first.scalesUp "web" ∧ first.notedAt? = some 1000 :=
    webHandling_grows rfl
  have hlast : (first.after.scaleUps 0).get? "web" = some 1000 := by
    have hby : first.By webPolicy := webHandling_by _
    have hnotes := hby.notes (World.holds_storing_bounded 3) "web"
    rwa [if_pos hfirst, hnoted] at hnotes
  obtain ⟨hsecond, -⟩ : second.scalesUp "web" ∧ second.notedAt? = some 1060 := by
    refine webHandling_grows ?_
    rw [hlast]
    rfl
  obtain ⟨-, -, hspaced⟩ := grows_after_cooldown hhandled hempty
  exact ⟨hfirst, hsecond, hspaced "web" [] first [] second [] rfl (by decide) hfirst hsecond (by simp)⟩

end ScalePolicy

end AppFleet
