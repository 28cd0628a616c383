import AppFleet.Proofs.Dispatch.Retries
import AppFleet.Proofs.Dispatch.Starts
import Mathlib.Data.List.Nodup

/-! What the nodes are told to start once an application is staged. The stager starts the first few
instances itself, as many as it likes, and others may rescale the application meanwhile. The nodes are
asked for the indices from there up to the count that is stored with the result: by a list of them, and
without one, for all that are missing, if the stager started none. -/

namespace AppFleet

/-- The indices that a command asks for, where those below `held` are not missing. -/
def RunCommand.asked (c : RunCommand) (held : UInt32) : List UInt32 :=
  if c.indices = [] then ((List.range c.instances.toNat).map UInt32.ofNat).filter (held ≤ ·)
  else c.indices

/-- How a command travels to the nodes. -/
def RunCommand.order (c : RunCommand) : String × Json := (Subject.nodeStart, codec.write c)

/-- These commands ask for the rest of an application, where the indices below `held` are not missing. -/
structure Completes (held : UInt32) (a : Application) (commands : List RunCommand) : Prop where
  none_held : held = 0 → commands = [.ofApp a]
  some_held : 0 < held → held < a.instances → ∃ indices, commands = [{ RunCommand.ofApp a with indices }] ∧
    indices.map UInt32.toNat = List.range' held.toNat (a.instances.toNat - held.toNat)
  all_held : 0 < held → a.instances ≤ held → commands = []
  once : ∀ index, (commands.flatMap (·.asked held)).count index =
    if held ≤ index ∧ index < a.instances then 1 else 0

/-- The stager was asked until it said what it had staged, and this is what was stored with that. -/
def Staging.Recorded (config : StagingConfig) (a : Application) (steps : List Step)
    (result : StagingResult) (stored : Application) : Prop :=
  ∃ asks w before rest, steps = asks ++ .act w (record a (.ok result)) :: rest ∧
    (∀ s ∈ asks, s.Asks (question config a)) ∧
    w.Moves (record a (.ok result)) a.id .staged before stored

variable {config : StagingConfig} {a stored : Application} {steps : List Step} {diff : Diff}
  {held : UInt32} {commands : List RunCommand} {result : StagingResult}

/-- An empty list is left out, and so never one that asks for everything by asking for nothing. -/
theorem RunCommand.lists_some (c : RunCommand) : (codec.write c).get? "indices" ≠ some (.array []) := by
  intro hempty
  have hindices : c.indices ≠ [] := by
    intro hnone
    rw [(leaves_out c).2 hnone] at hempty
    cases hempty
  have hlisted : (codec.write c).get? "indices" = some (.array (c.indices.map Codec.uint32.write)) := by
    refine (Keyed.lookup_sort ?_ "indices").trans ?_ <;>
      simp [Seq.seq, Fields.seq, Functor.map, Fields.map, Fields.required, Fields.optional,
        Fields.omitEmpty, Fields.field, Codec.list, hindices, List.lookup_cons]
  rw [hlisted] at hempty
  simp [hindices] at hempty

theorem map_toNat_indicesFrom (first instances : UInt32) :
    (Dispatch.indicesFrom first instances).map UInt32.toNat =
      List.range' first.toNat (instances.toNat - first.toNat) := by
  have hsmall : instances.toNat < 4294967296 := instances.toNat_lt
  rw [Dispatch.indicesFrom, List.map_map, List.range'_eq_map_range]
  refine List.map_congr_left fun i hi => ?_
  have hi : i < instances.toNat - first.toNat := List.mem_range.1 hi
  have hback : (UInt32.ofNat i).toNat = i := UInt32.toNat_ofNat_of_lt' (show i < 4294967296 by omega)
  rw [Function.comp_apply, UInt32.toNat_add, hback]
  omega

theorem count_of_map_toNat {indices : List UInt32} {first count : Nat}
    (h : indices.map UInt32.toNat = List.range' first count) (index : UInt32) :
    indices.count index = if first ≤ index.toNat ∧ index.toNat < first + count then 1 else 0 := by
  have hnodup : indices.Nodup := List.Nodup.of_map UInt32.toNat (h ▸ List.nodup_range')
  have hmem : index ∈ indices ↔ first ≤ index.toNat ∧ index.toNat < first + count := by
    rw [← List.mem_range'_1, ← h, List.mem_map_of_injective fun _ _ => UInt32.toNat_inj.1]
  rw [hnodup.count, if_congr hmem rfl rfl]

theorem count_indicesFrom (first instances index : UInt32) :
    (Dispatch.indicesFrom first instances).count index =
      if first ≤ index ∧ index < instances then 1 else 0 := by
  rw [count_of_map_toNat (map_toNat_indicesFrom first instances) index]
  simp only [UInt32.le_iff_toNat_le, UInt32.lt_iff_toNat_lt]
  exact if_congr (by omega) rfl rfl

theorem indicesFrom_eq_nil_iff {first instances : UInt32} :
    Dispatch.indicesFrom first instances = [] ↔ instances ≤ first := by
  rw [← List.map_eq_nil_iff, map_toNat_indicesFrom, List.range'_eq_nil_iff, Nat.sub_eq_zero_iff_le,
    UInt32.le_iff_toNat_le]

namespace Completes

/-- Without a list all are asked for, since none is there. -/
theorem of_none (a : Application) : Completes 0 a [.ofApp a] where
  none_held _ := rfl
  some_held h := absurd h (by decide)
  all_held h := absurd h (by decide)
  once index := by
    have hall : (RunCommand.ofApp a).asked 0 = Dispatch.indicesFrom 0 a.instances := by
      simp [RunCommand.asked, RunCommand.ofApp, Dispatch.indicesFrom]
    rw [List.flatMap_singleton, hall, count_indicesFrom]

theorem of_some (hheld : 0 < held) (hmore : held < a.instances) :
    Completes held a [{ RunCommand.ofApp a with indices := Dispatch.indicesFrom held a.instances }] where
  none_held h := absurd (h ▸ hheld) (by decide)
  some_held _ _ := ⟨_, rfl, map_toNat_indicesFrom held a.instances⟩
  all_held _ h := absurd hmore (UInt32.not_lt.2 h)
  once index := by
    have hlisted : Dispatch.indicesFrom held a.instances ≠ [] :=
      mt indicesFrom_eq_nil_iff.1 (UInt32.not_le.2 hmore)
    rw [List.flatMap_singleton, RunCommand.asked, if_neg hlisted, count_indicesFrom]

theorem of_all (hheld : 0 < held) (hall : a.instances ≤ held) : Completes held a [] where
  none_held h := absurd (h ▸ hheld) (by decide)
  some_held _ h := absurd h (UInt32.not_lt.2 hall)
  all_held _ _ := rfl
  once index := by
    have hnone : ¬ (held ≤ index ∧ index < a.instances) := by
      simp only [UInt32.le_iff_toNat_le, UInt32.lt_iff_toNat_lt] at hall ⊢
      omega
    rw [if_neg hnone]
    rfl

end Completes

theorem Step.Plain.order_none {s : Step} (h : s.Plain) : s.order? = none := by
  have hsub : Subject.nodeOrders ⊆ Subject.running := by decide
  cases s with
  | act w action =>
    cases action with
    | publish subject payload => exact if_neg fun horder => h (hsub horder)
    | _ => rfl
  | _ => rfl

theorem Step.Asks.order_none {q : Request} {s : Step} (h : s.Asks q) : s.order? = none := by
  cases s with
  | act w action => exact h.elim
  | _ => rfl

namespace Staging

theorem record_ok_inj {answer : Except StagingError StagingResult}
    (h : record a answer = record a (.ok result)) : answer = .ok result := by
  have hnew (r : StagingResult) : ((Application.new "" "").markStaged r).map (·.lastStaging) =
      .ok (some r) := rfl
  cases answer with
  | ok other =>
    have hmark := congrFun (Action.changeApp.inj h).2 (Application.new "" "")
    have hlast := congrArg (Except.map (·.lastStaging)) hmark
    rw [hnew other, hnew result] at hlast
    cases hlast
    rfl
  | error e =>
    have hfailed : ((Application.new "" "").markFailed e.message).map (·.lastStaging) = .ok none := rfl
    have hmark := congrFun (Action.changeApp.inj h).2 (Application.new "" "")
    have hlast := congrArg (Except.map (·.lastStaging)) hmark
    rw [hfailed, hnew result] at hlast
    cases hlast

theorem stageUpTo_answered {retries : Nat} {answered : Except StagingError StagingResult}
    (h : (stageUpTo config a retries).Goes steps answered) :
    ∃ w replies, .ask w (question config a) replies ∈ steps ∧ answered = answer config replies := by
  induction retries generalizing steps with
  | zero =>
    obtain ⟨w, reply, -, rfl, ⟨⟩⟩ | ⟨w, -, -, ⟨⟩⟩ := stage_ends.1 (Activity.ends_some.2 h)
    exact ⟨w, reply, List.mem_cons_self, rfl⟩
  | succ retries ih =>
    obtain ⟨w, reply, rest, -, rfl, hrest⟩ | ⟨w, -, -, ⟨⟩⟩ :=
      stageUpTo_succ_ends.1 (Activity.ends_some.2 h)
    split at hrest
    · obtain ⟨later, rfl, hlater⟩ := hrest
      obtain ⟨w', replies, hmem, rfl⟩ := ih hlater
      exact ⟨w', replies, by simp [hmem], rfl⟩
    · obtain ⟨rfl, ⟨⟩⟩ := hrest
      exact ⟨w, reply, List.mem_cons_self, rfl⟩

theorem stageWithRetry_answered {answered : Except StagingError StagingResult}
    (h : (stageWithRetry config a).Goes steps answered) :
    ∃ w replies, .ask w (question config a) replies ∈ steps ∧ answered = answer config replies := by
  rw [stageWithRetry_eq] at h
  split at h
  · exact h.elim
  · exact stageUpTo_answered h

theorem first_act {q : Request} {asks asks' rest rest' : List Step} {w w' : World} {x x' : Action}
    (h : asks ++ .act w x :: rest = asks' ++ .act w' x' :: rest') (hasks : ∀ s ∈ asks, s.Asks q)
    (hasks' : ∀ s ∈ asks', s.Asks q) : w = w' ∧ x = x' := by
  induction asks generalizing asks' with
  | nil =>
    cases asks' with
    | nil =>
      cases h
      exact ⟨rfl, rfl⟩
    | cons s asks' =>
      obtain ⟨rfl, -⟩ := List.cons.inj h
      exact (hasks' _ List.mem_cons_self).elim
  | cons s asks ih =>
    cases asks' with
    | nil =>
      obtain ⟨rfl, -⟩ := List.cons.inj h
      exact (hasks _ List.mem_cons_self).elim
    | cons s' asks' =>
      exact ih (List.cons.inj h).2 (fun s hs => hasks s (List.mem_cons_of_mem _ hs))
        fun s hs => hasks' s (List.mem_cons_of_mem _ hs)

/-- It is the first action that records. -/
theorem Recorded.first {asks rest : List Step} {w : World} {x : Action}
    (h : Recorded config a (asks ++ .act w x :: rest) result stored)
    (hasks : ∀ s ∈ asks, s.Asks (question config a)) :
    x = record a (.ok result) ∧ ∃ before, w.Moves x a.id .staged before stored := by
  obtain ⟨asks', w', before, rest', heq, hasks', hmoves⟩ := h
  obtain ⟨rfl, rfl⟩ := first_act heq hasks hasks'
  exact ⟨rfl, before, hmoves⟩

theorem Recorded.head {rest : List Step} {w : World} {x : Action}
    (h : Recorded config a (.act w x :: rest) result stored) : x = record a (.ok result) := by
  have h : Recorded config a ([] ++ .act w x :: rest) result stored := h
  exact (h.first (by simp)).1

theorem stored_unique {w : World} {action : Action} {app : AppId} {target : PackageState}
    {before before' other : Application} (h : w.Moves action app target before stored)
    (h' : w.Moves action app target before' other) : stored = other := by
  have hleft := congrArg (·.apps.get? app) (h.left.symm.trans h'.left)
  simpa [Table.get?_put_self] using hleft

end Staging

namespace Dispatch

open Activity

/-- What nodes are told in a course that is to start an application, which may have to be staged. -/
structure Starts (config : StagingConfig) (a : Application) (steps : List Step)
    (commands : List RunCommand) : Prop where
  orders : steps.filterMap Step.order? = commands.map RunCommand.order
  single : commands.length ≤ 1
  unneeded : ¬ a.needsStaging → commands = [.ofApp a]
  recorded : ∀ result stored, Staging.Recorded config a steps result stored →
    (∃ w replies, .ask w (Staging.question config a) replies ∈ steps ∧
      Staging.answer config replies = .ok result) ∧
    Completes result.instancesStarted stored commands
  unrecorded : a.needsStaging → (¬ ∃ result stored, Staging.Recorded config a steps result stored) →
    commands = []

theorem orders_append_plain {own rest : List Step} (h : ∀ s ∈ rest, s.Plain) :
    (own ++ rest).filterMap Step.order? = own.filterMap Step.order? := by
  have hnone : rest.filterMap Step.order? = [] :=
    List.filterMap_eq_nil_iff.2 fun s hs => (h s hs).order_none
  rw [List.filterMap_append, hnone, List.append_nil]

theorem startRemaining_tells {answer : Except BusError Unit}
    (h : (startRemaining a held).Goes steps answer) : ∃ commands, Completes held a commands ∧
      commands.length ≤ 1 ∧ steps.filterMap Step.order? = commands.map RunCommand.order := by
  unfold startRemaining at h
  split at h
  · obtain ⟨w, rfl⟩ := goes_publish h
    subst held
    exact ⟨_, .of_none a, Nat.le_refl 1, rfl⟩
  · have hheld : 0 < held := by grind
    split at h
    · rename_i hnone
      obtain ⟨rfl, -⟩ := h
      exact ⟨[], .of_all hheld (indicesFrom_eq_nil_iff.1 hnone), Nat.zero_le 1, rfl⟩
    · rename_i hsome
      obtain ⟨w, rfl⟩ := goes_publish h
      have hmore : held < a.instances := UInt32.not_le.1 (mt indicesFrom_eq_nil_iff.2 hsome)
      exact ⟨_, .of_some hheld hmore, Nat.le_refl 1, rfl⟩

/-- It makes no difference to this whether the generation is announced. -/
theorem startStaged_tells {announce : Bool} {answer : Except BusError Unit}
    (h : (startStaged announce held a).Goes steps answer) : ∃ commands, Completes held a commands ∧
      commands.length ≤ 1 ∧ steps.filterMap Step.order? = commands.map RunCommand.order := by
  cases announce with
  | false => exact startRemaining_tells h
  | true =>
    obtain ⟨own, rest, u, rfl, hown, hrest⟩ := (goes_bind _ _ _).1 h
    obtain ⟨w, rfl⟩ := announceVersion_goes hown
    obtain ⟨commands, hcompletes, hsingle, horders⟩ := startRemaining_tells
      (show (startRemaining a held).Goes rest answer from hrest)
    exact ⟨commands, hcompletes, hsingle, horders⟩

theorem startStaged_publishes {announce : Bool} {answer : Except BusError Unit}
    (h : (startStaged announce 0 a).Goes steps answer) :
    ∃ w subject payload rest, steps = .act w (.publish subject payload) :: rest := by
  cases announce with
  | false =>
    obtain ⟨w, rfl⟩ := goes_publish (show (Orders.start a).Goes steps answer from h)
    exact ⟨w, _, _, _, rfl⟩
  | true =>
    obtain ⟨own, rest, u, rfl, hown, -⟩ := (goes_bind _ _ _).1 h
    obtain ⟨w, rfl⟩ := announceVersion_goes hown
    exact ⟨w, _, _, _, rfl⟩

/-- After staging nothing more is told to the nodes. -/
theorem stageIfNeeded_starts {announce : Bool} {own rest : List Step}
    {outcome : Except ReactionError (StagingOutcome (Except BusError Unit))}
    (hown : (Staging.stageIfNeeded config a (startStaged announce)).Goes own outcome)
    (hplain : ∀ s ∈ rest, s.Plain)
    (hfailed : ∀ e, outcome = .ok (.failed e none) → ∃ w later, rest = .act w .wallClock :: later) :
    ∃ commands, Starts config a (own ++ rest) commands := by
  have hquiet : (own ++ rest).filterMap Step.order? = own.filterMap Step.order? :=
    orders_append_plain hplain
  rcases Staging.stageIfNeeded_goes hown with ⟨hnot, b, rfl, hstart⟩ | ⟨hneeds, -, rfl, e, rfl⟩ |
    ⟨⟨hneeds, -⟩, asks, answer, w, later, rfl, hasks, hends⟩
  · obtain ⟨commands, hcompletes, hsingle, horders⟩ := startStaged_tells hstart
    obtain ⟨w, subject, payload, later, rfl⟩ := startStaged_publishes hstart
    refine ⟨commands, hquiet.trans horders, hsingle, fun _ => hcompletes.none_held rfl,
      fun result stored hrecorded => ?_, fun h => absurd h hnot⟩
    cases hrecorded.head
  · obtain ⟨w, later, rfl⟩ := hfailed e rfl
    refine ⟨[], hquiet, Nat.zero_le 1, fun h => absurd hneeds h, fun result stored hrecorded => ?_,
      fun _ _ => rfl⟩
    cases hrecorded.head
  · have hask := (Staging.stageWithRetry_asks a).goes hasks
    have hlater : (asks ++ .act w (Staging.record a answer) :: later).filterMap Step.order? =
        later.filterMap Step.order? := by
      have hnone : asks.filterMap Step.order? = [] :=
        List.filterMap_eq_nil_iff.2 fun s hs => (hask s hs).order_none
      rw [List.filterMap_append, hnone]
      cases answer <;> rfl
    have hfirst {result : StagingResult} {stored : Application} (hrecorded : Staging.Recorded config a
        (asks ++ .act w (Staging.record a answer) :: later ++ rest) result stored) :
        answer = .ok result ∧ ∃ before, w.Moves (Staging.record a answer) a.id .staged before stored := by
      rw [List.append_assoc, List.cons_append] at hrecorded
      obtain ⟨hrecord, hmoves⟩ := hrecorded.first hask
      exact ⟨Staging.record_ok_inj hrecord, hmoves⟩
    -- where nothing is recorded as staged, nothing is started
    have hnothing (hnil : later = []) (hkept : ∀ result, answer = .ok result → ∀ before stored,
        ¬ w.Moves (Staging.record a answer) a.id .staged before stored) :
        Starts config a (asks ++ .act w (Staging.record a answer) :: later ++ rest) [] := by
      refine ⟨(hquiet.trans hlater).trans (by rw [hnil]; rfl), Nat.zero_le 1,
        fun h => absurd hneeds h, fun result stored hrecorded => ?_, fun _ _ => rfl⟩
      obtain ⟨hanswer, before, hmoves⟩ := hfirst hrecorded
      exact absurd hmoves (hkept result hanswer before stored)
    cases hends with
    | started hmoves hstart =>
      obtain ⟨commands, hcompletes, hsingle, horders⟩ := startStaged_tells hstart
      obtain ⟨w', replies, hmem, hsaid⟩ := Staging.stageWithRetry_answered hasks
      refine ⟨commands, (hquiet.trans hlater).trans horders, hsingle, fun h => absurd hneeds h,
        fun result stored hrecorded => ?_, fun _ hnone => absurd ?_ hnone⟩
      · obtain ⟨hanswer, before, hmoves'⟩ := hfirst hrecorded
        cases hanswer
        cases Staging.stored_unique hmoves hmoves'
        exact ⟨⟨w', replies, by simp [hmem], hsaid.symm⟩, hcompletes⟩
      · exact ⟨_, _, asks, w, _, later ++ rest, by simp, hask, hmoves⟩
    | unrecorded hkept =>
      exact ⟨[], hnothing rfl fun _ _ _ _ => Staging.not_moves_of_kept (by decide) hkept⟩
    | failed hmoves => exact ⟨[], hnothing rfl nofun⟩
    | unnoticed hkept => exact ⟨[], hnothing rfl nofun⟩

theorem stageAndStart_starts {announce : Bool} {own rest : List Step}
    {outcome : Except ReactionError (Option Diff)}
    (h : (stageAndStart config a announce).Goes own outcome) (hplain : ∀ s ∈ rest, s.Plain) :
    ∃ commands, Starts config a (own ++ rest) commands := by
  obtain ⟨own, event, staging, rfl, hown, hevent⟩ := (goes_bind _ _ _).1 h
  have hreported (e : StagingError) (recorded : Option Diff)
      (hstaging : staging = .ok (.failed e recorded)) :
      ∃ u, (Orders.recordEvent a.id .stagingFailed e.message).Goes event u := by
    subst hstaging
    obtain ⟨u, hgoes, -⟩ := (goes_bind_pure _ _ _).1 hevent
    exact ⟨u, hgoes⟩
  have hquiet : ∀ s ∈ event, s.Plain := by
    match staging, hevent with
    | .error _, ⟨hnil, _⟩ | .ok (.started (.error _)), ⟨hnil, _⟩ | .ok (.started (.ok ())), ⟨hnil, _⟩ =>
      simp [hnil]
    | .ok (.failed e recorded), _ =>
      obtain ⟨u, hgoes⟩ := hreported e recorded rfl
      exact (Orders.plain_recordEvent _ _ _).goes hgoes
  rw [List.append_assoc]
  refine stageIfNeeded_starts hown (by simpa [or_imp, forall_and] using ⟨hquiet, hplain⟩) ?_
  rintro e rfl
  obtain ⟨u, w, later, rfl, -⟩ := hreported e none rfl
  exact ⟨w, later ++ rest, rfl⟩

/-- Where staging breaks off, nothing was recorded and nothing is started. -/
theorem breaks_starts (hneeds : a.needsStaging) (h : Staging.Breaks config a steps) :
    Starts config a steps [] where
  orders := by
    refine List.filterMap_eq_nil_iff.2 fun s hs => ?_
    obtain hasks | ⟨w, result, rfl, -⟩ := h.only s hs
    · exact hasks.order_none
    · rfl
  single := Nat.zero_le 1
  unneeded hnot := absurd hneeds hnot
  recorded := by
    rintro result stored ⟨asks, w, before, rest, heq, hasks, hmoves⟩
    refine absurd hmoves (Staging.not_moves_of_kept (by decide) ?_)
    have hmem : .act w (Staging.record a (.ok result)) ∈ steps := by simp [heq]
    obtain hask | ⟨w', result', hact, hkept⟩ := h.only _ hmem
    · exact hask.elim
    · obtain ⟨rfl, hrecord⟩ := Step.act.inj hact
      rwa [hrecord]
  unrecorded _ _ := rfl

/-- Whatever the stager says it has started, and whatever the application is scaled to meanwhile, its
start or rollout tells the nodes one thing at most. It is to start the instances, as they are desired by
the application as it is stored after staging, that the stager has not started: each index once, and
none that it has started. They are listed unless it has started none, and with none left nothing is told
unless it has started none. A list that is sent is never empty, so it is never read as one of all that
are missing. Who panics over staging tells nothing. -/
theorem observe_asks_for_rest {o : Option (Option Reaction)}
    (h : (observe config diff).Ends steps o) (hafter : diff.after = some a)
    (hclass : diff.classify = some .start ∨ diff.classify = some .rollout) :
    ∃ commands, Starts config a steps commands ∧ ∀ c ∈ commands,
      RunCommand.codec.read (RunCommand.codec.write c) = .ok c ∧
      (RunCommand.codec.write c).get? "indices" ≠ some (.array []) := by
  have hstarts : ∃ commands, Starts config a steps commands := by
    cases o with
    | none =>
      obtain ⟨_, b, -, -, hb, hneeds, hbreaks⟩ := dispatch_breaks (observe_panics_iff.1 h)
      cases hafter.symm.trans hb
      exact ⟨[], breaks_starts hneeds.1 hbreaks⟩
    | some reaction =>
      obtain ⟨own, rest, rfl, hreacts, hplain⟩ := observe_goes h
      obtain ⟨before, after⟩ := diff
      subst hafter
      rcases hreacts with ⟨hnone, -⟩ | ⟨reaction, outcome, hreaction, hown⟩
      · rcases hclass with hclass | hclass <;> cases hnone.symm.trans hclass
      · rcases hclass with hclass | hclass <;> cases hreaction.symm.trans hclass <;>
          exact stageAndStart_starts hown hplain
  obtain ⟨commands, hstarts⟩ := hstarts
  exact ⟨commands, hstarts, fun c _ => ⟨RunCommand.codec_faithful c, c.lists_some⟩⟩

def webResumed (held instances : UInt32) : Application :=
  { Application.web with
    instances, package := .staged, lastStaging := some ⟨held, none, none⟩, updatedAt := 7 }

def resumedMeanwhile (held instances : UInt32) (command : RunCommand) : List Step :=
  [.ask (Staging.webWaiting 1) (Staging.question .default .web)
      (.ok [StageReply.codec.write (.staged ⟨held, none, none⟩)]),
    .act (Staging.webWaiting instances) (Staging.record .web (.ok ⟨held, none, none⟩)),
    .act (.storing (webResumed held instances))
      (.publish Subject.nodeStart (RunCommand.codec.write command))]

theorem recorded_resumedMeanwhile (held instances : UInt32) (command : RunCommand) :
    Staging.Recorded .default .web (resumedMeanwhile held instances command) ⟨held, none, none⟩
      (webResumed held instances) := by
  let w := Staging.webWaiting instances
  let before : Application := { Application.web with instances }
  have hfound : w.store.apps.get? "web" = some before := rfl
  let mark : Application → Except Fault Application := (·.markStaged ⟨held, none, none⟩)
  have hmade : mark before =
      .ok { webResumed held instances with updatedAt := before.updatedAt } := rfl
  have hne : { webResumed held instances with updatedAt := before.updatedAt } ≠ before := fun heq =>
    nomatch (congrArg (·.package) heq : PackageState.staged = .pending)
  have hchange := w.store.changeApp_of_ne w.wallClock hfound hmade hne
  exact ⟨[_], w, before, [_], rfl, by simp [Step.Asks], hfound, rfl, rfl, congrArg Prod.snd hchange⟩

theorem observe_created_web {steps : List Step}
    (h : (stageAndStart .default .web false).Goes steps (.ok none)) :
    (observe .default (.created .web)).Goes steps (some .start) := by
  have hclass : (Diff.created .web).classify = some .start := by decide +kernel
  have hdispatch : (dispatch .default (.created .web)).Goes steps none := by
    unfold dispatch
    simp only [hclass]
    exact (goes_bind _ _ _).2 ⟨steps, [], _, by simp, h, rfl, rfl⟩
  refine (goes_bind _ _ _).2 ⟨steps, [], none, by simp, hdispatch, ?_⟩
  rw [hclass]
  exact ⟨rfl, rfl⟩

/-- One instance is started by the stager, and two are left when it has been scaled to three. -/
theorem observe_asks_for_rest_web : ∃ steps commands,
    (observe .default (.created .web)).Goes steps (some .start) ∧
    steps.filterMap Step.order? = commands.map RunCommand.order ∧
    ∃ indices, commands = [{ RunCommand.ofApp (webResumed 1 3) with indices }] ∧
      indices.map UInt32.toNat = [1, 2] := by
  let command : RunCommand := { RunCommand.ofApp (webResumed 1 3) with indices := [1, 2] }
  have hgoes : (observe .default (.created .web)).Goes (resumedMeanwhile 1 3 command) (some .start) :=
    observe_created_web ⟨_, _, _, rfl, by decide, _, _, rfl, _, _, rfl, rfl, rfl⟩
  obtain ⟨commands, hstarts, -⟩ := observe_asks_for_rest (ends_some.2 hgoes) rfl (.inl (by decide +kernel))
  have hcompletes := (hstarts.recorded _ _ (recorded_resumedMeanwhile 1 3 command)).2
  exact ⟨_, commands, hgoes, hstarts.orders, hcompletes.some_held (by decide) (by decide)⟩

/-- An application that is scaled to none while the stager works, and of which that has started none, is
started all the same. -/
theorem starts_none_desired : ¬ ∀ (config : StagingConfig) (diff : Diff) (a stored : Application)
    (steps : List Step) (reaction : Option Reaction) (result : StagingResult),
    (observe config diff).Goes steps reaction → diff.after = some a →
    diff.classify = some .start ∨ diff.classify = some .rollout →
    Staging.Recorded config a steps result stored → stored.instances ≤ result.instancesStarted →
    steps.filterMap Step.order? = [] := by
  intro h
  let command : RunCommand := .ofApp (webResumed 0 0)
  have hgoes : (observe .default (.created .web)).Goes (resumedMeanwhile 0 0 command) (some .start) :=
    observe_created_web ⟨_, _, _, rfl, by decide, _, _, rfl, _, _, rfl, rfl, rfl⟩
  have hnone := h _ _ _ _ _ _ _ hgoes rfl (.inl (by decide +kernel))
    (recorded_resumedMeanwhile 0 0 command) (by decide)
  cases hnone

end Dispatch

end AppFleet
