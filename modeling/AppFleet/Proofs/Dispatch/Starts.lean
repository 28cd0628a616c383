import AppFleet.Proofs.Dispatch.Grammar
import AppFleet.Proofs.Dispatch.Tuned
import AppFleet.Proofs.Message.RoundTrip

/-! When a command to start instances is passed on. It is checked against the stored application, and only
the indices that are desired are passed on; with none of them left nothing is, as an empty list would ask
for all that are missing. -/

namespace AppFleet

/-- The subjects on which nodes are told what to run. -/
def Subject.nodeOrders : List String := [nodeStart, nodeStop, nodeScale]

def Step.order? : Step → Option (String × Json)
  | act _ (.publish subject payload) =>
    if subject ∈ Subject.nodeOrders then some (subject, payload) else none
  | _ => none

namespace StartInstances

/-- The requested indices that are desired, in their order. -/
def within (request : StartInstances) (a : Application) : List UInt32 :=
  request.indices.filter (· < a.instances)

/-- The application could run the requested generation, and is short of it. -/
structure Suits (request : StartInstances) (a : Application) : Prop where
  started : a.desired = .started
  uploaded : a.packageHash ≠ none
  sound : a.package ≠ .failed
  current : a.version = request.version
  short : (request.running.lookup request.version).getD 0 < a.instances
  desired : ∃ index ∈ request.indices, index < a.instances

end StartInstances

namespace Respondent

open Activity

/-- The payload is a command that the application suits which the course finds. -/
def Wanted (payload : Json) (steps : List Step) (request : StartInstances) (a : Application) : Prop :=
  Command.decode Subject.hmStart payload = .ok (.start request) ∧
  ∃ w, steps.head? = some (.act w (.findApp request.droplet)) ∧
    w.store.apps.get? request.droplet = some a ∧ request.Suits a

variable {config : StagingConfig} {request : StartInstances} {a : Application} {steps : List Step}
  {payload : Json}

theorem within_ne_nil_iff :
    request.within a ≠ [] ↔ ∃ index ∈ request.indices, index < a.instances := by
  simp [StartInstances.within, List.filter_eq_nil_iff]

/-- All the checks on a command come to this. -/
theorem suits_iff : (needsInstances a request && !(request.within a).isEmpty) ↔ request.Suits a := by
  have hindices : (!(request.within a).isEmpty) ↔ ∃ index ∈ request.indices, index < a.instances := by
    rw [← within_ne_nil_iff]
    simp
  rw [Bool.and_eq_true, hindices]
  simp only [needsInstances, Application.isStarted, Application.bitsUploaded, Application.stagingFailed,
    Bool.and_eq_true, decide_eq_true_eq, Bool.not_eq_true', decide_eq_false_iff_not,
    Option.isSome_iff_ne_none]
  constructor
  · rintro ⟨⟨⟨⟨⟨hs, hbits⟩, hsound⟩, hversion⟩, hshort⟩, hdesired⟩
    exact ⟨hs, hbits, hsound, hversion, hshort, hdesired⟩
  · rintro ⟨hs, hbits, hsound, hversion, hshort, hdesired⟩
    exact ⟨⟨⟨⟨⟨hs, hbits⟩, hsound⟩, hversion⟩, hshort⟩, hdesired⟩

/-- The application is looked up, and if it suits, one command is published, and nothing else is
done. -/
theorem start_goes {outcome : Except ReactionError CommandOutcome}
    (h : (start request).Goes steps outcome) :
    ∃ w, (steps = [.act w (.findApp request.droplet)] ∧
        ∀ a, w.store.apps.get? request.droplet = some a → ¬ request.Suits a) ∨
      ∃ a w', w.store.apps.get? request.droplet = some a ∧ request.Suits a ∧
        steps = [.act w (.findApp request.droplet), .act w' (.publish Subject.nodeStart
          (RunCommand.codec.write { RunCommand.ofApp a with indices := request.within a }))] := by
  obtain ⟨w, rest, rfl, hrest⟩ := h
  refine ⟨w, ?_⟩
  dsimp only [World.perform] at hrest
  cases ha : w.store.apps.get? request.droplet with
  | none =>
    rw [ha] at hrest
    obtain ⟨rfl, -⟩ := hrest
    exact .inl ⟨rfl, fun _ hnone => absurd hnone.symm (Option.some_ne_none _)⟩
  | some a =>
    rw [ha] at hrest
    dsimp only [Activity.bind] at hrest
    split at hrest
    · rename_i hsuits
      obtain ⟨answer, hends⟩ := forward_ends (ends_some.2 hrest)
      obtain ⟨w', rfl⟩ := ends_publish hends
      exact .inr ⟨a, w', rfl, suits_iff.1 hsuits, rfl⟩
    · rename_i hnot
      obtain ⟨rfl, -⟩ := hrest
      refine .inl ⟨rfl, ?_⟩
      rintro _ ⟨⟩ hsuits
      exact hnot (suits_iff.2 hsuits)

theorem decode_hmStart {command : Command} (h : Command.decode Subject.hmStart payload = .ok command) :
    ∃ request, command = .start request := by
  obtain ⟨_, -, _, -, _, -, _, -, rfl⟩ := Command.decode_hmStart_iff.1 h
  exact ⟨_, rfl⟩

/-- A command is reported that cannot be read, if it names an application, and nobody is told to run
anything. -/
theorem only_recordEvent (app : AppId) (kind : AppEventKind) (message : String) :
    (Orders.recordEvent app kind message).Only fun s => s.KeepsStore ∧ s.order? = none := by
  have hevent : Subject.appEvent ∉ Subject.nodeOrders := by decide
  have hclock : (perform .wallClock).Only fun s => s.KeepsStore ∧ s.order? = none :=
    only_perform fun _ => ⟨rfl, rfl⟩
  have hpublish (payload : Json) : (publish Subject.appEvent payload).Only fun s =>
      s.KeepsStore ∧ s.order? = none := only_perform fun _ => ⟨rfl, by simp [Step.order?, hevent]⟩
  exact hclock.bind fun now => Orders.only_attempt (hpublish _)

theorem steady_start (request : StartInstances) : (start request).Steady := by
  refine (steady_perform _).bind fun _ found _ => ?_
  cases found with
  | none => exact steady_pure _
  | some a =>
    dsimp only
    split
    · refine (steady_publish _ _).bind fun _ answer _ => ?_
      cases answer <;> exact steady_pure _
    · exact steady_pure _

theorem steady_handleStart (config : StagingConfig) (payload : Json) :
    (handle config Subject.hmStart payload).Steady := by
  unfold handle
  split
  · rename_i command hdecode
    obtain ⟨request, rfl⟩ := decode_hmStart hdecode
    exact (steady_start request).bind fun _ _ _ => steady_pure _
  · split
    · exact Orders.steady_recordEvent _ _ _
    · exact steady_pure _

/-- Whatever is sent on the subject for starts, whatever is stored and whatever becomes of the
message: it is handled to its end, and the nodes are told nothing, or one thing, to start instances.
They are told exactly if the payload is a command, and the application is there, started, with bits
that have not failed to stage, and short of instances of the generation that is asked for, with a
requested index that is desired. Then they are told the stored generation and the requested indices
that are desired, at least one. The store stays as it is. -/
theorem handle_starts {o : Option Unit} (h : (handle config Subject.hmStart payload).Ends steps o) :
    o = some () ∧ (∀ s ∈ steps, s.KeepsStore) ∧
    ((steps.filterMap Step.order? = [] ∧ ¬ ∃ request a, Wanted payload steps request a) ∨
      ∃ request a order, Wanted payload steps request a ∧
        steps.filterMap Step.order? = [(Subject.nodeStart, order)] ∧
        RunCommand.codec.read order = .ok { RunCommand.ofApp a with indices := request.within a } ∧
        request.within a ≠ []) := by
  obtain rfl : o = some () := by
    cases o with
    | none => exact absurd h (steady_handleStart config payload steps)
    | some u => rfl
  refine ⟨rfl, ?_⟩
  rw [ends_some, handle] at h
  split at h
  · rename_i command hdecode
    obtain ⟨request, rfl⟩ := decode_hmStart hdecode
    obtain ⟨outcome, hgoes, -⟩ := (goes_bind_pure _ _ _).1 h
    obtain ⟨w, ⟨rfl, hnot⟩ | ⟨a, w', ha, hsuits, rfl⟩⟩ := start_goes hgoes
    · refine ⟨by simp [Step.KeepsStore, World.perform], .inl ⟨rfl, ?_⟩⟩
      rintro ⟨request', a, hdecode', w', hhead, ha, hsuits⟩
      cases hdecode.symm.trans hdecode'
      cases hhead
      exact hnot a ha hsuits
    · refine ⟨by simp [Step.KeepsStore, World.perform], .inr ⟨request, a, _, ?_, rfl, ?_, ?_⟩⟩
      · exact ⟨hdecode, w, rfl, ha, hsuits⟩
      · exact RunCommand.codec_faithful _
      · exact within_ne_nil_iff.2 hsuits.desired
  · rename_i malformed hdecode
    have hquiet : ∀ s ∈ steps, s.KeepsStore ∧ s.order? = none := by
      split at h
      · exact (only_recordEvent _ _ _).goes h
      · exact (only_pure _).goes h
    refine ⟨fun s hs => (hquiet s hs).1, .inl ⟨?_, ?_⟩⟩
    · exact List.filterMap_eq_nil_iff.2 fun s hs => (hquiet s hs).2
    · rintro ⟨request, a, hdecode', -⟩
      cases hdecode.symm.trans hdecode'

def webShort : StartInstances := ⟨"web", Application.web.version, [1, 0], []⟩

def webShortPayload : Json :=
  .object [("droplet", .string "web"), ("indices", Codec.uint32.list.write [1, 0]),
    ("version", .string Application.web.version)]

theorem decode_webShort : Command.decode Subject.hmStart webShortPayload = .ok (.start webShort) := rfl

theorem suits_webShort : webShort.Suits .web := ⟨rfl, nofun, nofun, rfl, by decide, 0, by decide⟩

def webStarts : List Step :=
  [.act (.storing .web) (.findApp "web"), .act (.storing .web) (.publish Subject.nodeStart
    (RunCommand.codec.write { RunCommand.ofApp .web with indices := [0] }))]

theorem goes_webShort : (handle .default Subject.hmStart webShortPayload).Goes webStarts () := by
  have hstart : (start webShort).Goes webStarts (.ok .forwarded) := by
    refine ⟨_, _, rfl, ?_⟩
    change (if needsInstances .web webShort && !(webShort.within .web).isEmpty then
      forward (Orders.startIndices .web (webShort.within .web)) else pure (.ok .ignored)).Goes _ _
    rw [if_pos (suits_iff.2 suits_webShort)]
    exact ⟨_, [], rfl, rfl, rfl⟩
  rw [handle, decode_webShort]
  exact (goes_bind_pure _ _ _).2 ⟨_, hstart, rfl⟩

theorem handle_starts_web : ∃ order,
    webStarts.filterMap Step.order? = [(Subject.nodeStart, order)] ∧
    RunCommand.codec.read order = .ok { RunCommand.ofApp .web with indices := [0] } := by
  obtain ⟨-, -, ⟨hnone, -⟩ | ⟨request, a, order, ⟨hdecode, w, hhead, ha, -⟩, horder, hread, -⟩⟩ :=
    handle_starts (ends_some.2 goes_webShort)
  · cases hnone
  · cases decode_webShort.symm.trans hdecode
    cases hhead
    cases ha
    exact ⟨order, horder, hread⟩

end Respondent

end AppFleet
