import AppFleet.Application.Operation
import AppFleet.Dispatch.Respondent
import AppFleet.Proofs.Message.RoundTrip
import AppFleet.Simulation.Stage

/-! What is left of a generation after a stop. A stop is held back if it lists too many instances of
the current generation; what is published says with an empty list that all are to stop. -/

namespace AppFleet

def Activity.sends (x : Activity α) (now : Nat) (w : World) : List Sent :=
  (x.advance now w).2.link.sent.drop w.link.sent.length

theorem Activity.advance_findApp (app : AppId) (f : Option Application → Activity α) (now : Nat)
    (w : World) :
    (findApp app >>= f).advance now w = (f (w.store.apps.get? app)).advance now w := rfl

theorem Activity.advance_publish (subject : String) (payload : Json)
    (f : Except BusError Unit → Activity α) (now : Nat) (w : World) :
    (publish subject payload >>= f).advance now w =
      (f (w.link.publish subject payload).1).advance now
        { w with link := (w.link.publish subject payload).2 } := rfl

theorem Activity.advance_recordEvent (app : AppId) (kind : AppEventKind) (message : String)
    (f : Unit → Activity α) (now : Nat) (w : World) :
    (Orders.recordEvent app kind message >>= f).advance now w = (f ()).advance now { w with
      link := (w.link.publish Subject.appEvent
        (AppEvent.codec.write ⟨app, kind, message, w.wallClock⟩)).2 } := rfl

namespace StopInstances

/-- How many instances of a generation are running, as the sender counted them. -/
def runningOf (r : StopInstances) (version : Version) : Nat :=
  ((r.running.lookup version).getD 0).toNat

/-- How many of the listed instances are of a generation. -/
def listedOf (r : StopInstances) (version : Version) : Nat := r.instances.countP (·.2 = version)

/-- How many instances of a generation a command stops. -/
def stoppedBy (r : StopInstances) (version : Version) (cmd : StopCommand) : Nat :=
  if cmd.instanceIds = [] then r.runningOf version
  else r.instances.countP fun e => e.2 = version && e.1 ∈ cmd.instanceIds

end StopInstances

namespace Respondent

variable {w : World} {now : Nat} {request : StopInstances} {a : Application}

/-- Refused, a stop sends an event; otherwise it is one command that lists what was requested. -/
theorem sends_stop (ha : w.store.apps.get? request.droplet = some a) {s : Sent}
    (h : s ∈ (stop request).sends now w) :
    (leavesTooFew a request ∧ s.subject = Subject.appEvent) ∨
      (¬ leavesTooFew a request ∧ s.subject = Subject.nodeStop ∧
        s.payload = StopCommand.codec.write ⟨request.droplet, request.instances.map (·.1)⟩) := by
  unfold Activity.sends stop at h
  simp only [Activity.advance_findApp, ha] at h
  by_cases hfew : leavesTooFew a request
  · refine .inl ⟨hfew, ?_⟩
    rw [if_pos hfew, Activity.advance_recordEvent] at h
    change s ∈ (w.link.publish _ _).2.sent.drop w.link.sent.length at h
    rw [Link.publish_sent, List.drop_left, List.mem_singleton] at h
    rw [h]
  · refine .inr ⟨hfew, ?_⟩
    rw [if_neg hfew] at h
    unfold forward Orders.stopInstances at h
    rw [Activity.advance_publish] at h
    have hsent : s ∈ (w.link.publish Subject.nodeStop (StopCommand.codec.write
        ⟨request.droplet, request.instances.map (·.1)⟩)).2.sent.drop w.link.sent.length := by
      split at h <;> exact h
    rw [Link.publish_sent, List.drop_left, List.mem_singleton] at hsent
    rw [hsent]
    exact ⟨rfl, rfl⟩

/-- A command that lists the requested instances stops those; one that lists none stops all. -/
theorem stoppedBy_requested (version : Version) :
    request.stoppedBy version ⟨request.droplet, request.instances.map (·.1)⟩ =
      if request.instances = [] then request.runningOf version else request.listedOf version := by
  by_cases hnone : request.instances = []
  · simp [StopInstances.stoppedBy, hnone]
  · rw [StopInstances.stoppedBy, if_neg (by simpa using hnone), if_neg hnone]
    refine List.countP_congr fun e he => ?_
    have hlisted : e.1 ∈ request.instances.map (·.1) := List.mem_map_of_mem he
    simp [hlisted]

theorem leavesTooFew_iff (hs : a.isStarted) (h : request.listedOf a.version < UInt32.size) :
    leavesTooFew a request ↔ 0 < request.listedOf a.version ∧
      request.runningOf a.version - request.listedOf a.version < a.instances.toNat := by
  have hstopping : (stopping a request).toNat = request.listedOf a.version := by
    rw [stopping, UInt32.toNat_ofNat']
    exact Nat.mod_eq_of_lt h
  have hpos : 0 < stopping a request ↔ 0 < request.listedOf a.version := by
    rw [UInt32.lt_iff_toNat_lt, hstopping]
    rfl
  simp [leavesTooFew, hs, hpos, hstopping, StopInstances.runningOf]

/-- What a stop of a started application publishes takes no instance of the current generation or
leaves as many as are desired, exactly if none is desired, or some are listed unless none is running,
and their number fits the 32 bits in which it is counted. -/
theorem stop_keeps_desired_iff (ha : w.store.apps.get? request.droplet = some a) (hs : a.isStarted)
    {s : Sent} (hsent : s ∈ (stop request).sends now w) (hsubject : s.subject = Subject.nodeStop)
    {cmd : StopCommand} (hread : StopCommand.codec.read s.payload = .ok cmd) :
    (request.stoppedBy a.version cmd = 0 ∨
      a.instances.toNat ≤ request.runningOf a.version - request.stoppedBy a.version cmd) ↔
    a.instances = 0 ∨ (request.instances = [] → request.runningOf a.version = 0) ∧
      request.listedOf a.version < UInt32.size := by
  have hno : Subject.nodeStop ≠ Subject.appEvent := by decide
  obtain ⟨-, h⟩ | ⟨hfew, -, hpayload⟩ := sends_stop ha hsent
  · exact absurd (hsubject.symm.trans h) hno
  rw [hpayload, StopCommand.codec_faithful] at hread
  cases hread
  rw [stoppedBy_requested]
  have hzero : a.instances = 0 ↔ a.instances.toNat = 0 := by
    rw [← UInt32.toNat_inj]
    rfl
  by_cases hnone : request.instances = []
  · have hlisted : request.listedOf a.version = 0 := by simp [StopInstances.listedOf, hnone]
    have hsize : 0 < UInt32.size := by decide
    rw [if_pos hnone, hzero, hlisted]
    simp only [hnone, true_implies]
    omega
  · rw [if_neg hnone, hzero]
    simp only [hnone, false_implies, true_and]
    by_cases hsmall : request.listedOf a.version < UInt32.size
    · have hkept := mt (leavesTooFew_iff hs hsmall).2 hfew
      omega
    · have hrunning : request.runningOf a.version < UInt32.size := UInt32.toNat_lt _
      omega

def webStarted : Application := Operation.run (.new "web" "web") [.start]

def webStore : World := { World.initial 0 0 0 with store := Store.empty.putApp webStarted }

def webStop : StopInstances := ⟨"web", [], [(webStarted.version, 1)]⟩

theorem sends_webStop : (stop webStop).sends 0 webStore =
    [⟨Subject.nodeStop, StopCommand.codec.write ⟨"web", []⟩, none, false⟩] := rfl

theorem runningOf_webStop : webStop.runningOf webStarted.version = 1 := by
  simp [StopInstances.runningOf, webStop]

theorem stop_keeps_desired_iff_web :
    (webStop.stoppedBy webStarted.version ⟨"web", []⟩ = 0 ∨ webStarted.instances.toNat ≤
      webStop.runningOf webStarted.version - webStop.stoppedBy webStarted.version ⟨"web", []⟩) ↔
    webStarted.instances = 0 ∨
      (webStop.instances = [] → webStop.runningOf webStarted.version = 0) ∧
        webStop.listedOf webStarted.version < UInt32.size := by
  have hstored : webStore.store.apps.get? webStop.droplet = some webStarted := rfl
  have hsent : ⟨Subject.nodeStop, StopCommand.codec.write ⟨"web", []⟩, none, false⟩ ∈
      (stop webStop).sends 0 webStore := by simp [sends_webStop]
  exact stop_keeps_desired_iff hstored rfl hsent rfl (StopCommand.codec_faithful _)

theorem stop_takes_all : ¬ ∀ (w : World) (now : Nat) (request : StopInstances) (a : Application)
    (s : Sent) (cmd : StopCommand), w.store.apps.get? request.droplet = some a → a.isStarted →
    s ∈ (stop request).sends now w → s.subject = Subject.nodeStop →
    StopCommand.codec.read s.payload = .ok cmd →
    request.stoppedBy a.version cmd = 0 ∨
      a.instances.toNat ≤ request.runningOf a.version - request.stoppedBy a.version cmd := by
  intro h
  have hkept := h webStore 0 webStop webStarted _ ⟨"web", []⟩ rfl rfl
    (List.mem_of_mem_head? (by rw [sends_webStop]; rfl)) rfl (StopCommand.codec_faithful _)
  have hdesired : webStarted.instances.toNat = 1 := rfl
  simp only [StopInstances.stoppedBy, if_true, runningOf_webStop, hdesired] at hkept
  omega

end Respondent

end AppFleet
