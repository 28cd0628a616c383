import AppFleet.Proofs.Activity.Surroundings
import AppFleet.Proofs.Dispatch.Calls

/-! Messages that arrive one after the other, some of which nobody can read. Those leave nothing behind
but an event for a command that still names its application: without them all else is as it would be,
and the messages that can be read come to the same. -/

namespace AppFleet

variable {config : Config} {e : Envelope}

def Subject.commands : List String := [hmStart, hmStop, hmAdjust, hmAutoscalingRequest]

/-- Whether the payload can be read as what is expected on its subject. Nothing is on a subject that
nobody listens on. -/
def Envelope.isReadable (e : Envelope) : Bool :=
  if e.subject = Subject.autoscaleScaleUp then (ScaleUpSignal.codec.read e.payload).isOk
  else if e.subject = Subject.nodeHeartbeat then (Heartbeat.codec.read e.payload).isOk
  else if e.subject = Subject.nodeStatusResponse then (NodeStatus.codec.read e.payload).isOk
  else (Command.decode e.subject e.payload).isOk

/-- The application that an unreadable command still names, and what is told of it. -/
def Envelope.blamed? (e : Envelope) : Option (AppId × String) :=
  if e.subject ∈ Subject.commands then
    match Command.decode e.subject e.payload with
    | .ok _ => none
    | .error m => m.droplet.map (·, m.message)
  else none

inductive Outcome where
  | none
  | ordered (outcome : Except ReactionError Respondent.CommandOutcome)
  | adjusted (outcome : Except ReactionError Respondent.AdjustOutcome)
  | decided (decision : Option Decision)
  | panicked

def Outcome.isNothing : Outcome → Bool
  | none | decided .none => true
  | _ => false

namespace Inbound

/-- The handling of a message, down to what it comes to. -/
def handle (config : Config) (e : Envelope) : Activity Outcome :=
  if e.subject = Subject.autoscaleScaleUp then do
    return .decided (← ScalePolicy.handleSignal (ControlPlane.policy config) e.payload)
  else match Command.decode e.subject e.payload with
    | .ok (.start request) => do return .ordered (← Respondent.start request)
    | .ok (.stop request) => do return .ordered (← Respondent.stop request)
    | .ok (.adjust app counts) => do return .adjusted (← Respondent.adjust config.staging app counts)
    | _ => do
      (Call.message e).activity config
      return .none

theorem activity_message (config : Config) (e : Envelope) : (Call.message e).activity config =
    if e.subject = Subject.nodeHeartbeat then Ledger.handleHeartbeat e.payload
    else if e.subject = Subject.nodeStatusResponse then Node.handleStatus e.payload
    else if e.subject ∈ Subject.commands then ControlPlane.respond config e
    else if e.subject = Subject.autoscaleScaleUp then do
      let _ ← ScalePolicy.handleSignal (ControlPlane.policy config) e.payload
    else pure () := by
  have hkey (known : String) (handle : Envelope → Activity Unit)
      (rest : List (String × (Envelope → Activity Unit))) :
      ((known, handle) :: rest).lookup e.subject =
        if e.subject = known then some handle else rest.lookup e.subject := by
    rw [List.lookup_cons]
    by_cases h : e.subject = known
    · simp [h]
    · simp [h, beq_false_of_ne h]
  simp only [Call.activity, ControlPlane.handlers, hkey, List.lookup_nil, Subject.commands, List.mem_cons,
    List.not_mem_nil, or_false]
  split_ifs <;> first | rfl | tauto

theorem commands_of_decode {command : Command} (h : Command.decode e.subject e.payload = .ok command) :
    e.subject ∈ Subject.commands := by
  by_contra hsubject
  simp only [Subject.commands, List.mem_cons, List.not_mem_nil, or_false, not_or] at hsubject
  obtain ⟨hstart, hstop, hadjust, hquery⟩ := hsubject
  simp [Command.decode, hstart, hstop, hadjust, hquery] at h

theorem activity_command (config : Config) (h : e.subject ∈ Subject.commands) :
    (Call.message e).activity config = ControlPlane.respond config e := by
  have hothers : ∀ subject ∈ Subject.commands,
      subject ≠ Subject.nodeHeartbeat ∧ subject ≠ Subject.nodeStatusResponse := by decide
  obtain ⟨hheartbeat, hstatus⟩ := hothers _ h
  rw [activity_message, if_neg hheartbeat, if_neg hstatus, if_pos h]

/-- The handlers do just what `handle` does, and leave out what it comes to. -/
theorem activity_eq_handle (config : Config) (e : Envelope) :
    (Call.message e).activity config = (do let _ ← handle config e) := by
  unfold handle
  split
  · rename_i hsignal
    simp [Call.activity_signal config hsignal]
  · split
    · rename_i request hdecode
      simp [activity_command config (commands_of_decode hdecode), ControlPlane.respond, Respondent.handle,
        hdecode, Respondent.obey]
    · rename_i request hdecode
      simp [activity_command config (commands_of_decode hdecode), ControlPlane.respond, Respondent.handle,
        hdecode, Respondent.obey]
    · rename_i app counts hdecode
      simp [activity_command config (commands_of_decode hdecode), ControlPlane.respond, Respondent.handle,
        hdecode, Respondent.obey]
    · simp

/-- Neither heartbeats nor statuses that cannot be read lead to anything. -/
theorem activity_unreadable (config : Config) (h : ¬ e.isReadable)
    (hcommand : e.subject ∉ Subject.commands) (hsignal : e.subject ≠ Subject.autoscaleScaleUp) :
    (Call.message e).activity config = pure () := by
  rw [Envelope.isReadable, if_neg hsignal] at h
  rw [activity_message, if_neg hcommand, if_neg hsignal]
  split_ifs at h ⊢
  · rw [Ledger.handleHeartbeat]
    split
    · simp [Except.isOk, Except.toBool, *] at h
    · rfl
  · rw [Node.handleStatus]
    split
    · simp [Except.isOk, Except.toBool, *] at h
    · rfl
  · rfl

/-- An unreadable message comes to nothing. It leaves nothing either, unless it is a command that still
names its application. -/
theorem handle_unreadable (config : Config) (h : ¬ e.isReadable) :
    (e.blamed? = none ∧ ∃ outcome, outcome.isNothing ∧ handle config e = pure outcome) ∨
    ∃ app text, e.blamed? = some (app, text) ∧
      handle config e = (do Orders.recordEvent app .error text; return .none) := by
  by_cases hcommand : e.subject ∈ Subject.commands
  · have hothers : ∀ subject ∈ Subject.commands, subject ≠ Subject.autoscaleScaleUp ∧
        subject ≠ Subject.nodeHeartbeat ∧ subject ≠ Subject.nodeStatusResponse := by decide
    obtain ⟨hsignal, hheartbeat, hstatus⟩ := hothers _ hcommand
    rw [Envelope.isReadable, if_neg hsignal, if_neg hheartbeat, if_neg hstatus] at h
    rw [Envelope.blamed?, if_pos hcommand, handle, if_neg hsignal, activity_command config hcommand,
      ControlPlane.respond, Respondent.handle]
    cases hdecode : Command.decode e.subject e.payload with
    | ok command => simp [hdecode, Except.isOk, Except.toBool] at h
    | error m =>
      cases hdroplet : m.droplet with
      | none => exact .inl ⟨by simp [hdroplet], .none, rfl, by simp [hdroplet]⟩
      | some app => exact .inr ⟨app, m.message, by simp [hdroplet], by simp [hdroplet]⟩
  · refine .inl ⟨by rw [Envelope.blamed?, if_neg hcommand], ?_⟩
    by_cases hsignal : e.subject = Subject.autoscaleScaleUp
    · rw [Envelope.isReadable, if_pos hsignal] at h
      refine ⟨.decided none, rfl, ?_⟩
      rw [handle, if_pos hsignal]
      unfold ScalePolicy.handleSignal
      split
      · simp [Except.isOk, Except.toBool, *] at h
      · rfl
    · refine ⟨.none, rfl, ?_⟩
      rw [handle, if_neg hsignal, activity_unreadable config h hcommand hsignal]
      split
      · exact absurd (commands_of_decode ‹_›) hcommand
      · exact absurd (commands_of_decode ‹_›) hcommand
      · exact absurd (commands_of_decode ‹_›) hcommand
      · rfl

/-- A message as it arrives, with what surrounds its handling, and with what surrounds the question to a
node that it makes known. -/
structure Arrival where
  message : Envelope
  handling : Surroundings
  asking : NodeId → Surroundings

structure Received where
  arrival : Arrival
  outcome : Outcome
  news : List Sent

def ask (config : Config) (arrival : Arrival) (w : World) (node : NodeId) : World :=
  ((Node.identify config.ledger.identifyMs node).within (arrival.asking node) 0 w).2

/-- Handles one message to its end, and asks the nodes that it was the first to tell of. -/
def receive (config : Config) (w : World) (arrival : Arrival) : Received × World :=
  let (outcome?, handled) := (handle config arrival.message).within arrival.handling 0 w
  let unseen := handled.unknownNodes.drop w.unknownNodes.length
  let left := unseen.foldl (ask config arrival) { handled with unknownNodes := w.unknownNodes }
  (⟨arrival, outcome?.getD .panicked, left.link.sent.drop w.link.sent.length⟩, left)

def receiveAll (config : Config) (w : World) : List Arrival → List Received × World
  | [] => ([], w)
  | arrival :: rest =>
    let (received, w) := receive config w arrival
    let (more, w) := receiveAll config w rest
    (received :: more, w)

variable {w w' : World} {arrival : Arrival} {arrivals : List Arrival}

theorem ask_together (config : Config) (arrival : Arrival) (h : w.Alike w') (node : NodeId) :
    World.Together w (ask config arrival w node) w' (ask config arrival w' node) :=
  (h.within (arrival.asking node) _).2

theorem asks_together (config : Config) (arrival : Arrival) (h : w.Alike w') (nodes : List NodeId) :
    World.Together w (nodes.foldl (ask config arrival) w) w' (nodes.foldl (ask config arrival) w') := by
  induction nodes generalizing w w' with
  | nil => exact h.together
  | cons node nodes ih =>
    have hfirst := ask_together config arrival h node
    exact hfirst.trans (ih hfirst.alike)

/-- In worlds that are alike, the same comes of an arrival, and the worlds stay alike. -/
theorem receive_together (config : Config) (arrival : Arrival) (h : w.Alike w') :
    (receive config w' arrival).1 = (receive config w arrival).1 ∧
      World.Together w (receive config w arrival).2 w' (receive config w' arrival).2 := by
  obtain ⟨houtcome, hhandled⟩ := h.within arrival.handling (handle config arrival.message) (n := 0)
  set handled := ((handle config arrival.message).within arrival.handling 0 w).2 with hw
  set handled' := ((handle config arrival.message).within arrival.handling 0 w').2 with hw'
  have hafter : World.Together w { handled with unknownNodes := w.unknownNodes } w'
      { handled' with unknownNodes := w'.unknownNodes } :=
    ⟨⟨hhandled.alike.store, hhandled.alike.ttl, hhandled.alike.scaleUps, h.unknownNodes⟩, hhandled.sent⟩
  have hdone := hafter.trans (asks_together config arrival hafter.alike
    (handled.unknownNodes.drop w.unknownNodes.length))
  simp only [receive, ← hw, ← hw', houtcome, hhandled.alike.unknownNodes, h.unknownNodes]
  rw [h.unknownNodes] at hdone
  exact ⟨by rw [hdone.news], hdone⟩

theorem receive_sent (config : Config) (w : World) (arrival : Arrival) :
    (receive config w arrival).2.link.sent = w.link.sent ++ (receive config w arrival).1.news := by
  obtain ⟨news, hsent, -⟩ := (receive_together config arrival (.refl w)).2.sent
  have hnews : (receive config w arrival).1.news =
      (receive config w arrival).2.link.sent.drop w.link.sent.length := rfl
  rw [hnews, hsent, List.drop_left]

theorem receive_of_known {outcome : Outcome} {v : World}
    (h : (handle config arrival.message).within arrival.handling 0 w = (some outcome, v))
    (hknown : v.unknownNodes = w.unknownNodes) :
    receive config w arrival = (⟨arrival, outcome, v.link.sent.drop w.link.sent.length⟩, v) := by
  simp only [receive, h, hknown, List.drop_length, List.foldl_nil, Option.getD_some]
  rw [← hknown]

/-- The events that tell of an unreadable message: one, if it is a command that still names its
application. -/
def errorEvents (arrival : Arrival) : List Sent :=
  (arrival.message.blamed?).toList.map fun (app, text) => ⟨Subject.appEvent,
    AppEvent.codec.write ⟨app, .error, text, (arrival.handling.clocks 0).2⟩, none,
    Subject.appEvent ∈ arrival.handling.refused 1⟩

/-- An unreadable message leaves the world as it was, but for the event. -/
theorem receive_unreadable (config : Config) (w : World) (h : ¬ arrival.message.isReadable) :
    (receive config w arrival).1.outcome.isNothing ∧ w.Alike (receive config w arrival).2 ∧
      (receive config w arrival).1.news = errorEvents arrival := by
  rcases handle_unreadable config h with ⟨hnone, outcome, hnothing, hhandle⟩ |
    ⟨app, text, hblamed, hhandle⟩
  · have hwithin : (handle config arrival.message).within arrival.handling 0 w = (some outcome, w) := by
      rw [hhandle]
      rfl
    rw [receive_of_known hwithin rfl, errorEvents, hnone]
    exact ⟨hnothing, .refl w, List.drop_length⟩
  · let found := arrival.handling.enter 1 w
    let told := found.link.publish Subject.appEvent
      (AppEvent.codec.write ⟨app, .error, text, (arrival.handling.clocks 0).2⟩)
    have hwithin : (handle config arrival.message).within arrival.handling 0 w =
        (some .none, { found with link := told.2 }) := by
      rw [hhandle]
      rfl
    rw [receive_of_known hwithin rfl, errorEvents, hblamed]
    refine ⟨rfl, ⟨rfl, rfl, rfl, rfl⟩, ?_⟩
    have hsent : told.2.sent = w.link.sent ++ _ := found.link.publish_sent Subject.appEvent _
    simp only [hsent, List.drop_left]
    rfl

theorem receiveAll_sent (config : Config) (w : World) (arrivals : List Arrival) :
    (receiveAll config w arrivals).2.link.sent =
      w.link.sent ++ (receiveAll config w arrivals).1.flatMap (·.news) := by
  induction arrivals generalizing w with
  | nil => simp [receiveAll]
  | cons arrival rest ih => simp [receiveAll, ih, receive_sent]

theorem receiveAll_arrivals (config : Config) (w : World) (arrivals : List Arrival) :
    (receiveAll config w arrivals).1.map (·.arrival) = arrivals := by
  induction arrivals generalizing w with
  | nil => rfl
  | cons arrival rest ih =>
    have hfirst : (receive config w arrival).1.arrival = arrival := rfl
    simp [receiveAll, ih, hfirst]

/-- Without the unreadable ones, the same comes of the others, in worlds that stay alike. -/
theorem receiveAll_readable (config : Config) (arrivals : List Arrival) (h : w.Alike w') :
    (receiveAll config w' (arrivals.filter (·.message.isReadable))).1 =
        (receiveAll config w arrivals).1.filter (·.arrival.message.isReadable) ∧
      (receiveAll config w arrivals).2.Alike
        (receiveAll config w' (arrivals.filter (·.message.isReadable))).2 := by
  induction arrivals generalizing w w' with
  | nil => exact ⟨rfl, h⟩
  | cons arrival rest ih =>
    have harrival : (receive config w arrival).1.arrival = arrival := rfl
    by_cases hreadable : arrival.message.isReadable
    · obtain ⟨hsame, hdone⟩ := receive_together config arrival h
      obtain ⟨hrest, halike⟩ := ih hdone.alike
      simp only [List.filter_cons, hreadable, if_true, receiveAll, harrival, hsame, hrest]
      exact ⟨trivial, halike⟩
    · obtain ⟨-, hkept, -⟩ := receive_unreadable config w hreadable
      obtain ⟨hrest, halike⟩ := ih (hkept.symm.trans h)
      simp only [List.filter_cons, hreadable, receiveAll, harrival]
      exact ⟨hrest, halike⟩

theorem receiveAll_unreadable {received : Received} (h : received ∈ (receiveAll config w arrivals).1)
    (hunreadable : ¬ received.arrival.message.isReadable) : received.outcome.isNothing ∧
      received.news = errorEvents received.arrival := by
  induction arrivals generalizing w with
  | nil => simp [receiveAll] at h
  | cons arrival rest ih =>
    rcases List.mem_cons.1 h with rfl | hlater
    · obtain ⟨hnothing, -, hnews⟩ := receive_unreadable config w hunreadable
      exact ⟨hnothing, hnews⟩
    · exact ih hlater

/-- Messages arrive one after the other, in any world and any surroundings. Without those that cannot be
read the same store, ledger, nodes and cooldowns are left, the same comes of the others, and the same is
sent for them in the same order. Of an unreadable one comes nothing, and nothing is sent for it but the
event that tells of a command. -/
theorem unreadable_inert (config : Config) (w : World) (arrivals : List Arrival) :
    let all := receiveAll config w arrivals
    let kept := receiveAll config w (arrivals.filter (·.message.isReadable))
    all.2.Alike kept.2 ∧
      kept.1 = all.1.filter (·.arrival.message.isReadable) ∧
      all.2.link.sent = w.link.sent ++ all.1.flatMap (·.news) ∧
      kept.2.link.sent = w.link.sent ++ kept.1.flatMap (·.news) ∧
      all.1.map (·.arrival) = arrivals ∧
      (∀ received ∈ all.1, ¬ received.arrival.message.isReadable →
        received.outcome.isNothing ∧ received.news = errorEvents received.arrival) ∧
      ∀ e, (Call.message e).activity config = (do let _ ← handle config e) := by
  obtain ⟨hreceived, halike⟩ := receiveAll_readable config arrivals (.refl w)
  refine ⟨halike, hreceived, receiveAll_sent config w arrivals, receiveAll_sent config w _,
    receiveAll_arrivals config w arrivals, fun received h hunreadable => ?_, activity_eq_handle config⟩
  exact receiveAll_unreadable h hunreadable

def quiet : Surroundings where
  clocks _ := (5, 5)
  horizon _ := .full
  refused _ := []
  replies _ := .ok []

def tornStop : Arrival where
  message := ⟨Subject.hmStop, .record [("droplet", .string "web")], none⟩
  handling := quiet
  asking _ := quiet

def firstHeartbeat : Arrival where
  message := ⟨Subject.nodeHeartbeat, Heartbeat.codec.write ⟨"node-1", []⟩, none⟩
  handling := quiet
  asking _ := quiet

theorem unreadable_inert_web :
    let all := receiveAll .default (.initial 0 0 30) [tornStop, firstHeartbeat]
    let kept := receiveAll .default (.initial 0 0 30) [firstHeartbeat]
    all.2.Alike kept.2 ∧
      (all.2.link.sent.map (·.subject), kept.2.link.sent.map (·.subject)) =
        ([Subject.appEvent, Subject.nodeStatus "node-1"], [Subject.nodeStatus "node-1"]) ∧
      ∃ received ∈ all.1, received.arrival = tornStop ∧ received.outcome.isNothing ∧
        received.news = errorEvents tornStop := by
  obtain ⟨halike, -, -, -, -, hunreadable, -⟩ :=
    unreadable_inert .default (.initial 0 0 30) [tornStop, firstHeartbeat]
  have hkept : [tornStop, firstHeartbeat].filter (·.message.isReadable) = [firstHeartbeat] := by
    simp [show tornStop.message.isReadable = false from by decide +kernel,
      show firstHeartbeat.message.isReadable = true from by decide +kernel]
  rw [hkept] at halike
  have hfirst : (receive .default (.initial 0 0 30) tornStop).1 ∈
      (receiveAll .default (.initial 0 0 30) [tornStop, firstHeartbeat]).1 := List.mem_cons_self
  obtain ⟨hnothing, hnews⟩ := hunreadable _ hfirst (by decide +kernel)
  exact ⟨halike, by decide +kernel, _, hfirst, rfl, hnothing, hnews⟩

end Inbound

end AppFleet
