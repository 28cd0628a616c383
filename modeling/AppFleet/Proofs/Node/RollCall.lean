import AppFleet.Proofs.Fleet.Sent
import AppFleet.Proofs.Node.History
import AppFleet.Simulation.Basic

/-! The roll call: heartbeats, announcements and the probes of the nodes that were heard from for the
first time. A probe takes its turns one by one, so that anything may come in between, and its reply may
come as late as it likes. Who is to be probed is told by a law of conservation: a node was asked, is
about to be, or waits in the queue, once if its first message was a heartbeat and never otherwise. -/

namespace AppFleet

namespace Node

open Activity

def note (replies : Replies) : Activity Unit :=
  match statusOf replies with
  | some status => perform (.ingestStatus status)
  | none => pure ()

/-- How far the asking of a node can be by a moment. -/
inductive IsProbe (timeoutMs : UInt64) (now : Nat) : Stage Unit → Prop where
  | ready (node : NodeId) {wake : Nat} (h : wake ≤ now) :
      IsProbe timeoutMs now (.asleep wake (.request (question timeoutMs node) note))
  | waiting (x : Exchange) : IsProbe timeoutMs now (.waiting x note)
  | replied (replies : Replies) {wake : Nat} (h : wake ≤ now) :
      IsProbe timeoutMs now (.asleep wake (note replies))
  | finished : IsProbe timeoutMs now (.finished ())

def records (now : Nat) (clock : UInt64) (stage : Stage Unit) : List Registry.Notice :=
  match stage.action? now with
  | some (.ingestStatus status) => [.status clock status]
  | _ => []

variable {timeoutMs : UInt64} {now later : Nat} {node : NodeId} {stage : Stage Unit} {replies : Replies}

theorem probe_eq (timeoutMs : UInt64) (node : NodeId) :
    (do let _ ← identify timeoutMs node) = Activity.request (question timeoutMs node) note := by
  rw [identify_eq]
  refine congrArg (Activity.request _) (funext fun replies => ?_)
  simp only [note, Activity.bind]
  cases statusOf replies <;> rfl

theorem action?_note {wake : Nat} (h : wake ≤ now) (replies : Replies) :
    (Stage.asleep wake (note replies)).action? now = (statusOf replies).map .ingestStatus := by
  unfold note
  cases statusOf replies with
  | none => rfl
  | some status => exact if_pos h

theorem request?_note (wake : Nat) (replies : Replies) :
    (Stage.asleep wake (note replies)).request? now = none := by
  unfold note
  cases statusOf replies <;> rfl

namespace IsProbe

theorem mono (h : IsProbe timeoutMs now stage) (hle : now ≤ later) :
    IsProbe timeoutMs later stage ∧ stage.request? later = stage.request? now := by
  cases h with
  | ready node h => exact ⟨.ready node (Nat.le_trans h hle), by simp [Stage.request?, h, Nat.le_trans h hle]⟩
  | waiting x => exact ⟨.waiting x, rfl⟩
  | replied replies h => exact ⟨.replied replies (Nat.le_trans h hle), by simp only [request?_note]⟩
  | finished => exact ⟨.finished, rfl⟩

theorem turn (h : IsProbe timeoutMs now stage) (w : World) :
    IsProbe timeoutMs now (stage.turn now w).1 ∧ (stage.turn now w).1.request? now = none := by
  cases h with
  | ready node h =>
    simp only [Stage.turn, if_pos h, Activity.turn]
    split
    · exact ⟨.waiting _, rfl⟩
    · rename_i hsent
      exact absurd rfl ((World.request_awaits (congrArg Prod.fst hsent)).1 (awaits_question w _ _))
    · exact ⟨.replied _ (Nat.le_refl _), request?_note _ _⟩
  | waiting x =>
    simp only [Stage.turn]
    split
    · exact ⟨.replied _ (Nat.le_refl _), request?_note _ _⟩
    · exact ⟨.waiting _, rfl⟩
  | replied replies h =>
    simp only [Stage.turn, if_pos h, note]
    cases statusOf replies with
    | none => exact ⟨.finished, rfl⟩
    | some status => exact ⟨.replied (.ok []) (Nat.le_refl _), rfl⟩
  | finished => exact ⟨.finished, rfl⟩

/-- A turn sends the question that was due and records the status that was replied, and that is all it
does to the world. -/
theorem after (h : IsProbe timeoutMs now stage) (w : World) :
    ∃ link : Link, stage.after now w = { w with
        store := { w.store with
          nodes := (records now w.clock stage).foldl (Registry.Notice.perform w.ttl) w.store.nodes }
        link } ∧
      link.sent.map (·.subject) =
        w.link.sent.map (·.subject) ++ (stage.request? now).toList.map (·.subject) := by
  cases h with
  | ready node h =>
    refine ⟨(w.request now (question timeoutMs node)).2.link, ?_, ?_⟩
    · simp [Stage.after, h, records, Stage.action?, World.request]
    · simp [Stage.request?, h, (w.request_sent now _).1, Request.sent]
  | waiting x => exact ⟨_, rfl, by simp [Stage.request?]⟩
  | replied replies h =>
    refine ⟨w.link, ?_, by simp [request?_note]⟩
    rw [records, action?_note h]
    unfold note
    cases statusOf replies with
    | none => rfl
    | some status => exact if_pos h
  | finished => exact ⟨w.link, rfl, by simp [Stage.request?]⟩

/-- What a probe is replied, it goes on with. -/
theorem turn_of_replied {w : World} (h : IsProbe timeoutMs now stage)
    (hreplied : stage.replies? now w = some replies) :
    (stage.turn now w).1 = .asleep now (note replies) := by
  cases h with
  | ready node h =>
    rcases hsent : w.request now (question timeoutMs node) with ⟨sent, w'⟩
    cases sent with
    | ok x => simp [Stage.replies?, h, hsent] at hreplied
    | error e =>
      obtain rfl : .error e = replies := by simpa [Stage.replies?, h, hsent] using hreplied
      simp [Stage.turn, Activity.turn, h, hsent]
  | waiting x =>
    rcases hpolled : x.poll w.link.bus now with ⟨came, x', bus⟩
    obtain rfl : came = some replies := by simpa [Stage.replies?, hpolled] using hreplied
    simp [Stage.turn, hpolled]
  | replied replies' h =>
    unfold note at hreplied
    cases hs : statusOf replies' <;> simp [hs, Stage.replies?, perform, pure] at hreplied
  | finished => cases hreplied

end IsProbe

end Node

namespace RollCall

open Registry (Notice recorded about latestStatus?)

inductive Event where
  /-- A heartbeat comes in, and is handled. -/
  | heartbeat (payload : Json)
  /-- A node announces itself, and that is handled. -/
  | announcement (payload : Json)
  /-- The nodes in the queue are about to be probed. -/
  | askUnknown
  /-- One of the probes takes its next turn. -/
  | turn (probe : Nat)
  | wait (ms : Nat)
  | setClocks (clock wallClock : UInt64) (horizon : Horizon)
  /-- Anyone on the bus sends something, as a node does that replies to a probe. -/
  | deliver (e : Envelope)
  /-- From now on the bus refuses to send on these subjects. -/
  | refuse (subjects : List String)
  | closeBus

def start (config : Config) (clock wallClock : UInt64) : Simulation :=
  .initial (.initial clock wallClock config.ledger.ttlSecs) config.ledger.identifyMs

def handle (s : Simulation) (handler : Activity Unit) : Simulation :=
  { s with world := (handler.advance s.now s.world).2 }

def takeTurn (s : Simulation) (i : Nat) : Simulation :=
  match s.background[i]? with
  | none => s
  | some probe =>
    let (probe, world) := probe.turn s.now s.world
    { s with world, background := s.background.set i probe }

def withLink (s : Simulation) (link : Link) : Simulation := { s with world := { s.world with link } }

def step (s : Simulation) : Event → Simulation
  | .heartbeat payload => handle s (Ledger.handleHeartbeat payload)
  | .announcement payload => handle s (Node.handleStatus payload)
  | .askUnknown => s.askUnknown
  | .turn i => takeTurn s i
  | .wait ms => { s with now := s.now + ms }
  | .setClocks clock wallClock horizon => { s with world := { s.world with clock, wallClock, horizon } }
  | .deliver e => withLink s { s.world.link with bus := s.world.link.bus.deliver e }
  | .refuse subjects => withLink s { s.world.link with refused := subjects }
  | .closeBus => withLink s { s.world.link with bus := s.world.link.bus.close }

def run (s : Simulation) (es : List Event) : Simulation := es.foldl step s

def notices (s : Simulation) : Event → List Notice
  | .heartbeat payload => match Heartbeat.codec.read payload with
    | .ok heartbeat => [.heartbeat s.world.clock heartbeat.nodeId]
    | .error _ => []
  | .announcement payload => match NodeStatus.codec.read payload with
    | .ok status => [.status s.world.clock status]
    | .error _ => []
  | .turn i => s.background[i]?.elim [] (Node.records s.now s.world.clock)
  | _ => []

def history (s : Simulation) : List Event → List Notice
  | [] => []
  | e :: es => notices s e ++ history (step s e) es

def asked (s : Simulation) (node : NodeId) : Nat :=
  (s.world.link.sent.map (·.subject)).count (Subject.nodeStatus node)

def isToAsk (now : Nat) (node : NodeId) (probe : Stage Unit) : Bool :=
  (probe.request? now).any (·.subject = Subject.nodeStatus node)

def toAsk (s : Simulation) (node : NodeId) : Nat := s.background.countP (isToAsk s.now node)

/-- How often a node is to be asked. -/
def due (node : NodeId) (ns : List Notice) : Nat :=
  if (about node ns).head?.any (·.isHeartbeat) then 1 else 0

structure Consistent (config : Config) (s : Simulation) (ns : List Notice) : Prop where
  ttl : s.world.ttl = config.ledger.ttlSecs
  timeout : s.identifyMs = config.ledger.identifyMs
  nodes : s.world.store.nodes = recorded config.ledger.ttlSecs ns
  probes : ∀ probe ∈ s.background, Node.IsProbe config.ledger.identifyMs s.now probe
  conserved : ∀ node, asked s node + toAsk s node + s.world.unknownNodes.count node = due node ns

variable {config : Config} {s : Simulation} {ns : List Notice} {node : NodeId}

/-- A status is no first heartbeat, and no heartbeat is the first after it. -/
theorem due_append_statuses {more : List Notice} (h : ∀ n ∈ more, n.isHeartbeat = false) :
    due node (ns ++ more) = due node ns := by
  unfold due
  rw [Registry.about_append]
  cases hns : about node ns with
  | cons n rest => rfl
  | nil =>
    cases hmore : about node more with
    | nil => rfl
    | cons n rest =>
      have hn : n ∈ about node more := hmore ▸ List.mem_cons_self
      simp [h n (List.mem_filter.1 hn).1]

/-- The first heartbeat is due a question if there was nothing under its id before. -/
theorem due_concat_heartbeat (ns : List Notice) (clock : UInt64) (sender : NodeId) :
    due node (ns ++ [.heartbeat clock sender]) =
      due node ns + if about sender ns = [] then [sender].count node else 0 := by
  unfold due
  by_cases h : sender = node
  · subst h
    have hconcat := Registry.about_concat_self ns (.heartbeat clock sender)
    rw [show (Notice.heartbeat clock sender).node = sender from rfl] at hconcat
    rw [hconcat]
    cases about sender ns with
    | nil => simp [Notice.isHeartbeat]
    | cons n rest => rfl
  · rw [Registry.about_concat_of_ne (show node ≠ (Notice.heartbeat clock sender).node from Ne.symm h)]
    simp [h]

theorem nodeStatus_inj {other : NodeId} :
    Subject.nodeStatus node = Subject.nodeStatus other ↔ node = other := by
  simp [Subject.nodeStatus]

theorem isToAsk_ready {timeoutMs : UInt64} {now wake : Nat} {other : NodeId} {next : Replies → Activity Unit}
    (h : wake ≤ now) :
    isToAsk now node (.asleep wake (.request (Node.question timeoutMs other) next)) =
      (other == node) := by
  rw [Bool.eq_iff_iff]
  simp [isToAsk, Stage.request?, h, Node.question, Request.single, nodeStatus_inj]

theorem count_request {now : Nat} {probe : Stage Unit} :
    ((probe.request? now).toList.map (·.subject)).count (Subject.nodeStatus node) =
      if isToAsk now node probe then 1 else 0 := by
  unfold isToAsk
  cases probe.request? now with
  | none => rfl
  | some r => simp [List.count_singleton]

theorem notices_turn (s : Simulation) (i : Nat) : ∀ n ∈ notices s (.turn i), n.isHeartbeat = false := by
  simp only [notices]
  cases s.background[i]? with
  | none => simp
  | some probe =>
    simp only [Option.elim_some, Node.records]
    split <;> simp [Notice.isHeartbeat]

theorem consistent_start (config : Config) (clock wallClock : UInt64) :
    Consistent config (start config clock wallClock) [] where
  ttl := rfl
  timeout := rfl
  nodes := rfl
  probes := by simp [start, Simulation.initial]
  conserved _ := rfl

namespace Consistent

theorem heartbeat (h : Consistent config s ns) (heartbeat : Heartbeat) :
    Consistent config { s with world := s.world.ingestHeartbeat heartbeat }
      (ns ++ [.heartbeat s.world.clock heartbeat.nodeId]) where
  ttl := h.ttl
  timeout := h.timeout
  nodes := by
    rw [Registry.recorded_concat, ← h.nodes, ← h.ttl]
    rfl
  probes := h.probes
  conserved node := by
    have hunseen : (s.world.store.nodes.get? heartbeat.nodeId).isNone ↔
        about heartbeat.nodeId ns = [] := by
      rw [h.nodes, Option.isNone_iff_eq_none, Registry.get?_recorded_eq_none_iff]
    have hqueue : (s.world.ingestHeartbeat heartbeat).unknownNodes.count node =
        s.world.unknownNodes.count node +
          if about heartbeat.nodeId ns = [] then [heartbeat.nodeId].count node else 0 := by
      simp only [World.ingestHeartbeat, World.touchNode, Registry.touch, hunseen, List.count_append]
      split <;> simp
    rw [due_concat_heartbeat, ← h.conserved node, Nat.add_assoc _ _ (ite ..), ← hqueue]
    rfl

theorem announcement (h : Consistent config s ns) (status : NodeStatus) :
    Consistent config { s with world := s.world.ingestStatus status }
      (ns ++ [.status s.world.clock status]) where
  ttl := h.ttl
  timeout := h.timeout
  nodes := by
    rw [Registry.recorded_concat, ← h.nodes, ← h.ttl]
    rfl
  probes := h.probes
  conserved node := by
    rw [due_append_statuses (by simp [Notice.isHeartbeat])]
    exact h.conserved node

theorem askUnknown (h : Consistent config s ns) : Consistent config s.askUnknown ns where
  ttl := h.ttl
  timeout := h.timeout
  nodes := h.nodes
  probes := by
    simp only [Simulation.askUnknown, List.mem_append, List.mem_map]
    rintro probe (hprobe | ⟨_, ⟨node, -, rfl⟩, rfl⟩)
    · exact h.probes probe hprobe
    · rw [Node.probe_eq, h.timeout]
      exact .ready node (Nat.le_refl _)
  conserved node := by
    -- Whoever was in the queue is about to be asked now.
    have hqueue : toAsk s.askUnknown node = toAsk s node + s.world.unknownNodes.count node := by
      simp only [toAsk, Simulation.askUnknown, List.countP_append, List.countP_map, Node.probe_eq,
        List.count_eq_countP]
      congr 2
      funext asked
      exact isToAsk_ready (Nat.le_refl _)
    rw [← h.conserved node, Nat.add_assoc (asked s node), ← hqueue]
    rfl

section

variable {i : Nat} {probe : Stage Unit}

theorem world_turn (h : Consistent config s ns) (hi : s.background[i]? = some probe) :
    ∃ link : Link, (takeTurn s i).world = { s.world with
        store := { s.world.store with
          nodes := (notices s (.turn i)).foldl (Notice.perform s.world.ttl) s.world.store.nodes }
        link } ∧
      link.sent.map (·.subject) =
        s.world.link.sent.map (·.subject) ++ (probe.request? s.now).toList.map (·.subject) := by
  have hafter := (h.probes probe (List.mem_of_getElem? hi)).after s.world
  rw [← Stage.turn_snd] at hafter
  simpa only [takeTurn, notices, hi, Option.elim_some] using hafter

theorem asked_turn (h : Consistent config s ns) (hi : s.background[i]? = some probe) (node : NodeId) :
    asked (takeTurn s i) node = asked s node + if isToAsk s.now node probe then 1 else 0 := by
  obtain ⟨link, hworld, hsent⟩ := h.world_turn hi
  rw [asked, hworld, hsent, List.count_append, count_request]
  rfl

/-- A probe that has asked is not about to any more. -/
theorem toAsk_turn (h : Consistent config s ns) (hi : s.background[i]? = some probe) (node : NodeId) :
    toAsk (takeTurn s i) node + (if isToAsk s.now node probe then 1 else 0) = toAsk s node := by
  obtain ⟨hlt, hget⟩ := List.getElem?_eq_some_iff.1 hi
  have hover : isToAsk s.now node (probe.turn s.now s.world).1 = false := by
    rw [isToAsk, ((h.probes probe (List.mem_of_getElem? hi)).turn s.world).2]
    rfl
  have hleft : toAsk (takeTurn s i) node =
      toAsk s node - if isToAsk s.now node probe then 1 else 0 := by
    simp [toAsk, takeTurn, hi, List.countP_set hlt, hget, hover]
  rw [hleft]
  split
  · have hpos : 0 < toAsk s node :=
      List.countP_pos_iff.2 ⟨probe, List.mem_of_getElem? hi, ‹_›⟩
    omega
  · rfl

end

theorem turn (h : Consistent config s ns) (i : Nat) :
    Consistent config (takeTurn s i) (ns ++ notices s (.turn i)) := by
  cases hi : s.background[i]? with
  | none => simpa [takeTurn, notices, hi] using h
  | some probe =>
    obtain ⟨link, hworld, -⟩ := h.world_turn hi
    have hnow : (takeTurn s i).now = s.now := by simp [takeTurn, hi]
    refine ⟨?_, ?_, ?_, ?_, fun node => ?_⟩
    · rw [hworld]
      exact h.ttl
    · simpa [takeTurn, hi] using h.timeout
    · rw [hworld, h.nodes, h.ttl, Registry.recorded, ← List.foldl_append]
      rfl
    · intro other hother
      simp only [takeTurn, hi] at hother hnow ⊢
      rcases List.mem_or_eq_of_mem_set hother with hother | rfl
      · exact h.probes other hother
      · exact ((h.probes probe (List.mem_of_getElem? hi)).turn s.world).1
    · -- A question goes over from those that are about to be sent to those that were.
      have hasked := h.asked_turn hi node
      have htoAsk := h.toAsk_turn hi node
      have hqueue : (takeTurn s i).world.unknownNodes = s.world.unknownNodes := by rw [hworld]
      rw [due_append_statuses (notices_turn s i), ← h.conserved node, hasked, hqueue]
      omega

theorem wait (h : Consistent config s ns) (ms : Nat) :
    Consistent config { s with now := s.now + ms } ns where
  ttl := h.ttl
  timeout := h.timeout
  nodes := h.nodes
  probes probe hprobe := ((h.probes probe hprobe).mono (Nat.le_add_right _ ms)).1
  conserved node := by
    have hsame : s.background.countP (isToAsk (s.now + ms) node) = toAsk s node := by
      refine List.countP_congr fun probe hprobe => ?_
      rw [isToAsk, isToAsk, ((h.probes probe hprobe).mono (Nat.le_add_right _ ms)).2]
    rw [← h.conserved node, ← hsame]
    rfl

protected theorem step (h : Consistent config s ns) (e : Event) :
    Consistent config (step s e) (ns ++ notices s e) := by
  cases e with
  | heartbeat payload =>
    simp only [step, handle, Ledger.handleHeartbeat, notices]
    cases Heartbeat.codec.read payload with
    | ok heartbeat => exact h.heartbeat heartbeat
    | error e => exact (List.append_nil ns).symm ▸ h
  | announcement payload =>
    simp only [step, handle, Node.handleStatus, notices]
    cases NodeStatus.codec.read payload with
    | ok status => exact h.announcement status
    | error e => exact (List.append_nil ns).symm ▸ h
  | askUnknown => exact (List.append_nil ns).symm ▸ h.askUnknown
  | turn i => exact h.turn i
  | wait ms => exact (List.append_nil ns).symm ▸ h.wait ms
  | setClocks | deliver | refuse | closeBus =>
    rw [show notices s _ = [] from rfl, List.append_nil]
    exact ⟨h.ttl, h.timeout, h.nodes, h.probes, h.conserved⟩

protected theorem run (h : Consistent config s ns) (es : List Event) :
    Consistent config (run s es) (ns ++ history s es) := by
  induction es generalizing s ns with
  | nil => exact (List.append_nil ns).symm ▸ h
  | cons e es ih =>
    rw [history, ← List.append_assoc]
    exact ih (h.step e)

/-- Once the queue is emptied, one more turn can bring the questions to a node up to the number due. -/
theorem exists_asked (h : Consistent config s ns) (node : NodeId) :
    ∃ i, asked (run s [.askUnknown, .turn i]) node = due node ns := by
  have hasking := h.askUnknown
  have hconserved : asked s.askUnknown node + toAsk s.askUnknown node = due node ns :=
    hasking.conserved node
  by_cases hask : ∃ probe ∈ s.askUnknown.background, isToAsk s.askUnknown.now node probe
  · obtain ⟨probe, hprobe, hask⟩ := hask
    obtain ⟨i, hi⟩ := List.getElem?_of_mem hprobe
    refine ⟨i, (hasking.asked_turn hi node).trans ?_⟩
    have hpos : 0 < toAsk s.askUnknown node := List.countP_pos_iff.2 ⟨probe, hprobe, hask⟩
    have honce : due node ns ≤ 1 := by
      unfold due
      split <;> simp
    rw [if_pos hask]
    omega
  · have hnone : toAsk s.askUnknown node = 0 := by
      refine List.countP_eq_zero.2 fun probe hprobe hp => hask ⟨probe, hprobe, hp⟩
    refine ⟨s.askUnknown.background.length, ?_⟩
    have hstays : run s [.askUnknown, .turn s.askUnknown.background.length] = s.askUnknown := by
      simp [run, step, takeTurn]
    rw [hstays]
    omega

end Consistent

theorem history_append (es es' : List Event) :
    history s (es ++ es') = history s es ++ history (run s es) es' := by
  induction es generalizing s with
  | nil => rfl
  | cons e es ih => simp [history, run, ih]

theorem background_run {i : Nat} {probe : Stage Unit} {es : List Event} (h : Event.turn i ∉ es)
    (hi : s.background[i]? = some probe) :
    (run s es).background[i]? = some probe ∧ s.now ≤ (run s es).now := by
  induction es generalizing s with
  | nil => exact ⟨hi, Nat.le_refl _⟩
  | cons e es ih =>
    have hstep : (step s e).background[i]? = some probe ∧ s.now ≤ (step s e).now := by
      cases e with
      | askUnknown =>
        exact ⟨by simp [step, Simulation.askUnknown,
          List.getElem?_append_left (List.getElem?_eq_some_iff.1 hi).1, hi], Nat.le_refl _⟩
      | turn j =>
        have hne : j ≠ i := fun hj => h (by simp [hj])
        simp only [step, takeTurn]
        cases s.background[j]? with
        | none => exact ⟨hi, Nat.le_refl _⟩
        | some other => exact ⟨by simpa [List.getElem?_set_ne hne] using hi, Nat.le_refl _⟩
      | wait ms => exact ⟨hi, Nat.le_add_right _ _⟩
      | _ => exact ⟨hi, Nat.le_refl _⟩
    obtain ⟨hrest, hnow⟩ := ih (fun hmem => h (List.mem_cons_of_mem _ hmem)) hstep.1
    exact ⟨hrest, Nat.le_trans hstep.2 hnow⟩

theorem Consistent.notices_of_replied {i : Nat} {probe : Stage Unit} {replies : Replies}
    {meanwhile : List Event} (h : Consistent config s ns) (hi : s.background[i]? = some probe)
    (hreplied : probe.replies? s.now s.world = some replies) (hquiet : Event.turn i ∉ meanwhile) :
    notices (run s (.turn i :: meanwhile)) (.turn i) = ((Node.statusOf replies).map
      (.status (run s (.turn i :: meanwhile)).world.clock)).toList := by
  have hturn := (h.probes probe (List.mem_of_getElem? hi)).turn_of_replied hreplied
  have hget : (takeTurn s i).background[i]? = some (.asleep s.now (Node.note replies)) := by
    simp only [takeTurn, hi, hturn]
    exact List.getElem?_set_self (List.getElem?_eq_some_iff.1 hi).1
  have hnow : (takeTurn s i).now = s.now := by simp [takeTurn, hi]
  obtain ⟨hlater, hle⟩ := background_run hquiet hget
  have hrun : run s (.turn i :: meanwhile) = run (takeTurn s i) meanwhile := rfl
  rw [hnow, ← hrun] at hle
  rw [← hrun] at hlater
  simp only [notices, hlater, Option.elim_some, Node.records, Node.action?_note hle]
  cases Node.statusOf replies <;> rfl

/-- Whatever comes in, in whatever order and at whatever readings of the clock, and whenever the probes
are replied: a record is of the latest message under its id, and tells what the latest status under it
told, if there was one; it is never removed, and an identification is never lost. A node is asked once
if its first message was a heartbeat, and never otherwise: the questions that were sent, those about to
be sent and the places in the queue add up to that number, and one turn is enough to reach it. What a
probe is replied, it records next if it is a status. -/
theorem roll_call (config : Config) (clock wallClock : UInt64) (es : List Event) (node : NodeId) :
    let s := run (start config clock wallClock) es
    let heard := about node (history (start config clock wallClock) es)
    let once := if heard.head?.any (·.isHeartbeat) then 1 else 0
    s.world.store.nodes.get? node = heard.getLast?.map (fun last =>
      ⟨node, (latestStatus? heard).map (·.address), (latestStatus? heard).map (·.version), last.now,
        config.ledger.ttlSecs⟩) ∧
    asked s node + toAsk s node + s.world.unknownNodes.count node = once ∧
    (∃ i, asked (run s [.askUnknown, .turn i]) node = once) ∧
    (∀ past, past <+: es → ∀ before,
      (run (start config clock wallClock) past).world.store.nodes.get? node = some before →
        ∃ now, s.world.store.nodes.get? node = some now ∧ (before.isIdentified → now.isIdentified)) ∧
    ∀ i probe replies, s.background[i]? = some probe → probe.replies? s.now s.world = some replies →
      ∀ meanwhile, Event.turn i ∉ meanwhile →
        notices (run s (.turn i :: meanwhile)) (.turn i) = ((Node.statusOf replies).map
          (.status (run s (.turn i :: meanwhile)).world.clock)).toList := by
  have hrun : ∀ es, Consistent config (run (start config clock wallClock) es)
      (history (start config clock wallClock) es) := (consistent_start config clock wallClock).run
  have hrecord : ∀ es, (run (start config clock wallClock) es).world.store.nodes.get? node =
      Registry.recordOf config.ledger.ttlSecs node
        (about node (history (start config clock wallClock) es)) := fun es => by
    rw [(hrun es).nodes, Registry.get?_recorded]
  refine ⟨hrecord es, (hrun es).conserved node, (hrun es).exists_asked node, ?_,
    fun i probe replies hi hreplied meanwhile hquiet =>
      (hrun es).notices_of_replied hi hreplied hquiet⟩
  rintro past ⟨rest, rfl⟩ before hbefore
  rw [hrecord, history_append, Registry.about_append]
  exact Registry.recordOf_append (hrecord past ▸ hbefore) _

def statusOfNode1 : NodeStatus := ⟨"node-1", "10.0.0.1:4000", "1.4.2"⟩

/-- It heartbeats, is asked, heartbeats at an earlier reading, and replies. -/
def node1Heard : List Event :=
  [.heartbeat (Heartbeat.codec.write ⟨"node-1", []⟩), .askUnknown, .turn 0, .setClocks 900 900 .full,
    .heartbeat (Heartbeat.codec.write ⟨"node-1", []⟩),
    .deliver ⟨"_INBOX.0", NodeStatus.codec.write statusOfNode1, none⟩]

/-- It was asked, is not identified yet, and its reply is recorded at a reading that is earlier than
the first and later than the last. -/
theorem roll_call_node1 :
    let s := run (start .default 1000 1000) node1Heard
    s.world.store.nodes.get? "node-1" = some ⟨"node-1", none, none, 900, 30⟩ ∧
    asked s "node-1" + toAsk s "node-1" + s.world.unknownNodes.count "node-1" = 1 ∧
    notices (run s [.turn 0, .setClocks 950 950 .full]) (.turn 0) = [.status 950 statusOfNode1] := by
  have hreplied : ∃ probe, (run (start .default 1000 1000) node1Heard).background[0]? = some probe ∧
      probe.replies? (run (start .default 1000 1000) node1Heard).now
        (run (start .default 1000 1000) node1Heard).world =
          some (.ok [NodeStatus.codec.write statusOfNode1]) := ⟨_, rfl, rfl⟩
  obtain ⟨probe, hi, hreplied⟩ := hreplied
  obtain ⟨hrecord, honce, -, -, hnext⟩ := roll_call .default 1000 1000 node1Heard "node-1"
  exact ⟨hrecord, honce, hnext 0 probe _ hi hreplied [.setClocks 950 950 .full] (by simp)⟩

end RollCall

end AppFleet
