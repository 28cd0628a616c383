import AppFleet.Node.Identify
import AppFleet.Proofs.Activity.Course

/-! What it makes of the registry to ask a node who it is. Whatever node the reply names, it counts as
the answer, and it is recorded under the name that it gives. -/

namespace AppFleet

namespace Registry

variable {registry : Registry} {now ttl : UInt64} {status : NodeStatus}

theorem get?_ingest (registry : Registry) (now ttl : UInt64) (status : NodeStatus) (node : NodeId) :
    (registry.ingest now ttl status).get? node =
      if node = status.nodeId then some (identified now ttl status) else registry.get? node := by
  split
  · subst node
    exact Table.get?_put_self _ _ _
  · exact Table.get?_put_of_ne _ _ ‹_›

def IdentifiedBy (registry : Registry) (node : NodeId) (status : NodeStatus) : Prop :=
  ∃ r, registry.get? node = some r ∧ r.isIdentified ∧ r.address = some status.address ∧
    r.version = some status.version

theorem ingest_identifies : (registry.ingest now ttl status).IdentifiedBy status.nodeId status :=
  ⟨_, by rw [get?_ingest, if_pos rfl], rfl, rfl, rfl⟩

end Registry

namespace Node

open Activity

def question (timeoutMs : UInt64) (node : NodeId) : Request :=
  .single (Subject.nodeStatus node) (.object []) timeoutMs.toNat

theorem awaits_question (w : World) (timeoutMs : UInt64) (node : NodeId) :
    w.Awaits (question timeoutMs node) := w.awaits_of_toNat rfl

def statusOf : Replies → Option NodeStatus
  | .ok (reply :: _) => (NodeStatus.codec.read reply).toOption
  | _ => none

variable {timeoutMs : UInt64} {node : NodeId} {steps rest : List Step} {answer : Bool}
  {asked : World} {replies : Replies}

theorem identify_eq : identify timeoutMs node = do
    match statusOf (← ask (question timeoutMs node)) with
    | some status =>
      perform (.ingestStatus status)
      return true
    | none => return false := by
  unfold identify
  refine bind_congr fun replies => ?_
  match replies with
  | .ok (reply :: _) => cases h : NodeStatus.codec.read reply <;> simp [statusOf, h, Except.toOption]
  | .ok [] => rfl
  | .error _ => rfl

/-- One node is asked, once. What comes back is recorded if it is a status, and all else is no
answer. -/
theorem identify_goes_iff : (identify timeoutMs node).Goes steps answer ↔ ∃ asked replies,
    (statusOf replies = none ∧ steps = [.ask asked (question timeoutMs node) replies] ∧
      answer = false) ∨
    ∃ status found, statusOf replies = some status ∧
      steps = [.ask asked (question timeoutMs node) replies, .act found (.ingestStatus status)] ∧
      answer = true := by
  rw [identify_eq, goes_bind]
  constructor
  · rintro ⟨_, rest, replies, rfl, hask, hrest⟩
    obtain ⟨asked, -, rfl⟩ := (goes_ask _ _).1 hask
    refine ⟨asked, replies, ?_⟩
    cases hstatus : statusOf replies with
    | none =>
      rw [hstatus] at hrest
      obtain ⟨rfl, rfl⟩ := hrest
      exact .inl ⟨rfl, rfl, rfl⟩
    | some status =>
      rw [hstatus] at hrest
      obtain ⟨u, hingest, rfl⟩ := (goes_bind_pure _ _ _).1 hrest
      obtain ⟨found, rfl, -⟩ := (goes_perform _ _).1 hingest
      exact .inr ⟨status, found, rfl, rfl, rfl⟩
  · rintro ⟨asked, replies, ⟨hstatus, rfl, rfl⟩ | ⟨status, found, hstatus, rfl, rfl⟩⟩
    · refine ⟨[_], [], replies, rfl, (goes_ask _ _).2 ⟨asked, awaits_question _ _ _, rfl⟩, ?_⟩
      rw [hstatus]
      exact ⟨rfl, rfl⟩
    · refine ⟨[_], [_], replies, rfl, (goes_ask _ _).2 ⟨asked, awaits_question _ _ _, rfl⟩, ?_⟩
      rw [hstatus]
      exact (goes_bind_pure _ _ _).2 ⟨(), (goes_perform _ _).2 ⟨found, rfl, rfl⟩, rfl⟩

theorem steady_identify (timeoutMs : UInt64) (node : NodeId) : (identify timeoutMs node).Steady := by
  rw [identify_eq]
  refine Steady.bind (fun steps h => ?_) fun _ replies _ => ?_
  · obtain ⟨w, -, hlost⟩ := (panics_ask _).1 h
    exact hlost (awaits_question w timeoutMs node)
  · cases statusOf replies with
    | none => exact steady_pure _
    | some status => exact (steady_perform _).bind fun _ _ _ => steady_pure _

/-- What an answer should mean after these steps: that the node asked is identified as it replied, and
that no record of another node was touched. -/
structure Vouches (node : NodeId) (replies : Replies) (steps : List Step) (answer : Bool) : Prop where
  identified : answer = true → ∃ status ∈ statusOf replies, ∃ found action,
    steps.getLast? = some (.act found action) ∧
      (found.perform action).2.store.nodes.IdentifiedBy node status
  others : ∀ found action, .act found action ∈ steps → ∀ other ≠ node,
    (found.perform action).2.store.nodes.get? other = found.store.nodes.get? other

/-- With these replies the answer means what it should, whatever there is in the registry. -/
def Reliable (timeoutMs : UInt64) (node : NodeId) (replies : Replies) : Prop :=
  ∀ asked rest answer, (identify timeoutMs node).Goes
    (.ask asked (question timeoutMs node) replies :: rest) answer → Vouches node replies rest answer

theorem vouches_ingest {status : NodeStatus} {found : World} (hstatus : statusOf replies = some status) :
    Vouches status.nodeId replies [.act found (.ingestStatus status)] true where
  identified _ := ⟨status, hstatus, found, _, rfl, Registry.ingest_identifies⟩
  others := by
    rintro found action hstep other hother
    cases List.mem_singleton.1 hstep
    exact (Registry.get?_ingest _ _ _ _ _).trans (if_neg hother)

/-- What another node replies does not identify one of which nothing is known yet. -/
theorem not_vouches_ingest {status : NodeStatus} {found : World} (h : status.nodeId ≠ node)
    (hunknown : found.store.nodes.get? node = none) :
    ¬ Vouches node replies [.act found (.ingestStatus status)] true := by
  rintro ⟨hidentified, -⟩
  obtain ⟨_, -, _, _, hlast, r, hr, -⟩ := hidentified rfl
  cases hlast
  have hkept : (found.perform (.ingestStatus status)).2.store.nodes.get? node = none :=
    ((Registry.get?_ingest _ _ _ _ _).trans (if_neg h.symm)).trans hunknown
  cases hr.symm.trans hkept

/-- Whatever the registry holds, whoever else writes to it meanwhile and whatever comes back: a first
reply that is a status counts as the answer, and is recorded for the node that it names, in place of
what was known of that one; all other records stay, and without such a reply all do. So the answer
means what it should exactly if the reply does not name another node than was asked. There always is
an answer. -/
theorem identify_reliable_iff (timeoutMs : UInt64) (node : NodeId) (replies : Replies) :
    (identify timeoutMs node).Steady ∧
    (Reliable timeoutMs node replies ↔ ∀ status ∈ statusOf replies, status.nodeId = node) ∧
    ∀ asked rest answer, (identify timeoutMs node).Goes
        (.ask asked (question timeoutMs node) replies :: rest) answer →
      answer = (statusOf replies).isSome ∧ (statusOf replies = none → rest = []) ∧
      ∀ status ∈ statusOf replies, ∃ found, rest = [.act found (.ingestStatus status)] ∧
        ∀ other, (found.perform (.ingestStatus status)).2.store.nodes.get? other =
          if other = status.nodeId then some (Registry.identified found.clock found.ttl status)
          else found.store.nodes.get? other := by
  refine ⟨steady_identify _ _, ⟨fun h status hstatus => ?_, fun h asked rest answer hgoes => ?_⟩,
    fun asked rest answer hgoes => ?_⟩
  · by_contra hname
    let w : World := .initial 0 0 0
    have hgoes : (identify timeoutMs node).Goes
        [.ask w (question timeoutMs node) replies, .act w (.ingestStatus status)] true :=
      identify_goes_iff.2 ⟨w, replies, .inr ⟨status, w, hstatus, rfl, rfl⟩⟩
    exact not_vouches_ingest hname rfl (h w _ true hgoes)
  · obtain ⟨_, _, ⟨hstatus, hsteps, rfl⟩ | ⟨status, found, hstatus, hsteps, rfl⟩⟩ :=
      identify_goes_iff.1 hgoes
    · cases hsteps
      exact ⟨by simp, by simp⟩
    · cases hsteps
      rw [← h status hstatus]
      exact vouches_ingest hstatus
  · obtain ⟨_, _, ⟨hstatus, hsteps, rfl⟩ | ⟨status, found, hstatus, hsteps, rfl⟩⟩ :=
      identify_goes_iff.1 hgoes
    · cases hsteps
      simp [hstatus]
    · cases hsteps
      refine ⟨by simp [hstatus], by simp [hstatus], fun status' hstatus' => ?_⟩
      obtain rfl := Option.some.inj (hstatus.symm.trans hstatus')
      exact ⟨found, rfl, Registry.get?_ingest _ _ _ _⟩

def statusOfNode2 : NodeStatus := ⟨"node-2", "10.0.0.2:4000", "1.4.2"⟩

def node2Replies : Replies := .ok [NodeStatus.codec.write statusOfNode2]

theorem statusOf_node2Replies : statusOf node2Replies = some statusOfNode2 := rfl

/-- Asked itself, it can be relied on. -/
theorem identify_reliable_iff_node2 : Reliable 200 "node-2" node2Replies := by
  obtain ⟨-, hiff, -⟩ := identify_reliable_iff 200 "node-2" node2Replies
  refine hiff.2 fun status hstatus => ?_
  obtain rfl := Option.some.inj (statusOf_node2Replies.symm.trans hstatus)
  rfl

theorem takes_other_for_asked : ¬ ∀ (timeoutMs : UInt64) (node : NodeId) (replies : Replies),
    Reliable timeoutMs node replies := by
  intro h
  let w : World := .initial 1000 1000 30
  have hgoes : (identify 200 "node-1").Goes
      [.ask w (question 200 "node-1") node2Replies, .act w (.ingestStatus statusOfNode2)] true :=
    identify_goes_iff.2 ⟨w, _, .inr ⟨_, w, statusOf_node2Replies, rfl, rfl⟩⟩
  exact not_vouches_ingest (by decide) rfl (h 200 "node-1" _ w _ true hgoes)

end Node

end AppFleet
