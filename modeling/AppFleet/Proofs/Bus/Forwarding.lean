import AppFleet.Bus.Server
import AppFleet.Proofs.Bus.Delivery

/-! A served bus, one line and one forwarded message of a peer at a time. Every forwarder has a subscription
of its own, and queues to its peer what it reads from that. -/

namespace AppFleet

def Frame.on? (subject : String) : Frame → Option Envelope
  | message e => if e.subject = subject then some e else none
  | _ => none

namespace Peer

inductive Act where
  | line (r : Frame.Reading)
  /-- A forwarder moves one message. -/
  | forward (subject : String)
  /-- The connection ends, or shutting down reaches it. -/
  | leave
  /-- Bytes of a line that has not ended are put aside. -/
  | keep (unread : List UInt8)

def act (p : Peer) (b : Bus) : Act → Peer × Bus
  | .line r => p.read b r
  | .forward subject => p.forward b subject 1
  | .leave => p.close b
  | .keep unread => ({ p with unread }, b)

def moves (p : Peer) : Act → List Bus.Move
  | .line (.frame (.subscribe subject)) =>
    if (p.forwarder? subject).isSome then [] else [.subscribe subject]
  | .line (.frame (.unsubscribe subject)) =>
    (p.forwarder? subject).toList.map fun f => .drop f.subscription
  | .line (.frame (.publish e)) => [.deliver e]
  | .line (.frame (.message _)) | .line .malformed | .keep _ => []
  | .line .notText | .leave => p.forwarders.map fun f => .drop f.subscription
  | .forward subject => (p.forwarder? subject).toList.map fun f => .take f.subscription 1

/-- What stops the forwarder of a subject. -/
def Act.Stops (subject : String) (a : Act) : Prop :=
  a = .line (.frame (.unsubscribe subject)) ∨ a = .line .notText ∨ a = .leave

def queuedOn (p : Peer) (subject : String) : List Envelope := p.sent.filterMap (Frame.on? subject)

/-- What becomes of a peer, and what is done with the bus. -/
inductive Does (p : Peer) (b : Bus) : Act → Peer → List Bus.Move → Prop where
  | subscribes {t : String} : p.forwarder? t = none → Does p b (.line (.frame (.subscribe t)))
      { p with forwarders := p.forwarders ++ [⟨t, b.nextId⟩] } [.subscribe t]
  | unsubscribes {t : String} {f : Forwarder} : p.forwarder? t = some f →
      Does p b (.line (.frame (.unsubscribe t)))
        { p with forwarders := p.forwarders.filter (·.subject ≠ t) } [.drop f.subscription]
  | publishes {e : Envelope} : Does p b (.line (.frame (.publish e))) p [.deliver e]
  | forwards {t : String} {f : Forwarder} : p.forwarder? t = some f → Does p b (.forward t)
      { p with sent := p.sent ++ (b.take f.subscription 1).1.map .message } [.take f.subscription 1]
  | ends {a : Act} : a = .line .notText ∨ a = .leave →
      Does p b a { p with isOpen := false, forwarders := [], unread := [] }
        (p.forwarders.map fun f => .drop f.subscription)
  | rests {a : Act} {unread : List UInt8} :
      (∀ t, a.Stops t → p.forwarder? t = none) → Does p b a { p with unread } []

/-- Forwarders differ in their subjects and in their subscriptions, and end with the connection. -/
structure Orderly (p : Peer) : Prop where
  subject_inj : ∀ f ∈ p.forwarders, ∀ g ∈ p.forwarders, f.subject = g.subject → f = g
  subscription_inj : ∀ f ∈ p.forwarders, ∀ g ∈ p.forwarders, f.subscription = g.subscription → f = g
  closed : p.isOpen = false → p.forwarders = []

variable {p p' : Peer} {b : Bus} {a : Act} {f : Forwarder} {subject t : String} {id : Nat} {m : Bus.Move}
  {ms : List Bus.Move}

theorem mem_of_forwarder? (h : p.forwarder? subject = some f) : f ∈ p.forwarders ∧ f.subject = subject :=
  ⟨List.mem_of_find?_eq_some h, by simpa using List.find?_some h⟩

theorem forwarder?_eq_none_iff : p.forwarder? subject = none ↔ ∀ f ∈ p.forwarders, f.subject ≠ subject := by
  simp [forwarder?]

theorem Orderly.forwarder?_eq (h : p.Orderly) (hf : f ∈ p.forwarders) : p.forwarder? f.subject = some f := by
  cases hg : p.forwarder? f.subject with
  | none => exact absurd rfl (forwarder?_eq_none_iff.1 hg f hf)
  | some g =>
    obtain ⟨hmem, hsubject⟩ := mem_of_forwarder? hg
    rw [h.subject_inj g hmem f hf hsubject]

theorem after_drops (b : Bus) (fs : List Forwarder) :
    b.after (fs.map fun f => .drop f.subscription) = fs.foldl (fun b f => b.drop f.subscription) b := by
  rw [Bus.after, List.foldl_map]
  rfl

theorem act_snd (p : Peer) (b : Bus) (a : Act) : (p.act b a).2 = b.after (p.moves a) := by
  cases a with
  | line r =>
    cases r with
    | frame f =>
      cases f with
      | subscribe subject =>
        simp only [act, read, handle, subscribe, moves]
        cases p.forwarder? subject <;> rfl
      | unsubscribe subject =>
        simp only [act, read, handle, unsubscribe, moves]
        cases p.forwarder? subject <;> rfl
      | publish e | message e => rfl
    | malformed => rfl
    | notText => exact (after_drops b p.forwarders).symm
  | forward subject =>
    simp only [act, forward, moves]
    cases p.forwarder? subject <;> rfl
  | leave => exact (after_drops b p.forwarders).symm
  | keep unread => rfl

theorem does_act (p : Peer) (b : Bus) (a : Act) : p.Does b a (p.act b a).1 (p.moves a) := by
  cases a with
  | line r =>
    cases r with
    | frame frame =>
      cases frame with
      | subscribe subject =>
        simp only [act, read, handle, subscribe, moves]
        cases hf : p.forwarder? subject with
        | none => exact .subscribes hf
        | some f => exact .rests (by simp [Act.Stops])
      | unsubscribe subject =>
        simp only [act, read, handle, unsubscribe, moves]
        cases hf : p.forwarder? subject with
        | none => exact .rests (by simp [Act.Stops, hf])
        | some f => exact .unsubscribes hf
      | publish e => exact .publishes
      | message e => exact .rests (by simp [Act.Stops])
    | malformed => exact .rests (by simp [Act.Stops])
    | notText => exact .ends (.inl rfl)
  | forward subject =>
    simp only [act, forward, moves]
    cases hf : p.forwarder? subject with
    | none => exact .rests (by simp [Act.Stops])
    | some f => exact .forwards hf
  | leave => exact .ends (.inr rfl)
  | keep unread => exact .rests (by simp [Act.Stops])

namespace Does

/-- A peer drops and reads nothing but what is its forwarders' own. -/
theorem cases_of_mem (h : p.Does b a p' ms) (hm : m ∈ ms) :
    (∃ u, m = .subscribe u) ∨ (∃ e, m = .deliver e) ∨ (∃ f ∈ p.forwarders, m = .drop f.subscription) ∨
      ∃ f ∈ p.forwarders, m = .take f.subscription 1 := by
  cases h with
  | subscribes _ => exact .inl ⟨_, List.mem_singleton.1 hm⟩
  | unsubscribes hf => exact .inr (.inr (.inl ⟨_, (mem_of_forwarder? hf).1, List.mem_singleton.1 hm⟩))
  | publishes => exact .inr (.inl ⟨_, List.mem_singleton.1 hm⟩)
  | forwards hf => exact .inr (.inr (.inr ⟨_, (mem_of_forwarder? hf).1, List.mem_singleton.1 hm⟩))
  | ends _ =>
    obtain ⟨f, hf, rfl⟩ := List.mem_map.1 hm
    exact .inr (.inr (.inl ⟨f, hf, rfl⟩))
  | rests _ => simp at hm

theorem owns_of_mem (h : p.Does b a p' ms) (hm : .drop id ∈ ms ∨ ∃ most, .take id most ∈ ms) :
    ∃ f ∈ p.forwarders, f.subscription = id := by
  rcases hm with hm | ⟨most, hm⟩ <;>
    rcases h.cases_of_mem hm with ⟨u, heq⟩ | ⟨e, heq⟩ | ⟨f, hf, heq⟩ | ⟨f, hf, heq⟩ <;> cases heq
  · exact ⟨f, hf, rfl⟩
  · exact ⟨f, hf, rfl⟩

theorem mem_forwarders (h : p.Does b a p' ms) (hf : f ∈ p'.forwarders) : f ∈ p.forwarders ∨
    a = .line (.frame (.subscribe f.subject)) ∧ p.forwarder? f.subject = none ∧
      f.subscription = b.nextId ∧ ms = [.subscribe f.subject] := by
  cases h with
  | subscribes hnone =>
    rcases List.mem_append.1 hf with hf | hf
    · exact .inl hf
    · obtain rfl := List.mem_singleton.1 hf
      exact .inr ⟨rfl, hnone, rfl, rfl⟩
  | unsubscribes _ => exact .inl (List.mem_filter.1 hf).1
  | ends _ => simp at hf
  | publishes | forwards _ | rests _ => exact .inl hf

/-- A forwarder that goes on keeps its subscription. -/
theorem drop_not_mem (h : p.Does b a p' ms) (hp : p.Orderly) (hf : f ∈ p.forwarders)
    (hf' : f ∈ p'.forwarders) : .drop f.subscription ∉ ms := by
  intro hdrop
  cases h with
  | unsubscribes hg =>
    obtain ⟨hmem, hsubject⟩ := mem_of_forwarder? hg
    have heq := Bus.Move.drop.inj (List.mem_singleton.1 hdrop)
    obtain rfl := hp.subscription_inj f hf _ hmem heq
    simp [hsubject] at hf'
  | ends _ => simp at hf'
  | subscribes _ | publishes | forwards _ | rests _ => simp at hdrop

/-- A connection that ends takes its forwarders with it. -/
theorem isOpen_or (h : p.Does b a p' ms) (hopen : p.isOpen = true) :
    p'.isOpen = true ∨ p'.forwarders = [] := by
  cases h with
  | ends _ => exact .inr rfl
  | subscribes _ | unsubscribes _ | publishes | forwards _ | rests _ => exact .inl hopen

theorem orderly (h : p.Does b a p' ms) (hp : p.Orderly) (hopen : p.isOpen = true)
    (hlt : ∀ f ∈ p.forwarders, f.subscription < b.nextId) : p'.Orderly := by
  refine ⟨fun f hf g hg heq => ?_, fun f hf g hg heq => ?_, fun hclosed => ?_⟩
  · rcases h.mem_forwarders hf with hold | ⟨-, hnone, hnew, -⟩
    · rcases h.mem_forwarders hg with hold' | ⟨-, hnone', -⟩
      · exact hp.subject_inj f hold g hold' heq
      · exact absurd heq (forwarder?_eq_none_iff.1 hnone' f hold)
    · rcases h.mem_forwarders hg with hold' | ⟨-, -, hnew', -⟩
      · exact absurd heq.symm (forwarder?_eq_none_iff.1 hnone g hold')
      · exact Forwarder.ext heq (hnew.trans hnew'.symm)
  · rcases h.mem_forwarders hf with hold | ⟨hact, -, hnew, -⟩
    · rcases h.mem_forwarders hg with hold' | ⟨-, -, hnew', -⟩
      · exact hp.subscription_inj f hold g hold' heq
      · exact absurd (heq.trans hnew') (Nat.ne_of_lt (hlt f hold))
    · rcases h.mem_forwarders hg with hold' | ⟨hact', -⟩
      · exact absurd (heq.symm.trans hnew) (Nat.ne_of_lt (hlt g hold'))
      · have hsubject : f.subject = g.subject := by simpa [hact] using hact'
        exact Forwarder.ext hsubject heq
  · rcases h.isOpen_or hopen with hstays | hnone
    · rw [hclosed] at hstays
      cases hstays
    · exact hnone

/-- A forwarder goes on until it is stopped. -/
theorem stays (h : p.Does b a p' ms) (hopen : p.isOpen = true) (hf : f ∈ p.forwarders)
    (ha : ¬a.Stops f.subject) : p'.isOpen = true ∧ f ∈ p'.forwarders := by
  cases h with
  | subscribes _ => exact ⟨hopen, List.mem_append_left _ hf⟩
  | unsubscribes _ =>
    refine ⟨hopen, List.mem_filter.2 ⟨hf, decide_eq_true fun ht => ha (.inl ?_)⟩⟩
    rw [ht]
  | ends hends => exact absurd (.inr hends) ha
  | publishes | forwards _ | rests _ => exact ⟨hopen, hf⟩

theorem stops (h : p.Does b a p' ms) (ha : a.Stops t) :
    p'.forwarder? t = none ∧ p'.queuedOn t = p.queuedOn t := by
  cases h with
  | @unsubscribes u f _ =>
    obtain rfl : t = u := by simpa [Act.Stops, eq_comm] using ha
    exact ⟨by simp [forwarder?], rfl⟩
  | ends _ => exact ⟨rfl, rfl⟩
  | rests hrests => exact ⟨hrests t ha, rfl⟩
  | subscribes _ | publishes | forwards _ => simp [Act.Stops] at ha

end Does

theorem filterMap_on?_message {messages : List Envelope} (t : String)
    (h : ∀ e ∈ messages, e.subject = subject) :
    (messages.map Frame.message).filterMap (Frame.on? t) = if subject = t then messages else [] := by
  induction messages with
  | nil => exact (ite_self _).symm
  | cons e messages ih =>
    have he : e.subject = subject := h e (List.mem_cons_self ..)
    have hrest := ih fun e' he' => h e' (List.mem_cons_of_mem _ he')
    by_cases ht : subject = t <;> simp_all [Frame.on?]

/-- On a subject a peer is queued what its forwarder reads. -/
theorem Does.queuedOn (h : p.Does b a p' ms) (hp : p.Orderly)
    (hstands : ∀ f ∈ p.forwarders, ∃ waiting, b.Stands ⟨f.subscription, f.subject, waiting⟩)
    (t : String) : p'.queuedOn t =
      p.queuedOn t ++ ((p.forwarder? t).map fun f => Bus.read f.subscription b ms).getD [] := by
  have hquiet (hms : ∀ id most, .take id most ∉ ms) :
      p.queuedOn t = p.queuedOn t ++ ((p.forwarder? t).map fun f => Bus.read f.subscription b ms).getD [] := by
    cases p.forwarder? t with
    | none => exact (List.append_nil _).symm
    | some f =>
      rw [Option.map_some, Option.getD_some, Bus.read_eq_nil (hms f.subscription), List.append_nil]
  cases h with
  | @forwards u g hg =>
    obtain ⟨hmem, hsubject⟩ := mem_of_forwarder? hg
    obtain ⟨waiting, hstand⟩ := hstands g hmem
    have htake : (b.take g.subscription 1).1 = waiting.take 1 := Bus.take_fst hstand.found 1
    have hown : ∀ e ∈ waiting.take 1, e.subject = u := fun e he =>
      (hstand.own e (List.mem_of_mem_take he)).trans hsubject
    simp only [Peer.queuedOn, List.filterMap_append, htake, filterMap_on?_message t hown]
    congr 1
    by_cases hu : u = t
    · subst hu
      simp [hg, Bus.read, Bus.Move.reads, htake]
    · rw [if_neg hu]
      cases hf : p.forwarder? t with
      | none => rfl
      | some f =>
        obtain ⟨hmem', hsubject'⟩ := mem_of_forwarder? hf
        have hne : g.subscription ≠ f.subscription := fun heq =>
          hu (by rw [← hsubject, ← hsubject', hp.subscription_inj g hmem f hmem' heq])
        simp [Bus.read, Bus.Move.reads, hne]
  | subscribes _ | unsubscribes _ | publishes | ends _ | rests _ => exact hquiet (by simp)

end Peer

end AppFleet
