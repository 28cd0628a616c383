import AppFleet.Proofs.Bus.Forwarding

/-! A served bus with all its peers, while it is also used from within. A subscribed peer is queued the
messages on its subject from the line that subscribed it on, once and in order; a peer that is not
subscribed is queued none. -/

namespace AppFleet

def Bus.Move.touched? : Bus.Move → Option Nat
  | drop id | take id _ => some id
  | _ => none

namespace Server

inductive Act where
  /-- Something is done with the bus from within. -/
  | within (m : Bus.Move)
  | connect
  | peer (k : Nat) (a : Peer.Act)
  /-- No more peers are let in. -/
  | shut

def isForwarded (s : Server) (id : Nat) : Bool := s.peers.any (·.forwarders.any (·.subscription = id))

/-- One step. Nobody within drops or reads what is a forwarder's own. -/
def act (s : Server) : Act → Server
  | .within m => if m.touched?.any s.isForwarded then s else { s with bus := m.perform s.bus }
  | .connect => s.step .connect
  | .peer k a => s.withPeer k (·.act · a)
  | .shut => { s with isOpen := false }

def moves (s : Server) : Act → List Bus.Move
  | .within m => if m.touched?.any s.isForwarded then [] else [m]
  | .peer k a =>
    match s.peers[k]? with
    | some p => if p.isOpen then p.moves a else []
    | none => []
  | .connect | .shut => []

def goOn (s : Server) (k : Nat) (p : Peer) : Act → Peer
  | .peer j a => if j = k ∧ p.isOpen then (p.act s.bus a).1 else p
  | _ => p

def through (s : Server) (acts : List Act) : Server := acts.foldl act s

def log (s : Server) : List Act → List Bus.Move
  | [] => []
  | a :: acts => s.moves a ++ (s.act a).log acts

variable {s : Server} {a : Act} {acts : List Act} {k : Nat} {p : Peer} {f : Forwarder} {id : Nat}
  {t : String}

@[simp] theorem through_nil (s : Server) : s.through [] = s := rfl

@[simp] theorem through_cons (s : Server) (a : Act) (acts : List Act) :
    s.through (a :: acts) = (s.act a).through acts := rfl

theorem through_append (s : Server) (acts acts' : List Act) :
    s.through (acts ++ acts') = (s.through acts).through acts' :=
  List.foldl_append

theorem moves_peer (hp : s.peers[k]? = some p) (hopen : p.isOpen = true) (a : Peer.Act) :
    s.moves (.peer k a) = p.moves a := by
  simp only [moves, hp, hopen, if_true]

theorem bus_act (s : Server) (a : Act) : (s.act a).bus = s.bus.after (s.moves a) := by
  cases a with
  | within m =>
    simp only [act, moves]
    split <;> rfl
  | connect =>
    simp only [act, step]
    split <;> rfl
  | peer k a =>
    simp only [act, moves, withPeer]
    cases s.peers[k]? with
    | none => rfl
    | some p =>
      dsimp only
      split
      · exact p.act_snd s.bus a
      · rfl
  | shut => rfl

theorem bus_through (s : Server) (acts : List Act) : (s.through acts).bus = s.bus.after (s.log acts) := by
  induction acts generalizing s with
  | nil => rfl
  | cons a acts ih => rw [through_cons, ih, bus_act, log, Bus.after_append]

theorem withPeer_of_open (hp : s.peers[k]? = some p) (hopen : p.isOpen = true)
    (go : Peer → Bus → Peer × Bus) : s.withPeer k go =
      { s with bus := (go p s.bus).2, peers := s.peers.set k (go p s.bus).1 } := by
  simp [withPeer, hp, hopen]

theorem withPeer_of_not_open (h : ∀ p, s.peers[k]? = some p → p.isOpen = false)
    (go : Peer → Bus → Peer × Bus) : s.withPeer k go = s := by
  unfold withPeer
  split
  · rename_i p hp
    rw [if_neg (by simp [h p hp])]
  · rfl

theorem open_or_not (s : Server) (k : Nat) : (∃ p, s.peers[k]? = some p ∧ p.isOpen = true) ∨
    ∀ p, s.peers[k]? = some p → p.isOpen = false := by
  by_cases h : ∃ p, s.peers[k]? = some p ∧ p.isOpen = true
  · exact .inl h
  · exact .inr fun p hp => Bool.eq_false_iff.2 fun hopen => h ⟨p, hp, hopen⟩

theorem getElem?_withPeer (hp : s.peers[k]? = some p) (hopen : p.isOpen = true)
    (go : Peer → Bus → Peer × Bus) : (s.withPeer k go).peers[k]? = some (go p s.bus).1 := by
  rw [withPeer_of_open hp hopen]
  exact List.getElem?_set_self (List.getElem?_eq_some_iff.1 hp).1

theorem getElem?_withPeer_of_ne {j : Nat} (h : j ≠ k) (s : Server) (go : Peer → Bus → Peer × Bus) :
    (s.withPeer j go).peers[k]? = s.peers[k]? := by
  simp only [withPeer]
  split
  · split
    · exact List.getElem?_set_ne h
    · rfl
  · rfl

theorem getElem?_act (h : s.peers[k]? = some p) (a : Act) :
    (s.act a).peers[k]? = some (s.goOn k p a) := by
  cases a with
  | within m =>
    simp only [act]
    split <;> exact h
  | connect =>
    simp only [act, step]
    split
    · exact (List.getElem?_append_left (List.getElem?_eq_some_iff.1 h).1).trans h
    · exact h
  | peer j a =>
    by_cases hj : j = k
    · subst hj
      by_cases hopen : p.isOpen = true
      · rw [goOn, if_pos ⟨rfl, hopen⟩]
        exact getElem?_withPeer h hopen _
      · have hclosed (q : Peer) (hq : s.peers[j]? = some q) : q.isOpen = false := by
          obtain rfl := Option.some.inj (h.symm.trans hq)
          simpa using hopen
        rw [goOn, if_neg fun hboth => hopen hboth.2, act, withPeer_of_not_open hclosed]
        exact h
    · rw [goOn, if_neg fun hboth => hj hboth.1]
      exact (getElem?_withPeer_of_ne hj s _).trans h
  | shut => exact h

theorem getElem?_of_act (h : (s.act a).peers[k]? = some p) :
    (∃ p', s.peers[k]? = some p' ∧ p = s.goOn k p' a) ∨ p = .connected := by
  cases hk : s.peers[k]? with
  | some p' =>
    rw [getElem?_act hk] at h
    exact .inl ⟨p', rfl, (Option.some.inj h).symm⟩
  | none =>
    cases a with
    | within m =>
      simp only [act] at h
      split at h <;> exact absurd (h.symm.trans hk) (Option.some_ne_none _)
    | connect =>
      simp only [act, step] at h
      split at h
      · have hle := List.getElem?_eq_none_iff.1 hk
        rw [List.getElem?_append_right hle] at h
        exact .inr (List.mem_singleton.1 (List.mem_of_getElem? h))
      · exact absurd (h.symm.trans hk) (Option.some_ne_none _)
    | peer j a =>
      have hnone : (s.withPeer j (·.act · a)).peers[k]? = none := by
        by_cases hj : j = k
        · subst hj
          rw [withPeer_of_not_open (by simp [hk])]
          exact hk
        · exact (getElem?_withPeer_of_ne hj s _).trans hk
      exact absurd (h.symm.trans hnone) (Option.some_ne_none _)
    | shut => exact absurd (h.symm.trans hk) (Option.some_ne_none _)

/-- Every forwarder has a subscription on its subject, and no two have the same. -/
structure Orderly (s : Server) : Prop where
  fresh : s.bus.Fresh
  peer : ∀ (k : Nat) (p : Peer), s.peers[k]? = some p → p.Orderly
  stands : ∀ (k : Nat) (p : Peer), s.peers[k]? = some p → ∀ f ∈ p.forwarders,
    ∃ waiting, s.bus.Stands ⟨f.subscription, f.subject, waiting⟩
  apart : ∀ (j k : Nat) (p q : Peer), s.peers[j]? = some p → s.peers[k]? = some q →
    ∀ f ∈ p.forwarders, ∀ g ∈ q.forwarders, f.subscription = g.subscription → j = k

theorem Orderly.subscription_lt (h : s.Orderly) (hp : s.peers[k]? = some p) (hf : f ∈ p.forwarders) :
    f.subscription < s.bus.nextId := by
  obtain ⟨waiting, hstands⟩ := h.stands k p hp f hf
  exact hstands.id_lt

/-- Only what happens with a peer drops or reads what is its forwarders' own. -/
theorem Orderly.peer_of_mem_moves (h : s.Orderly) (hp : s.peers[k]? = some p) (hf : f ∈ p.forwarders)
    (hmem : .drop f.subscription ∈ s.moves a ∨ ∃ most, .take f.subscription most ∈ s.moves a) :
    ∃ b, a = .peer k b := by
  cases a with
  | within m =>
    simp only [moves] at hmem
    split at hmem
    · simp at hmem
    · rename_i hfree
      have hforwarded : s.isForwarded f.subscription = true :=
        List.any_eq_true.2 ⟨p, List.mem_of_getElem? hp, List.any_eq_true.2 ⟨f, hf, by simp⟩⟩
      rcases hmem with hmem | ⟨most, hmem⟩ <;> obtain rfl := List.mem_singleton.1 hmem <;>
        exact absurd hforwarded hfree
  | connect | shut => simp [moves] at hmem
  | peer j b =>
    simp only [moves] at hmem
    cases hj : s.peers[j]? with
    | none => simp [hj] at hmem
    | some q =>
      rw [hj] at hmem
      dsimp only at hmem
      split at hmem
      · obtain ⟨g, hg, heq⟩ := (q.does_act s.bus b).owns_of_mem hmem
        obtain rfl := h.apart j k q p hj hp g hg f hf heq
        exact ⟨b, rfl⟩
      · simp at hmem

/-- A forwarder that goes on keeps its subscription. -/
theorem Orderly.drop_not_mem_moves (h : s.Orderly) (hp : s.peers[k]? = some p) (hf : f ∈ p.forwarders)
    (hstays : f ∈ (s.goOn k p a).forwarders) : .drop f.subscription ∉ s.moves a := by
  intro hmem
  obtain ⟨b, rfl⟩ := h.peer_of_mem_moves hp hf (.inl hmem)
  by_cases hopen : p.isOpen = true
  · rw [goOn, if_pos ⟨rfl, hopen⟩] at hstays
    rw [moves_peer hp hopen] at hmem
    exact (p.does_act s.bus b).drop_not_mem (h.peer k p hp) hf hstays hmem
  · simp [moves, hp, hopen] at hmem

theorem mem_forwarders_goOn (hp : s.peers[k]? = some p) (hf : f ∈ (s.goOn k p a).forwarders) :
    f ∈ p.forwarders ∨ a = .peer k (.line (.frame (.subscribe f.subject))) ∧
      f.subscription = s.bus.nextId ∧ s.moves a = [.subscribe f.subject] := by
  cases a with
  | peer j b =>
    simp only [goOn] at hf
    split at hf
    · rename_i hj
      obtain ⟨rfl, hopen⟩ := hj
      rcases (p.does_act s.bus b).mem_forwarders hf with hold | ⟨rfl, -, hnew, hmoves⟩
      · exact .inl hold
      · exact .inr ⟨rfl, hnew, (moves_peer hp hopen _).trans hmoves⟩
    · exact .inl hf
  | _ => exact .inl hf

theorem Orderly.stands_act (h : s.Orderly) (hp : s.peers[k]? = some p)
    (hf : f ∈ (s.goOn k p a).forwarders) :
    ∃ waiting, (s.act a).bus.Stands ⟨f.subscription, f.subject, waiting⟩ := by
  rw [bus_act]
  rcases mem_forwarders_goOn hp hf with hold | ⟨-, hnew, hmoves⟩
  · obtain ⟨waiting, hstands⟩ := h.stands k p hp f hold
    exact hstands.lasts (h.drop_not_mem_moves hp hold hf)
  · rw [hmoves, hnew]
    exact ⟨[], h.fresh.stands f.subject⟩

theorem Orderly.act (h : s.Orderly) (a : Act) : (s.act a).Orderly := by
  refine ⟨?_, fun k p hp => ?_, fun k p hp f hf => ?_, fun j k p q hj hk f hf g hg heq => ?_⟩
  · rw [bus_act]
    exact h.fresh.after _
  · rcases getElem?_of_act hp with ⟨p, hold, rfl⟩ | rfl
    · have hpeer := h.peer k p hold
      cases a with
      | peer j b =>
        simp only [goOn]
        split
        · rename_i hj
          exact (p.does_act s.bus b).orderly hpeer hj.2 fun f hf => h.subscription_lt hold hf
        · exact hpeer
      | _ => exact hpeer
    · exact ⟨by simp [Peer.connected], by simp [Peer.connected], nofun⟩
  · rcases getElem?_of_act hp with ⟨p, hold, rfl⟩ | rfl
    · exact h.stands_act hold hf
    · simp [Peer.connected] at hf
  · rcases getElem?_of_act hj with ⟨p, hp, rfl⟩ | rfl
    · rcases getElem?_of_act hk with ⟨q, hq, rfl⟩ | rfl
      · rcases mem_forwarders_goOn hp hf with hold | ⟨hact, hnew, -⟩
        · rcases mem_forwarders_goOn hq hg with hold' | ⟨-, hnew', -⟩
          · exact h.apart j k p q hp hq f hold g hold' heq
          · exact absurd (heq.trans hnew') (Nat.ne_of_lt (h.subscription_lt hp hold))
        · rcases mem_forwarders_goOn hq hg with hold' | ⟨hact', -, -⟩
          · exact absurd (heq.symm.trans hnew) (Nat.ne_of_lt (h.subscription_lt hq hold'))
          · rw [hact] at hact'
            exact (Act.peer.inj hact').1
      · simp [Peer.connected] at hg
    · simp [Peer.connected] at hf

theorem orderly_start : (start .empty).Orderly :=
  ⟨Bus.fresh_empty, by simp [start], by simp [start], by simp [start]⟩

theorem Orderly.through (h : s.Orderly) (acts : List Act) : (s.through acts).Orderly := by
  induction acts generalizing s with
  | nil => exact h
  | cons a acts ih => exact ih (h.act a)

def Act.Ends (k : Nat) (subject : String) (a : Act) : Prop := ∃ b : Peer.Act, a = .peer k b ∧ b.Stops subject

theorem goOn_peer (hopen : p.isOpen = true) (s : Server) (k : Nat) (b : Peer.Act) :
    s.goOn k p (.peer k b) = (p.act s.bus b).1 :=
  if_pos ⟨rfl, hopen⟩

theorem goOn_of_ne (h : ∀ b, a ≠ .peer k b) (s : Server) (p : Peer) : s.goOn k p a = p := by
  cases a with
  | peer j b => exact if_neg fun hj => h b (by rw [hj.1])
  | _ => rfl

/-- While a peer is subscribed, every step queues to it what the forwarder reads. -/
theorem Orderly.queuedOn_act (h : s.Orderly) (hp : s.peers[k]? = some p) (hopen : p.isOpen = true)
    (hf : f ∈ p.forwarders) (a : Act) : (s.goOn k p a).queuedOn f.subject =
      p.queuedOn f.subject ++ Bus.read f.subscription s.bus (s.moves a) := by
  by_cases ha : ∃ b, a = .peer k b
  · obtain ⟨b, rfl⟩ := ha
    have hpeer := h.peer k p hp
    rw [goOn_peer hopen, moves_peer hp hopen,
      (p.does_act s.bus b).queuedOn hpeer (h.stands k p hp) f.subject, hpeer.forwarder?_eq hf]
    rfl
  · have hread := Bus.read_eq_nil (b := s.bus) fun most hmem =>
      ha (h.peer_of_mem_moves (a := a) hp hf (.inr ⟨most, hmem⟩))
    rw [goOn_of_ne fun b hb => ha ⟨b, hb⟩, hread, List.append_nil]

theorem stays_goOn (hopen : p.isOpen = true) (hf : f ∈ p.forwarders) (ha : ¬a.Ends k f.subject)
    (s : Server) : (s.goOn k p a).isOpen = true ∧ f ∈ (s.goOn k p a).forwarders := by
  by_cases hpeer : ∃ b, a = .peer k b
  · obtain ⟨b, rfl⟩ := hpeer
    rw [goOn_peer hopen]
    exact (p.does_act s.bus b).stays hopen hf fun hstops => ha ⟨b, rfl, hstops⟩
  · rw [goOn_of_ne fun b hb => hpeer ⟨b, hb⟩]
    exact ⟨hopen, hf⟩

/-- While a peer is subscribed, it is queued what the forwarder reads. -/
theorem Orderly.subscribed_through (h : s.Orderly) (hp : s.peers[k]? = some p) (hopen : p.isOpen = true)
    (hf : f ∈ p.forwarders) (hacts : ∀ a ∈ acts, ¬a.Ends k f.subject) :
    ∃ p', (s.through acts).peers[k]? = some p' ∧ p'.isOpen = true ∧ f ∈ p'.forwarders ∧
      .drop f.subscription ∉ s.log acts ∧
      p'.queuedOn f.subject = p.queuedOn f.subject ++ Bus.read f.subscription s.bus (s.log acts) := by
  induction acts generalizing s p with
  | nil => exact ⟨p, hp, hopen, hf, List.not_mem_nil, (List.append_nil _).symm⟩
  | cons a acts ih =>
    obtain ⟨hopen', hf'⟩ := stays_goOn hopen hf (hacts a (List.mem_cons_self ..)) s
    obtain ⟨p', hp', hopen'', hf'', hdrop, hqueued⟩ :=
      ih (h.act a) (getElem?_act hp a) hopen' hf' fun b hb => hacts b (List.mem_cons_of_mem _ hb)
    refine ⟨p', hp', hopen'', hf'', ?_, ?_⟩
    · intro hmem
      rcases List.mem_append.1 hmem with hmem | hmem
      · exact h.drop_not_mem_moves hp hf hf' hmem
      · exact hdrop hmem
    · rw [hqueued, h.queuedOn_act hp hopen hf a, log, Bus.read_append, bus_act, List.append_assoc]

/-- A forwarder that has its way moves all that waits. -/
theorem Orderly.caughtUp {waiting : List Envelope} (h : s.Orderly) (hp : s.peers[k]? = some p)
    (hopen : p.isOpen = true) (hf : f ∈ p.forwarders)
    (hstands : s.bus.Stands ⟨f.subscription, f.subject, waiting⟩) :
    ∃ p', (s.through (List.replicate waiting.length (.peer k (.forward f.subject)))).peers[k]? = some p' ∧
      p'.queuedOn f.subject = p.queuedOn f.subject ++ waiting := by
  induction waiting generalizing s p with
  | nil => exact ⟨p, hp, (List.append_nil _).symm⟩
  | cons e waiting ih =>
    have hmoves : s.moves (.peer k (.forward f.subject)) = [.take f.subscription 1] := by
      rw [moves_peer hp hopen, Peer.moves, (h.peer k p hp).forwarder?_eq hf]
      rfl
    have hends : ¬Act.Ends k f.subject (.peer k (.forward f.subject)) := by
      simp [Act.Ends, Peer.Act.Stops]
    have hread : Bus.read f.subscription s.bus [.take f.subscription 1] = [e] := by
      have htake : (s.bus.take f.subscription 1).1 = [e] := Bus.take_fst hstands.found 1
      simp [Bus.read, Bus.Move.reads, htake]
    have hstands' := hstands.perform (m := .take f.subscription 1) (by simp)
    have hbus : (s.act (.peer k (.forward f.subject))).bus =
        Bus.Move.perform s.bus (.take f.subscription 1) := by
      rw [bus_act, hmoves]
      rfl
    obtain ⟨hopen', hf'⟩ := stays_goOn hopen hf hends s
    obtain ⟨p', hp', hqueued⟩ := ih (h.act _) (getElem?_act hp _) hopen' hf' (by
      rw [hbus]
      simpa [Bus.Move.handed] using hstands')
    refine ⟨p', hp', ?_⟩
    rw [hqueued, h.queuedOn_act hp hopen hf, hmoves, hread, List.append_assoc]
    rfl

theorem Orderly.unsubscribed_act (h : s.Orderly) (hp : s.peers[k]? = some p)
    (hnone : p.forwarder? t = none) (ha : a ≠ .peer k (.line (.frame (.subscribe t)))) :
    (s.goOn k p a).forwarder? t = none ∧ (s.goOn k p a).queuedOn t = p.queuedOn t := by
  constructor
  · rw [Peer.forwarder?_eq_none_iff]
    intro f hf heq
    rcases mem_forwarders_goOn hp hf with hold | ⟨rfl, -⟩
    · exact Peer.forwarder?_eq_none_iff.1 hnone f hold heq
    · exact ha (by rw [heq])
  · by_cases hpeer : ∃ b, a = .peer k b
    · obtain ⟨b, rfl⟩ := hpeer
      by_cases hopen : p.isOpen = true
      · rw [goOn_peer hopen, (p.does_act s.bus b).queuedOn (h.peer k p hp) (h.stands k p hp) t, hnone]
        exact List.append_nil _
      · rw [goOn, if_neg fun hboth => hopen hboth.2]
    · rw [goOn_of_ne fun b hb => hpeer ⟨b, hb⟩]

theorem Orderly.unsubscribed_through (h : s.Orderly) (hp : s.peers[k]? = some p)
    (hnone : p.forwarder? t = none) (hacts : .peer k (.line (.frame (.subscribe t))) ∉ acts) :
    ∃ p', (s.through acts).peers[k]? = some p' ∧ p'.queuedOn t = p.queuedOn t := by
  induction acts generalizing s p with
  | nil => exact ⟨p, hp, rfl⟩
  | cons a acts ih =>
    simp only [List.mem_cons, not_or] at hacts
    obtain ⟨hnone', hqueued⟩ := h.unsubscribed_act hp hnone (Ne.symm hacts.1)
    obtain ⟨p', hp', hqueued'⟩ := ih (h.act a) (getElem?_act hp a) hnone' hacts.2
    exact ⟨p', hp', hqueued'.trans hqueued⟩

theorem Orderly.ends_act (h : s.Orderly) (hp : s.peers[k]? = some p) (ha : a.Ends k t) :
    (s.goOn k p a).forwarder? t = none ∧ (s.goOn k p a).queuedOn t = p.queuedOn t := by
  obtain ⟨b, rfl, hstops⟩ := ha
  by_cases hopen : p.isOpen = true
  · rw [goOn_peer hopen]
    exact (p.does_act s.bus b).stops hstops
  · have hclosed := (h.peer k p hp).closed (Bool.eq_false_iff.2 hopen)
    rw [goOn, if_neg fun hboth => hopen hboth.2]
    exact ⟨by simp [Peer.forwarder?, hclosed], rfl⟩

/-- The bus is closed, and subjects are let go, from within only. -/
theorem within_of_mem_log {m : Bus.Move} (hm : m = .close ∨ m = .forget t) (h : m ∈ s.log acts) :
    .within m ∈ acts := by
  induction acts generalizing s with
  | nil => simp [log] at h
  | cons a acts ih =>
    rcases List.mem_append.1 h with h | h
    · cases a with
      | within m' =>
        simp only [moves] at h
        split at h
        · simp at h
        · rw [List.mem_singleton.1 h]
          exact List.mem_cons_self ..
      | peer k b =>
        simp only [moves] at h
        split at h
        · rename_i p _
          split at h
          · rcases (p.does_act s.bus b).cases_of_mem h with
              ⟨u, rfl⟩ | ⟨e, rfl⟩ | ⟨f, -, rfl⟩ | ⟨f, -, rfl⟩ <;> simp at hm
          · simp at h
        · simp at h
      | connect | shut => simp [moves] at h
    · exact List.mem_cons_of_mem _ (ih h)

/-- The line that subscribes a peer starts a forwarder. -/
theorem Orderly.subscribe_act (h : s.Orderly) (hp : s.peers[k]? = some p) (hopen : p.isOpen = true)
    (hnone : p.forwarder? t = none) :
    let s' := s.act (.peer k (.line (.frame (.subscribe t))))
    ∃ p', s'.peers[k]? = some p' ∧ p'.isOpen = true ∧ ⟨t, s.bus.nextId⟩ ∈ p'.forwarders ∧
      p'.queuedOn t = p.queuedOn t ∧ s'.bus.Stands ⟨s.bus.nextId, t, []⟩ ∧
      s.bus.nextId ∈ s'.bus.registered t := by
  intro s'
  have hact : p.act s.bus (.line (.frame (.subscribe t))) =
      ({ p with forwarders := p.forwarders ++ [⟨t, s.bus.nextId⟩] }, (s.bus.subscribe t).2) := by
    simp only [Peer.act, Peer.read, Peer.handle, Peer.subscribe, hnone]
    rfl
  have hp' := getElem?_act hp (.peer k (.line (.frame (.subscribe t))))
  rw [goOn_peer hopen, hact] at hp'
  have hbus : s'.bus = (s.bus.subscribe t).2 := by
    rw [bus_act, moves_peer hp hopen, ← p.act_snd s.bus, hact]
  refine ⟨_, hp', hopen, List.mem_append_right _ (List.mem_singleton_self _), rfl, ?_, ?_⟩
  · rw [hbus]
    exact h.fresh.stands t
  · rw [hbus, Bus.registered_subscribe_self]
    exact List.mem_append_right _ (List.mem_singleton_self _)

end Server

end AppFleet
