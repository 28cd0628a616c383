import AppFleet.Proofs.Bus.Traffic

/-! What requests return that go on side by side on one bus. Each has a reply subject of its own, listens
there before it asks, and lets it go when it is over, whichever way it ended. -/

namespace AppFleet

theorem Subject.inbox_inj {n m : Nat} : Subject.inbox n = Subject.inbox m ↔ n = m := by
  constructor
  · intro h
    have htext (n : Nat) : (Subject.inbox n).toList = "_INBOX.".toList ++ Nat.toDigits 10 n := by
      have hinbox : Subject.inbox n = "_INBOX." ++ n.repr := rfl
      rw [hinbox, String.toList_append, Nat.toList_repr]
    have hlist := congrArg String.toList h
    rw [htext, htext] at hlist
    rw [← Nat.ofDigitChars_ten_toDigits (n := n), List.append_cancel_left hlist,
      Nat.ofDigitChars_ten_toDigits]
  · rintro rfl
    rfl

def Enough (expected : Option Nat) (came : List Json) : Prop := ∃ n, expected = some n ∧ n ≤ came.length

def upTo (expected : Option Nat) (came : List Json) : List Json :=
  match expected with
  | some n => came.take n
  | none => came

section
variable {expected : Option Nat} {came more : List Json}

theorem Enough.mono (h : Enough expected came) (hle : came <+: more) : Enough expected more := by
  obtain ⟨n, hn, hlen⟩ := h
  exact ⟨n, hn, Nat.le_trans hlen hle.length_le⟩

theorem upTo_of_not_enough (h : ¬Enough expected came) : upTo expected came = came := by
  cases expected with
  | none => rfl
  | some n =>
    have hlen : came.length ≤ n := by
      by_contra hgt
      exact h ⟨n, rfl, by omega⟩
    exact List.take_of_length_le hlen

theorem upTo_append (h : Enough expected came) : upTo expected (came ++ more) = upTo expected came := by
  obtain ⟨n, rfl, hlen⟩ := h
  exact List.take_append_of_le_length hlen

end

namespace Exchange

variable {x : Exchange}

theorem isComplete_iff (x : Exchange) : x.isComplete = true ↔ Enough x.expected x.collected := by
  unfold isComplete Enough
  cases x.expected with
  | none => simp
  | some n => simp

def Bounded (x : Exchange) : Prop := ∀ n, x.expected = some n → x.collected.length ≤ n

theorem Bounded.eq_upTo {came : List Json} (h : x.Bounded) (hcame : x.collected <+: came)
    (henough : Enough x.expected x.collected) : x.collected = upTo x.expected came := by
  obtain ⟨n, hn, hlen⟩ := henough
  have heq : x.collected.length = n := Nat.le_antisymm (h n hn) hlen
  calc x.collected = came.take x.collected.length := List.prefix_iff_eq_take.1 hcame
    _ = upTo x.expected came := by rw [heq, hn]; rfl

/-- Nothing that waits is left over but what is more than enough. -/
theorem wanted_cases (x : Exchange) (l : List Envelope) :
    l.drop (x.wanted l.length) = [] ∨
      Enough x.expected (x.collected ++ (l.take (x.wanted l.length)).map (·.payload)) := by
  unfold wanted Enough
  cases x.expected with
  | none => exact .inl (List.drop_length ..)
  | some n =>
    by_cases hlen : l.length ≤ n - x.collected.length
    · exact .inl (List.drop_eq_nil_of_le hlen)
    · refine .inr ⟨n, rfl, ?_⟩
      rw [List.length_append, List.length_map, List.length_take]
      dsimp only
      omega

theorem collect_eq {b : Bus} {s : Subscription} (h : b.find? x.subscription = some s) :
    x.collect b =
      ({ x with collected :=
          x.collected ++ (s.waiting.take (x.wanted s.waiting.length)).map (·.payload) },
        (b.take x.subscription (x.wanted s.waiting.length)).2) := by
  simp [collect, h, Bus.take]

theorem Bounded.collect (h : x.Bounded) (b : Bus) : (x.collect b).1.Bounded := by
  intro n hn
  have hexpected : x.expected = some n := hn
  have hlen := h n hexpected
  cases hs : b.find? x.subscription with
  | none => simpa [Exchange.collect, Bus.take, hs] using hlen
  | some s =>
    rw [collect_eq hs, List.length_append, List.length_map, List.length_take, wanted, hexpected]
    dsimp only
    omega

end Exchange

namespace Inquiry

def isOnItsWay : Inquiry → Bool
  | listening _ _ _ | collecting _ => true
  | _ => false

/-- Whether a reply that is sent now is for it to return: it listens, or it returned before its
deadline. One that is woken after its deadline returns what came until then. -/
def counts (now : Nat) : Inquiry → Bool
  | named _ _ | panicked _ _ _ => false
  | listening _ _ _ | collecting _ => true
  | leaving x _ | finished x _ => now < x.deadline

def isInTime (now : Nat) : Inquiry → Bool
  | named _ _ | panicked _ _ _ => false
  | listening _ _ _ => true
  | collecting x => now ≤ x.deadline
  | leaving x _ | finished x _ => now < x.deadline

def deadline? : Inquiry → Option Nat
  | named _ _ | listening _ _ _ | panicked _ _ _ => none
  | collecting x | leaving x _ | finished x _ => some x.deadline

/-- A subscription on a reply subject that nobody else reads. What was read and what waits is what came,
unless the bus closed in between. -/
def Listens (b : Bus) (inbox : String) (id : Nat) (cut : Prop) (collected came : List Json) : Prop :=
  ∃ waiting : List Envelope, Bus.Stands b ⟨id, inbox, waiting⟩ ∧ (id ∈ b.registered inbox ↔ ¬cut) ∧
    collected ++ waiting.map (·.payload) <+: came ∧
    (¬cut → collected ++ waiting.map (·.payload) = came)

/-- The subscription was dropped. -/
def Unheld (b : Bus) (id : Nat) : Prop := b.find? id = none ∧ id < b.nextId

/-- A request that has returned, and holds no subscription any more. -/
structure Settled (now : Nat) (b : Bus) (cut : Prop) (came : List Json) (x : Exchange)
    (replies : Replies) : Prop where
  unheld : Unheld b x.subscription
  replies : replies = .ok (upTo x.expected came) ∧ (Enough x.expected came ∨ x.deadline ≤ now) ∨
    replies = .error .closed ∧ cut

def Fares (now : Nat) (b : Bus) (cut : Prop) (came : List Json) : Inquiry → Prop
  | named _ _ => came = [] ∧ ¬cut
  | listening _ inbox id => Listens b inbox id cut [] came
  | collecting x => Listens b x.inbox x.subscription cut x.collected came ∧ x.Bounded
  | leaving x replies | finished x replies => Settled now b cut came x replies
  | panicked _ _ id => Unheld b id

variable {now : Nat} {b : Bus} {cut : Prop} {collected came : List Json} {inbox : String} {id : Nat}
  {x : Exchange} {replies : Replies} {ms : List Bus.Move} {q : Inquiry} {horizon : Horizon}

/-- Whatever else goes on, the replies are kept until they are read. -/
theorem Listens.after (h : Listens b inbox id cut collected came) (hdrop : .drop id ∉ ms)
    (hforget : .forget inbox ∉ ms) (htake : ∀ most, .take id most ∉ ms) :
    Listens (b.after ms) inbox id (cut ∨ .close ∈ ms) collected
      (came ++ (Bus.sentOn inbox ms).map (·.payload)) := by
  obtain ⟨waiting, hstands, hopen, hle, heq⟩ := h
  obtain ⟨waiting', hstands', hread, hopen'⟩ := hstands.after ms hdrop hforget
  rw [Bus.read_eq_nil htake, List.nil_append] at hread
  change waiting' = waiting ++ if id ∈ b.registered inbox then Bus.heard inbox ms else [] at hread
  refine ⟨waiting', hstands', ?_, ?_, ?_⟩
  · rw [not_or, ← hopen]
    exact hopen'
  · by_cases hcut : cut
    · rw [hread, if_neg (fun hmem => hopen.1 hmem hcut), List.append_nil]
      exact hle.trans (List.prefix_append _ _)
    · rw [hread, if_pos (hopen.2 hcut), List.map_append, ← List.append_assoc, heq hcut]
      exact (List.prefix_append_right_inj _).2 ((Bus.heard_isPrefix inbox ms).map _)
  · intro hnot
    obtain ⟨hcut, hclose⟩ := not_or.1 hnot
    rw [hread, if_pos (hopen.2 hcut), List.map_append, ← List.append_assoc, heq hcut,
      Bus.heard_of_not_close hclose]

theorem Listens.isEnded_iff (h : Listens b inbox id cut collected came) : b.isEnded id = true ↔ cut := by
  obtain ⟨waiting, hstands, hopen, -⟩ := h
  have hfound : b.find? id = some ⟨id, inbox, waiting⟩ := hstands.found
  simp [Bus.isEnded, hfound, hopen]

/-- Collecting loses nothing, and leaves nothing that is wanted. -/
theorem Listens.collect (h : Listens b x.inbox x.subscription cut x.collected came) :
    Listens (x.collect b).2 x.inbox x.subscription cut (x.collect b).1.collected came ∧
      (¬cut → ¬Enough x.expected (x.collect b).1.collected → (x.collect b).1.collected = came) := by
  obtain ⟨waiting, hstands, hopen, hle, heq⟩ := h
  rw [Exchange.collect_eq hstands.found]
  dsimp only
  generalize hmost : x.wanted waiting.length = most
  have hsplit : (x.collected ++ (waiting.take most).map (·.payload)) ++
      (waiting.drop most).map (·.payload) = x.collected ++ waiting.map (·.payload) := by
    rw [List.append_assoc, ← List.map_append, List.take_append_drop]
  refine ⟨⟨waiting.drop most, ?_, hopen, hsplit ▸ hle, fun hcut => hsplit.trans (heq hcut)⟩, ?_⟩
  · simpa [Bus.Move.perform, Bus.Move.handed] using
      hstands.perform (m := .take x.subscription most) (by simp)
  · intro hcut hmore
    rcases x.wanted_cases waiting with hnone | henough
    · rw [hmost] at hnone
      rw [← heq hcut, ← hsplit, hnone]
      exact (List.append_nil _).symm
    · rw [hmost] at henough
      exact absurd henough hmore

/-- A request that has collected what came is over if that is enough, the bus has closed, or the time
is up. -/
theorem Listens.outcome_isSome_iff (h : Listens b x.inbox x.subscription cut x.collected came)
    (hall : ¬cut → ¬Enough x.expected x.collected → x.collected = came) :
    (x.outcome? b now).isSome ↔ Enough x.expected came ∨ cut ∨ x.deadline ≤ now := by
  have hended := h.isEnded_iff
  obtain ⟨waiting, -, -, hle, -⟩ := h
  have hbegins : x.collected <+: came := (List.prefix_append _ _).trans hle
  unfold Exchange.outcome?
  by_cases henough : Enough x.expected x.collected
  · simp [x.isComplete_iff.2 henough, henough.mono hbegins]
  · by_cases hcut : cut
    · rw [if_neg (mt x.isComplete_iff.1 henough), if_pos (hended.2 hcut)]
      simp [hcut]
    · have hcame := hall hcut henough
      rw [← hcame]
      simp [mt x.isComplete_iff.1 henough, mt hended.1 hcut, henough, hcut]

theorem Listens.outcome (h : Listens b x.inbox x.subscription cut x.collected came) (hx : x.Bounded)
    (hall : ¬cut → ¬Enough x.expected x.collected → x.collected = came)
    (houtcome : x.outcome? b now = some replies) :
    replies = .ok (upTo x.expected came) ∧ (Enough x.expected came ∨ x.deadline ≤ now) ∨
      replies = .error .closed ∧ cut := by
  have hended := h.isEnded_iff
  obtain ⟨waiting, -, -, hle, -⟩ := h
  have hbegins : x.collected <+: came := (List.prefix_append _ _).trans hle
  unfold Exchange.outcome? at houtcome
  split at houtcome
  · rename_i hcomplete
    have henough := x.isComplete_iff.1 hcomplete
    obtain rfl := Option.some.inj houtcome
    exact .inl ⟨by rw [hx.eq_upTo hbegins henough], .inl (henough.mono hbegins)⟩
  · rename_i hcomplete
    have hmore := mt x.isComplete_iff.2 hcomplete
    split at houtcome
    · rename_i hclosed
      obtain rfl := Option.some.inj houtcome
      exact .inr ⟨rfl, hended.1 hclosed⟩
    · rename_i hopen
      split at houtcome
      · rename_i hlate
        obtain rfl := Option.some.inj houtcome
        have hcame := hall (mt hended.2 hopen) hmore
        exact .inl ⟨by rw [← hcame, upTo_of_not_enough hmore], .inr hlate⟩
      · cases houtcome

theorem Unheld.after (h : Unheld b id) (ms : List Bus.Move) : Unheld (b.after ms) id := by
  refine ⟨(Bus.read_of_not_found h.1 h.2 ms).2, ?_⟩
  have hlt := h.2
  rw [Bus.nextId_after]
  omega

/-- What a request has returned stays right: what still comes in time was not wanted. -/
theorem Settled.after (h : Settled now b cut came x replies) (later : Nat) (hlater : now ≤ later)
    (ms : List Bus.Move) (more : Prop) :
    Settled later (b.after ms) (cut ∨ more)
      (came ++ if now < x.deadline then (Bus.sentOn x.inbox ms).map (·.payload) else []) x replies := by
  refine ⟨h.unheld.after ms, ?_⟩
  rcases h.replies with ⟨rfl, henough | hlate⟩ | ⟨rfl, hcut⟩
  · exact .inl ⟨by rw [upTo_append henough], .inl (henough.mono (List.prefix_append _ _))⟩
  · rw [if_neg (Nat.not_lt.2 hlate), List.append_nil]
    exact .inl ⟨rfl, .inr (Nat.le_trans hlate hlater)⟩
  · exact .inr ⟨rfl, .inl hcut⟩

/-- What others do leaves a request as it was, but for the replies that came. -/
theorem Fares.after (h : q.Fares now b cut came) (later : Nat) (hlater : now ≤ later)
    (hspare : ∀ id, q.subscription? = some id → .drop id ∉ ms ∧ ∀ most, .take id most ∉ ms)
    (hforget : .forget q.inbox ∉ ms) :
    q.Fares later (b.after ms) (cut ∨ .close ∈ ms ∧ q.isOnItsWay)
      (came ++ if q.counts now then (Bus.sentOn q.inbox ms).map (·.payload) else []) := by
  cases q with
  | named r inbox => simpa [Fares, counts, isOnItsWay] using h
  | listening r inbox id =>
    obtain ⟨hdrop, htake⟩ := hspare id rfl
    simpa [Fares, counts, isOnItsWay, Inquiry.inbox] using Listens.after h hdrop hforget htake
  | collecting x =>
    obtain ⟨hlistens, hbounded⟩ := h
    obtain ⟨hdrop, htake⟩ := hspare x.subscription rfl
    have hlistens' := hlistens.after hdrop hforget htake
    exact ⟨by simpa [counts, isOnItsWay, inbox] using hlistens', hbounded⟩
  | leaving x replies | finished x replies =>
    simpa only [Fares, counts, inbox, decide_eq_true_eq] using Settled.after h later hlater ms _
  | panicked r inbox id => exact Unheld.after h ms

/-- A turn sends nothing but the question. -/
theorem sentOn_moves (h : ∀ r inbox id, q ≠ listening r inbox id) (t : String) :
    Bus.sentOn t (q.moves now horizon b) = [] := by
  cases q with
  | listening r inbox id => exact absurd rfl (h r inbox id)
  | collecting x =>
    simp only [moves]
    split <;> rfl
  | _ => rfl

theorem Fares.turn (h : q.Fares now b cut came) (hfresh : b.Fresh) :
    (q.turn now horizon b).1.Fares now (q.turn now horizon b).2 cut (came ++
      if q.counts now then (Bus.sentOn q.inbox (q.moves now horizon b)).map (·.payload) else []) := by
  cases q with
  | named r inbox =>
    obtain ⟨rfl, hcut⟩ := h
    have hregistered : b.nextId ∈ (b.subscribe inbox).2.registered inbox := by
      simp
    exact ⟨[], hfresh.stands inbox, iff_of_true hregistered hcut, List.prefix_refl _, fun _ => rfl⟩
  | listening r inbox id =>
    have hlistens : Listens (b.after [.deliver ⟨r.subject, r.payload, some inbox⟩]) inbox id _ _ _ :=
      Listens.after h (by simp) (by simp) (by simp)
    simp only [List.mem_singleton, reduceCtorEq, or_false] at hlistens
    rw [turn_listening]
    split <;> rename_i hreach
    · simp only [moves, hreach, if_true]
      exact ⟨hlistens, fun n _ => Nat.zero_le n⟩
    · obtain ⟨waiting, hstands, -⟩ := hlistens
      exact ⟨Bus.find?_drop_self _ _, hstands.id_lt⟩
  | collecting x =>
    obtain ⟨hlistens, hbounded⟩ := h
    obtain ⟨hlistens', hall⟩ := hlistens.collect
    have hbounded' := hbounded.collect b
    rw [sentOn_moves (q := collecting x) fun _ _ _ => by simp, List.map_nil, ite_self, List.append_nil]
    simp only [Inquiry.turn]
    cases houtcome : (x.collect b).1.outcome? (x.collect b).2 now with
    | none => exact ⟨hlistens', hbounded'⟩
    | some replies =>
      obtain ⟨waiting, hstands, -⟩ := id hlistens'
      exact ⟨⟨Bus.find?_drop_self _ _, hstands.id_lt⟩, hlistens'.outcome hbounded' hall houtcome⟩
  | leaving x replies =>
    rw [sentOn_moves (q := leaving x replies) fun _ _ _ => by simp, List.map_nil, ite_self, List.append_nil]
    exact ⟨h.unheld, h.replies⟩
  | finished x replies =>
    rw [sentOn_moves (q := finished x replies) fun _ _ _ => by simp, List.map_nil, ite_self, List.append_nil]
    exact h
  | panicked r inbox id => exact h

theorem Fares.subscription_lt (h : q.Fares now b cut came) (hid : q.subscription? = some id) :
    id < b.nextId := by
  cases q with
  | listening r inbox other =>
    obtain ⟨waiting, hstands, -⟩ := h
    obtain rfl := Option.some.inj hid
    exact hstands.id_lt
  | collecting x =>
    obtain ⟨⟨waiting, hstands, -⟩, -⟩ := h
    obtain rfl := Option.some.inj hid
    exact hstands.id_lt
  | _ => simp [subscription?] at hid

theorem subscription_turn (hid : (q.turn now horizon b).1.subscription? = some id) :
    q.subscription? = some id ∨ id = b.nextId := by
  cases q with
  | named r inbox => exact .inr (Option.some.inj hid).symm
  | listening r inbox other =>
    rw [turn_listening] at hid
    split at hid
    · exact .inl hid
    · simp [subscription?] at hid
  | collecting x =>
    simp only [Inquiry.turn] at hid
    split at hid
    · simp [subscription?] at hid
    · exact .inl hid
  | _ => simp [Inquiry.turn, subscription?] at hid

theorem deadline_turn {d : Nat} (h : q.deadline? = some d) :
    (q.turn now horizon b).1.deadline? = some d := by
  cases q with
  | collecting x =>
    simp only [Inquiry.turn]
    split <;> exact h
  | named r inbox | listening r inbox id | panicked r inbox id => simp [deadline?] at h
  | leaving x replies | finished x replies => exact h

/-- A turn drops and reads what is the request's own. -/
theorem owns_of_makes (h : q.Makes (.drop id) ∨ ∃ most, q.Makes (.take id most)) :
    q.subscription? = some id := by
  rcases h with h | ⟨most, h⟩ <;> cases h <;> rfl

end Inquiry

namespace Traffic

variable {s : Traffic} {e : Event} {es : List Event} {k : Nat} {q : Inquiry} {id : Nat}

/-- The payloads that are sent on a request's reply subject while it is like that. -/
def repliesWhile (p : Nat → Inquiry → Bool) (k : Nat) (s : Traffic) : List Event → List Json
  | [] => []
  | e :: es =>
    (if s.inquiries[k]?.any (p s.now) then
      (Bus.sentOn (Subject.inbox k) (s.moves e)).map (·.payload) else []) ++
    repliesWhile p k (s.step e) es

def arrivals (k : Nat) (es : List Event) : List Json := empty.repliesWhile Inquiry.counts k es

/-- The bus closed while the k-th request listened. -/
def CutOff (k : Nat) (es : List Event) : Prop :=
  ∃ past, past ++ [.close] <+: es ∧ (empty.after past).inquiries[k]?.any Inquiry.isOnItsWay

/-- The k-th request is never still collecting after its deadline. -/
def Punctual (k : Nat) (es : List Event) : Prop :=
  ∀ past, past <+: es → ∀ x, (empty.after past).inquiries[k]? = some (.collecting x) →
    (empty.after past).now ≤ x.deadline

theorem repliesWhile_concat (p : Nat → Inquiry → Bool) (k : Nat) (s : Traffic) (es : List Event)
    (e : Event) : s.repliesWhile p k (es ++ [e]) = s.repliesWhile p k es ++
      if (s.after es).inquiries[k]?.any (p (s.after es).now) then
        (Bus.sentOn (Subject.inbox k) ((s.after es).moves e)).map (·.payload) else [] := by
  induction es generalizing s with
  | nil => exact List.append_nil _
  | cons e' es ih => rw [List.cons_append, repliesWhile, ih, repliesWhile, List.append_assoc, after_cons]

theorem arrivals_concat (k : Nat) (es : List Event) (e : Event) :
    arrivals k (es ++ [e]) = arrivals k es ++
      if (empty.after es).inquiries[k]?.any (Inquiry.counts (empty.after es).now) then
        (Bus.sentOn (Subject.inbox k) ((empty.after es).moves e)).map (·.payload) else [] :=
  repliesWhile_concat _ k empty es e

theorem cutOff_concat : CutOff k (es ++ [e]) ↔
    CutOff k es ∨ e = .close ∧ (empty.after es).inquiries[k]?.any Inquiry.isOnItsWay := by
  simp only [CutOff, List.prefix_concat_iff]
  constructor
  · rintro ⟨past, heq | hle, hany⟩
    · obtain ⟨rfl, hclose⟩ := List.append_inj' heq rfl
      exact .inr ⟨(List.singleton_inj.1 hclose).symm, hany⟩
    · exact .inl ⟨past, hle, hany⟩
  · rintro (⟨past, hle, hany⟩ | ⟨rfl, hany⟩)
    · exact ⟨past, .inr hle, hany⟩
    · exact ⟨es, .inl rfl, hany⟩

def Apart (s : Traffic) : Prop := ∀ (j k : Nat) (q q' : Inquiry) (id : Nat), s.inquiries[j]? = some q →
  s.inquiries[k]? = some q' → q.subscription? = some id → q'.subscription? = some id → j = k

/-- Nobody else touches what is a request's own. -/
theorem moves_spare (hn : s.Numbered) (ha : s.Apart) (hq : s.inquiries[k]? = some q) (he : e ≠ .turn k) :
    .forget q.inbox ∉ s.moves e ∧ ∀ id, q.subscription? = some id →
      .drop id ∉ s.moves e ∧ ∀ most, .take id most ∉ s.moves e := by
  have howned (id : Nat) (hid : q.subscription? = some id) : s.isOwned id = true :=
    List.any_eq_true.2 ⟨q, List.mem_of_getElem? hq, by simpa using hid⟩
  have hturn {j : Nat} {q' : Inquiry} {id : Nat} (hj : s.inquiries[j]? = some q')
      (hid' : q'.subscription? = some id) (hid : q.subscription? = some id) : e ≠ .turn j := by
    obtain rfl := ha j k q' q id hj hq hid' hid
    exact he
  refine ⟨fun hmem => ?_, fun id hid => ⟨fun hmem => ?_, fun most hmem => ?_⟩⟩
  · cases makes_of_mem hmem with
    | @turns j _ _ hj hmakes =>
      generalize hinbox : q.inbox = inbox at hmakes
      cases hmakes with
      | forgets =>
        refine he (congrArg Event.turn (Subject.inbox_inj.1 ?_))
        rw [← hn.inbox j _ hj, ← hn.inbox k q hq, hinbox]
        rfl
  · cases makes_of_mem hmem with
    | drops hfree =>
      rw [howned id hid] at hfree
      cases hfree
    | turns hj hmakes => exact hturn hj (Inquiry.owns_of_makes (.inl hmakes)) hid rfl
  · cases makes_of_mem hmem with
    | takes hfree =>
      rw [howned id hid] at hfree
      cases hfree
    | turns hj hmakes => exact hturn hj (Inquiry.owns_of_makes (.inr ⟨most, hmakes⟩)) hid rfl

theorem now_le_step (s : Traffic) (e : Event) : s.now ≤ (s.step e).now := by
  cases e with
  | wait ms => exact Nat.le_add_right _ _
  | drop id | take id most | turn k =>
    simp only [step]
    split <;> exact Nat.le_refl _
  | _ => exact Nat.le_refl _

structure Fair (es : List Event) : Prop where
  apart : (empty.after es).Apart
  fares : ∀ k (q : Inquiry), (empty.after es).inquiries[k]? = some q →
    q.Fares (empty.after es).now (empty.after es).bus (CutOff k es) (arrivals k es)
  unmade : ∀ k, (empty.after es).inquiries.length ≤ k → arrivals k es = [] ∧ ¬CutOff k es

theorem fresh_bus (es : List Event) : (empty.after es).bus.Fresh := by
  rw [bus_after]
  exact Bus.fresh_empty.after _

theorem subscription_proceed (hid : (s.proceed k q e).subscription? = some id) :
    q.subscription? = some id ∨ e = .turn k ∧ id = s.bus.nextId := by
  cases e with
  | turn j =>
    simp only [proceed] at hid
    split at hid
    · rename_i hj
      rw [hj]
      exact (Inquiry.subscription_turn hid).imp_right fun hnew => ⟨rfl, hnew⟩
    · exact .inl hid
  | _ => exact .inl hid

theorem Fair.apart_step (h : Fair es) (e : Event) : ((empty.after es).step e).Apart := by
  intro j k q q' id hj hk hid hid'
  have hlt {k : Nat} {q : Inquiry} (hk : (empty.after es).inquiries[k]? = some q)
      (hid : q.subscription? = some id) : id < (empty.after es).bus.nextId :=
    (h.fares k q hk).subscription_lt hid
  rcases getElem?_of_step hj with ⟨p, hp, rfl⟩ | ⟨r, -, -, rfl⟩
  · rcases getElem?_of_step hk with ⟨p', hp', rfl⟩ | ⟨r, -, -, rfl⟩
    · rcases subscription_proceed hid with hold | ⟨hturn, hnew⟩
      · rcases subscription_proceed hid' with hold' | ⟨-, hnew'⟩
        · exact h.apart j k p p' id hp hp' hold hold'
        · exact absurd hnew' (Nat.ne_of_lt (hlt hp hold))
      · rcases subscription_proceed hid' with hold' | ⟨hturn', -⟩
        · exact absurd hnew (Nat.ne_of_lt (hlt hp' hold'))
        · exact Event.turn.inj (hturn.symm.trans hturn')
    · cases hid'
  · cases hid

theorem close_mem_moves_iff : .close ∈ s.moves e ↔ e = .close := by
  constructor
  · intro h
    cases makes_of_mem h with
    | closes => rfl
    | turns _ hmakes => cases hmakes
  · rintro rfl
    exact List.mem_singleton_self _

theorem Fair.fares_step (h : Fair es) (e : Event) {k : Nat} {q : Inquiry}
    (hq : ((empty.after es).step e).inquiries[k]? = some q) :
    q.Fares ((empty.after es).step e).now ((empty.after es).step e).bus (CutOff k (es ++ [e]))
      (arrivals k (es ++ [e])) := by
  have hn := numbered_after es
  rcases getElem?_of_step hq with ⟨q, hold, rfl⟩ | ⟨r, rfl, rfl, rfl⟩
  · have hfares := h.fares k q hold
    rw [cutOff_concat, arrivals_concat, hold]
    simp only [Option.any_some, ← hn.inbox k q hold]
    by_cases he : e = .turn k
    · subst he
      simpa [proceed, step, moves, hold] using hfares.turn (fresh_bus es)
    · obtain ⟨hforget, hspare⟩ := moves_spare hn h.apart hold he
      have hafter := hfares.after _ (now_le_step _ e) hspare hforget
      have hproceed : (empty.after es).proceed k q e = q := by
        cases e with
        | turn j => exact if_neg fun hj => he (by rw [hj])
        | _ => rfl
      rw [close_mem_moves_iff, ← bus_step] at hafter
      rw [hproceed]
      exact hafter
  · obtain ⟨hnone, hcut⟩ := h.unmade _ (Nat.le_refl _)
    refine ⟨?_, ?_⟩
    · rw [arrivals_concat, hnone]
      simp
    · rw [cutOff_concat]
      simp [hcut]

theorem fair (es : List Event) : Fair es := by
  induction es using List.reverseRecOn with
  | nil =>
    refine ⟨fun j k q q' id hj => ?_, fun k q hk => ?_, fun k _ => ⟨rfl, ?_⟩⟩
    · simp [empty] at hj
    · simp [empty] at hk
    · rintro ⟨past, hpast, -⟩
      simp at hpast
  | append_singleton es e ih =>
    refine ⟨?_, fun k q hq => ?_, fun k hk => ?_⟩
    · rw [after_concat]
      exact ih.apart_step e
    · rw [after_concat] at hq ⊢
      exact ih.fares_step e hq
    · have hle : (empty.after es).inquiries.length ≤ k := by
        rw [after_append] at hk
        exact Nat.le_trans (length_le_after _ [e]) hk
      obtain ⟨hnone, hcut⟩ := ih.unmade k hle
      have hget : (empty.after es).inquiries[k]? = none := List.getElem?_eq_none_iff.2 hle
      rw [arrivals_concat, cutOff_concat]
      simp [hnone, hcut, hget]

/-- The deadline of the k-th request is past. -/
def Late (k : Nat) (s : Traffic) : Prop :=
  ∃ q d, s.inquiries[k]? = some q ∧ q.deadline? = some d ∧ d < s.now

theorem Late.step (h : Late k s) (e : Event) : Late k (s.step e) := by
  obtain ⟨q, d, hq, hd, hlt⟩ := h
  refine ⟨_, d, getElem?_step hq e, ?_, Nat.lt_of_lt_of_le hlt (now_le_step s e)⟩
  cases e with
  | turn j =>
    simp only [proceed]
    split
    · exact Inquiry.deadline_turn hd
    · exact hd
  | _ => exact hd

theorem isInTime_of_late (h : Late k s) : s.inquiries[k]?.any (Inquiry.isInTime s.now) = false := by
  obtain ⟨q, d, hq, hd, hlt⟩ := h
  rw [hq, Option.any_some]
  cases q with
  | named r inbox | listening r inbox id | panicked r inbox id => simp [Inquiry.deadline?] at hd
  | collecting x | leaving x replies | finished x replies =>
    have hx : x.deadline = d := Option.some.inj hd
    simp only [Inquiry.isInTime, decide_eq_false_iff_not]
    omega

/-- Unless the request is still collecting after its deadline, in time is whatever counts. -/
theorem isInTime_eq_counts (h : ∀ x, s.inquiries[k]? = some (.collecting x) → s.now ≤ x.deadline) :
    s.inquiries[k]?.any (Inquiry.isInTime s.now) = s.inquiries[k]?.any (Inquiry.counts s.now) := by
  cases hq : s.inquiries[k]? with
  | none => rfl
  | some q =>
    cases q with
    | collecting x => simp [Inquiry.counts, Inquiry.isInTime, h x hq]
    | _ => rfl

/-- What was sent in time counts, and comes before whatever else does. -/
theorem inTime_isPrefix (k : Nat) (es : List Event) :
    empty.repliesWhile Inquiry.isInTime k es <+: arrivals k es ∧
      (¬Late k (empty.after es) → empty.repliesWhile Inquiry.isInTime k es = arrivals k es) := by
  induction es using List.reverseRecOn with
  | nil => exact ⟨List.prefix_refl _, fun _ => rfl⟩
  | append_singleton es e ih =>
    obtain ⟨hbegins, heq⟩ := ih
    rw [arrivals_concat, repliesWhile_concat, after_concat]
    by_cases hlate : Late k (empty.after es)
    · rw [isInTime_of_late hlate, if_neg Bool.false_ne_true, List.append_nil]
      exact ⟨hbegins.trans (List.prefix_append _ _), fun hnot => absurd (hlate.step e) hnot⟩
    · have htime (x : Exchange) (hx : (empty.after es).inquiries[k]? = some (.collecting x)) :
          (empty.after es).now ≤ x.deadline := by
        by_contra hlt
        exact hlate ⟨_, x.deadline, hx, rfl, by omega⟩
      rw [isInTime_eq_counts htime, heq hlate]
      exact ⟨List.prefix_refl _, fun _ => rfl⟩

/-- For a request that is woken by its deadline, nothing else counts. -/
theorem Punctual.arrivals_eq (h : Punctual k es) :
    arrivals k es = empty.repliesWhile Inquiry.isInTime k es := by
  induction es using List.reverseRecOn with
  | nil => rfl
  | append_singleton es e ih =>
    have hbefore : Punctual k es := fun past hpast => h past (hpast.trans (List.prefix_append _ _))
    rw [arrivals_concat, repliesWhile_concat, ih hbefore,
      isInTime_eq_counts (h es (List.prefix_append _ _))]

/-- A turn ends a request if enough replies came, the bus closed, or the time is up, and only then. -/
theorem leaving_iff {x : Exchange} (hx : (empty.after es).inquiries[k]? = some (.collecting x)) :
    (∃ x' replies, (empty.after (es ++ [.turn k])).inquiries[k]? = some (.leaving x' replies)) ↔
      Enough x.expected (arrivals k es) ∨ CutOff k es ∨ x.deadline ≤ (empty.after es).now := by
  obtain ⟨hlistens, -⟩ := (fair es).fares k _ hx
  obtain ⟨hlistens', hall⟩ := hlistens.collect
  have hsome : ((x.collect (empty.after es).bus).1.outcome? (x.collect (empty.after es).bus).2
      (empty.after es).now).isSome ↔ _ :=
    Inquiry.Listens.outcome_isSome_iff (x := (x.collect (empty.after es).bus).1) hlistens' hall
  rw [after_concat, getElem?_step hx, proceed, if_pos rfl]
  refine Iff.trans ?_ hsome
  simp only [Inquiry.turn]
  cases (x.collect (empty.after es).bus).1.outcome? (x.collect (empty.after es).bus).2
    (empty.after es).now <;> simp

/-- What a request has returned, unless the closing of the bus cut it off. -/
theorem returned (hq : (empty.after es).inquiries[k]? = some q) {replies : Replies}
    (h : q.replies? = some replies) :
    replies = .ok (upTo q.expected (arrivals k es)) ∨ replies = .error .closed ∧ CutOff k es := by
  have hfares := (fair es).fares k q hq
  cases q with
  | leaving x r | finished x r =>
    obtain rfl := Option.some.inj h
    exact hfares.replies.imp_left fun h => h.1
  | _ => cases h

/-- A reply subject that was let go has no subscription but by someone who subscribes to it after
that. -/
theorem registered_of_finished {x : Exchange} {replies : Replies} (hn : s.Numbered)
    (hfinished : s.inquiries[k]? = some (.finished x replies)) (hnone : s.bus.registered (Subject.inbox k) = [])
    (hes : .subscribe (Subject.inbox k) ∉ es) :
    (s.after es).bus.registered (Subject.inbox k) = [] := by
  induction es generalizing s with
  | nil => exact hnone
  | cons e es ih =>
    have hproceed : s.proceed k (.finished x replies) e = .finished x replies := by
      cases e with
      | turn j => exact ite_self _
      | _ => rfl
    have hfinished' := getElem?_step hfinished e
    rw [hproceed] at hfinished'
    refine ih (hn.step e) hfinished' ?_ fun hmem => hes (.tail _ hmem)
    rw [bus_step]
    refine Bus.registered_after_eq_nil hnone fun hmem => ?_
    generalize hinbox : Subject.inbox k = inbox at hmem
    cases makes_of_mem hmem with
    | subscribes => exact hes (by rw [hinbox]; exact .head _)
    | @turns j _ _ hj hmakes =>
      cases hmakes with
      | subscribes =>
        obtain rfl := Subject.inbox_inj.1 (hinbox.trans (hn.inbox j _ hj))
        rw [hfinished] at hj
        cases hj

/-- Requests on one bus do not get into each other's way. Each has a reply subject of its own. One
that the closing of the bus did not cut off has returned the first of the replies that came there,
as many as it expects. Those that were sent in time come first, and there are no others if it is
woken in time. It returns as soon as it is woken after enough replies, the closing or the deadline,
and then nobody is left on its reply subject. One that panics has no subscription left either. -/
theorem requests_isolated (es : List Event) {k : Nat} {q : Inquiry}
    (hq : (empty.after es).inquiries[k]? = some q) :
    (q.inbox = Subject.inbox k ∧
      ∀ j q', (empty.after es).inquiries[j]? = some q' → (q'.inbox = q.inbox ↔ j = k)) ∧
    (∀ replies, q.replies? = some replies →
      replies = .ok (upTo q.expected (arrivals k es)) ∨ replies = .error .closed ∧ CutOff k es) ∧
    (empty.repliesWhile Inquiry.isInTime k es <+: arrivals k es ∧
      (Punctual k es → arrivals k es = empty.repliesWhile Inquiry.isInTime k es)) ∧
    (∀ x, q = .collecting x →
      ((∃ x' replies, (empty.after (es ++ [.turn k])).inquiries[k]? = some (.leaving x' replies)) ↔
        Enough x.expected (arrivals k es) ∨ CutOff k es ∨ x.deadline ≤ (empty.after es).now)) ∧
    (∀ x replies, q = .leaving x replies ∨ q = .finished x replies →
      (empty.after es).bus.isHeld x.subscription = false) ∧
    (∀ r inbox id, q = .panicked r inbox id → (empty.after es).bus.isHeld id = false) ∧
    (∀ past x replies rest, es = past ++ .turn k :: rest →
      (empty.after past).inquiries[k]? = some (.leaving x replies) → .subscribe q.inbox ∉ rest →
      (empty.after es).bus.count q.inbox = 0) := by
  have hn := numbered_after es
  have hfares := (fair es).fares k q hq
  refine ⟨⟨hn.inbox k q hq, ?_⟩, ?_, ⟨(inTime_isPrefix k es).1, Punctual.arrivals_eq⟩, ?_, ?_, ?_, ?_⟩
  · intro j q' hj
    rw [hn.inbox j q' hj, hn.inbox k q hq]
    exact Subject.inbox_inj
  · intro replies hreplies
    cases q with
    | leaving x r | finished x r =>
      obtain rfl := Option.some.inj hreplies
      exact hfares.replies.imp_left fun h => h.1
    | _ => cases hreplies
  · rintro x rfl
    exact leaving_iff hq
  · rintro x replies (rfl | rfl) <;> rw [Bus.isHeld_eq, hfares.unheld.1] <;> rfl
  · rintro r inbox id rfl
    rw [Bus.isHeld_eq, hfares.1]
    rfl
  · rintro past x replies rest rfl hleaving hrest
    rw [hn.inbox k q hq] at hrest ⊢
    have hfinished := getElem?_step hleaving (.turn k)
    have hnone : ((empty.after past).step (.turn k)).bus.registered (Subject.inbox k) = [] := by
      rw [bus_step, ← (numbered_after past).inbox k _ hleaving]
      simp [moves, hleaving, Inquiry.moves, Bus.Move.perform, Inquiry.inbox]
    rw [proceed, if_pos rfl] at hfinished
    have hgone := registered_of_finished ((numbered_after past).step _) hfinished hnone hrest
    rw [after_append, after_cons, Bus.count, hgone]
    rfl

/-- Two requests at once. One reply comes early, one late, one more than is expected; the second request
runs out of time. -/
def crossedReplies : List Event :=
  [.deliver ⟨Subject.inbox 1, .null, none⟩, .request (.single "hm.status" .null 50),
    .request ⟨"hm.health", .null, some 2, 30⟩, .turn 1, .turn 0, .turn 0, .turn 1,
    .deliver ⟨Subject.inbox 1, .bool true, none⟩, .deliver ⟨Subject.inbox 0, .bool false, none⟩,
    .deliver ⟨Subject.inbox 0, .bool true, none⟩, .turn 0, .wait 30, .turn 1,
    .deliver ⟨Subject.inbox 1, .null, none⟩, .turn 0, .turn 1]

theorem requests_isolated_crossed :
    (∃ replies, (empty.after crossedReplies).inquiries[1]?.bind Inquiry.replies? = some replies ∧
      (replies = .ok [.bool true] ∨ replies = .error .closed ∧ CutOff 1 crossedReplies)) ∧
    (∃ replies, (empty.after crossedReplies).inquiries[0]?.bind Inquiry.replies? = some replies ∧
      (replies = .ok [.bool false] ∨ replies = .error .closed ∧ CutOff 0 crossedReplies)) ∧
    (empty.after crossedReplies).bus.count (Subject.inbox 1) = 0 := by
  have hfirst : (empty.after crossedReplies).inquiries[0]? =
      some (.finished ⟨Subject.inbox 0, 1, some 1, 50, [.bool false]⟩ (.ok [.bool false])) := rfl
  have hsecond : (empty.after crossedReplies).inquiries[1]? =
      some (.finished ⟨Subject.inbox 1, 0, some 2, 30, [.bool true]⟩ (.ok [.bool true])) := rfl
  obtain ⟨-, hreturned, -⟩ := requests_isolated crossedReplies hfirst
  obtain ⟨-, hreturned', -, -, -, -, hleft⟩ := requests_isolated crossedReplies hsecond
  exact ⟨⟨_, rfl, hreturned' _ rfl⟩, ⟨_, rfl, hreturned _ rfl⟩,
    hleft (crossedReplies.take 15) _ _ [] rfl rfl List.not_mem_nil⟩

end Traffic

end AppFleet
