import AppFleet.Proofs.Fleet.Sent

/-! What an activity does to a world of which nobody else makes anything, within surroundings that say
what the clocks show, what the bus refuses and what is replied. Worlds that differ only in those, in their bus
and in what was sent before are all one to it: it does the same to both. -/

namespace AppFleet

/-- What shows at each step of an activity, whatever it does itself. -/
structure Surroundings where
  /-- The clock, and the wall clock. -/
  clocks : Nat → UInt64 × UInt64
  horizon : Nat → Horizon
  /-- The subjects on which the bus refuses to send. -/
  refused : Nat → List String
  /-- What is replied to a request. -/
  replies : Nat → Replies

namespace Surroundings

def enter (env : Surroundings) (n : Nat) (w : World) : World :=
  { w with
    clock := (env.clocks n).1
    wallClock := (env.clocks n).2
    horizon := env.horizon n
    link := { w.link with refused := env.refused n } }

def reply? (env : Surroundings) (n : Nat) : Except BusError (Option Exchange) → Option Replies
  | .ok exchange => exchange.map fun _ => env.replies n
  | .error e => some (.error e)

end Surroundings

/-- The result of an activity from its `n`-th step on, unless it panics, and the world that it leaves.
Nobody answers a survey. -/
def Activity.within (env : Surroundings) : Activity α → Nat → World → Option α × World
  | .done a, _, w => (some a, w)
  | .panic, _, w => (none, w)
  | .act action next, n, w =>
    let (answer, w) := (env.enter n w).perform action
    (next answer).within env (n + 1) w
  | .request r next, n, w =>
    let (sent, w) := (env.enter n w).request 0 r
    match env.reply? n sent with
    | some replies => (next replies).within env (n + 1) w
    | none => (none, w)
  | .sleep _ next, n, w => next.within env (n + 1) w
  | .survey records timeoutMs next, n, w =>
    (next ⟨records.length, 0⟩).within env (n + 1) ((env.enter n w).sendSurvey 0 timeoutMs records).2

namespace World

structure Alike (w w' : World) : Prop where
  store : w'.store = w.store
  ttl : w'.ttl = w.ttl
  scaleUps : w'.scaleUps = w.scaleUps
  unknownNodes : w'.unknownNodes = w.unknownNodes

/-- The same was done to two worlds that were alike, and the same was sent. -/
structure Together (w v w' v' : World) : Prop where
  alike : v.Alike v'
  sent : ∃ news, v.link.sent = w.link.sent ++ news ∧ v'.link.sent = w'.link.sent ++ news

variable {w w' v v' u u' : World}

theorem Alike.refl (w : World) : w.Alike w := ⟨rfl, rfl, rfl, rfl⟩

theorem Alike.trans {w'' : World} (h : w.Alike w') (h' : w'.Alike w'') : w.Alike w'' :=
  ⟨h'.store.trans h.store, h'.ttl.trans h.ttl, h'.scaleUps.trans h.scaleUps,
    h'.unknownNodes.trans h.unknownNodes⟩

theorem Alike.symm (h : w.Alike w') : w'.Alike w :=
  ⟨h.store.symm, h.ttl.symm, h.scaleUps.symm, h.unknownNodes.symm⟩

theorem Alike.together (h : w.Alike w') : Together w w w' w' := ⟨h, [], by simp, by simp⟩

theorem Together.trans (h : Together w v w' v') (h' : Together v u v' u') : Together w u w' u' := by
  obtain ⟨news, hv, hv'⟩ := h.sent
  obtain ⟨later, hu, hu'⟩ := h'.sent
  exact ⟨h'.alike, news ++ later, by rw [hu, hv, List.append_assoc],
    by rw [hu', hv', List.append_assoc]⟩

theorem Together.news (h : Together w v w' v') :
    v'.link.sent.drop w'.link.sent.length = v.link.sent.drop w.link.sent.length := by
  obtain ⟨news, hv, hv'⟩ := h.sent
  rw [hv, hv', List.drop_left, List.drop_left]

def onBus (w : World) (bus : Bus) (sent : List Sent) : World :=
  { w with link := { w.link with bus, sent } }

/-- Within the same surroundings they differ in their buses only, and in what was sent. -/
theorem Alike.enter (h : w.Alike w') (env : Surroundings) (n : Nat) :
    env.enter n w' = (env.enter n w).onBus w'.link.bus w'.link.sent := by
  simp only [Surroundings.enter, onBus, h.store, h.ttl, h.scaleUps, h.unknownNodes]

variable (bus : Bus) (sent : List Sent)

/-- The bus shows in no answer, and what was sent before neither. -/
theorem perform_onBus (w : World) (action : Action) :
    ((w.onBus bus sent).perform action).1 = (w.perform action).1 ∧
      Together w (w.perform action).2 (w.onBus bus sent) ((w.onBus bus sent).perform action).2 := by
  have hsilent (v v' : World) (h : v.Alike v') (hv : v.link.sent = w.link.sent)
      (hv' : v'.link.sent = sent) : Together w v (w.onBus bus sent) v' :=
    ⟨h, [], by simp [hv], by simp [hv', onBus]⟩
  cases action with
  | publish subject payload =>
    by_cases hr : subject ∈ w.link.refused <;>
      simp only [perform, Link.publish, onBus, Link.note, hr, if_true, if_false] <;>
      exact ⟨rfl, ⟨rfl, rfl, rfl, rfl⟩, _, rfl, rfl⟩
  | _ => exact ⟨rfl, hsilent _ _ ⟨rfl, rfl, rfl, rfl⟩ rfl rfl⟩

theorem request_onBus (w : World) (env : Surroundings) (n now : Nat) (r : Request) :
    env.reply? n ((w.onBus bus sent).request now r).1 = env.reply? n (w.request now r).1 ∧
      Together w (w.request now r).2 (w.onBus bus sent) ((w.onBus bus sent).request now r).2 := by
  refine ⟨?_, ⟨rfl, rfl, rfl, rfl⟩, _, (w.request_sent now r).1, ?_⟩
  · by_cases hr : r.subject ∈ w.link.refused
    · simp [World.request, Link.request, onBus, hr, Surroundings.reply?]
    · by_cases hreach : r.timeoutMs ≤ w.horizon.ms <;>
        simp [World.request, Link.request, Exchange.start, Exchange.ask, Exchange.await?, onBus, hr,
          hreach, Surroundings.reply?]
  · exact ((w.onBus bus sent).request_sent now r).1

theorem sendSurvey_alike (w : World) (now : Nat) (timeoutMs : UInt64) (records : List LedgerRecord) :
    w.Alike (w.sendSurvey now timeoutMs records).2 := by
  induction records generalizing w with
  | nil => exact .refl w
  | cons r rest ih =>
    have hfirst : w.Alike (w.request now (Ledger.query timeoutMs r)).2 := ⟨rfl, rfl, rfl, rfl⟩
    exact hfirst.trans (ih _)

theorem sendSurvey_onBus (w : World) (now : Nat) (timeoutMs : UInt64) (records : List LedgerRecord) :
    Together w (w.sendSurvey now timeoutMs records).2 (w.onBus bus sent)
      ((w.onBus bus sent).sendSurvey now timeoutMs records).2 := by
  have hother : w.Alike (w.onBus bus sent) := ⟨rfl, rfl, rfl, rfl⟩
  refine ⟨?_, _, w.sendSurvey_sent now timeoutMs records,
    (w.onBus bus sent).sendSurvey_sent now timeoutMs records⟩
  exact ((w.sendSurvey_alike now timeoutMs records).symm.trans hother).trans
    ((w.onBus bus sent).sendSurvey_alike now timeoutMs records)

/-- The same becomes of an activity in worlds that are alike, and of them. -/
theorem Alike.within (env : Surroundings) (x : Activity α) {n : Nat} (h : w.Alike w') :
    (x.within env n w').1 = (x.within env n w).1 ∧
      Together w (x.within env n w).2 w' (x.within env n w').2 := by
  induction x generalizing n w w' with
  | done a | panic => exact ⟨rfl, h.together⟩
  | act action next ih =>
    obtain ⟨hanswer, halike, hsent⟩ :=
      (env.enter n w).perform_onBus w'.link.bus w'.link.sent action
    simp only [Activity.within, h.enter env n, hanswer]
    obtain ⟨hresult, hrest⟩ := ih _ halike
    exact ⟨hresult, Together.trans ⟨halike, hsent⟩ hrest⟩
  | request r next ih =>
    obtain ⟨hreplied, halike, hsent⟩ :=
      (env.enter n w).request_onBus w'.link.bus w'.link.sent env n 0 r
    simp only [Activity.within, h.enter env n, hreplied]
    cases env.reply? n ((env.enter n w).request 0 r).1 with
    | none => exact ⟨rfl, halike, hsent⟩
    | some replies =>
      obtain ⟨hresult, hrest⟩ := ih replies halike
      exact ⟨hresult, Together.trans ⟨halike, hsent⟩ hrest⟩
  | sleep ms next ih => exact ih h
  | survey records timeoutMs next ih =>
    obtain ⟨halike, hsent⟩ :=
      (env.enter n w).sendSurvey_onBus w'.link.bus w'.link.sent 0 timeoutMs records
    simp only [Activity.within, h.enter env n]
    obtain ⟨hresult, hrest⟩ := ih ⟨records.length, 0⟩ halike
    exact ⟨hresult, Together.trans ⟨halike, hsent⟩ hrest⟩

end World

end AppFleet
