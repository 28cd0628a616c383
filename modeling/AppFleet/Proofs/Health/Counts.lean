import AppFleet.Health.Query
import AppFleet.Proofs.Activity.Course
import AppFleet.Proofs.Bus.Requests
import AppFleet.Proofs.Message.RoundTrip
import Mathlib.Data.List.Nodup

/-! What a question about healthy instances shows. Replies that are of no use are passed over when the
counts are made, but each takes the place of one when the replies are awaited: as many are awaited as
there are applications. -/

namespace AppFleet

namespace Health

open Traffic

/-- The question about the current generations of these applications. -/
def question (queryMs : UInt64) (apps : List Application) : Request :=
  ⟨Subject.hmHealth, HealthQuery.codec.write ⟨apps.map fun a => ⟨a.id, a.version⟩⟩, some apps.length,
    queryMs.toNat⟩

theorem awaits_question (w : World) (queryMs : UInt64) (apps : List Application) :
    w.Awaits (question queryMs apps) := w.awaits_of_toNat rfl

def received : Replies → List Json
  | .ok replies => replies
  | .error _ => []

/-- What a reply says about an application, if it is about its current generation. -/
def countOf (a : Application) (reply : Json) : Option UInt32 :=
  match HealthReply.codec.read reply with
  | .ok r => if r.droplet = a.id ∧ r.version = a.version then some r.healthy else none
  | .error _ => none

theorem countOf_write (a : Application) (r : HealthReply) : countOf a (HealthReply.codec.write r) =
    if r.droplet = a.id ∧ r.version = a.version then some r.healthy else none := by
  rw [countOf, HealthReply.codec_faithful]

/-- One of these replies says so, or it is zero and none says anything about the application. -/
def IsCount (a : Application) (came : List Json) (n : UInt32) : Prop :=
  (∃ reply ∈ came, countOf a reply = some n) ∨ n = 0 ∧ ∀ reply ∈ came, countOf a reply = none

def IsAnswered (a : Application) (replies : List Json) : Prop :=
  ∃ reply ∈ replies, (countOf a reply).isSome

def Covers (apps : List Application) (counts : Table UInt32) : Prop :=
  ∀ id, (counts.get? id).isSome ↔ id ∈ apps.map (·.id)

variable {apps : List Application} {a : Application} {counts : Table UInt32} {queryMs : UInt64}
  {steps : List Step}

theorem send_goes {r : Request} {answer : List Json} : (send r).Goes steps answer ↔
    ∃ w replies, w.Awaits r ∧ steps = [.ask w r replies] ∧ answer = received replies := by
  have heq : send r = Activity.ask r >>= fun replies => pure (received replies) :=
    congrArg (Activity.ask r >>= ·) (funext fun replies => by cases replies <;> rfl)
  rw [heq, Activity.goes_bind_pure]
  constructor
  · rintro ⟨replies, hasks, rfl⟩
    obtain ⟨w, hawaits, rfl⟩ := (Activity.goes_ask r replies).1 hasks
    exact ⟨w, replies, hawaits, rfl, rfl⟩
  · rintro ⟨w, replies, hawaits, rfl, rfl⟩
    exact ⟨replies, (Activity.goes_ask r replies).2 ⟨w, hawaits, rfl⟩, rfl⟩

theorem steady_healthyInstances (queryMs : UInt64) (apps : List Application) :
    (healthyInstances queryMs apps).Steady := by
  cases apps with
  | nil => exact Activity.steady_pure _
  | cons a apps =>
    refine Activity.Steady.bind (Activity.Steady.bind (fun steps h => ?_) ?_) fun _ _ _ =>
      Activity.steady_pure _
    · obtain ⟨w, -, hlost⟩ := (Activity.panics_ask _).1 h
      exact hlost (awaits_question w queryMs (a :: apps))
    · intro steps replies _
      cases replies <;> exact Activity.steady_pure _

theorem healthyInstances_goes : (healthyInstances queryMs apps).Goes steps counts ↔
    (apps = [] ∧ steps = [] ∧ counts = zeros apps) ∨
    apps ≠ [] ∧ ∃ w replies, steps = [.ask w (question queryMs apps) replies] ∧
      counts = (received replies).foldl (count apps) (zeros apps) := by
  cases apps with
  | nil => simp [healthyInstances]
  | cons a apps =>
    change (send (question queryMs (a :: apps)) >>= fun replies =>
      pure (replies.foldl (count (a :: apps)) (zeros (a :: apps)))).Goes steps counts ↔ _
    rw [Activity.goes_bind_pure]
    simp only [send_goes]
    constructor
    · rintro ⟨_, ⟨w, replies, -, rfl, rfl⟩, rfl⟩
      exact .inr ⟨List.cons_ne_nil _ _, w, replies, rfl, rfl⟩
    · rintro (⟨hnone, -⟩ | ⟨-, w, replies, rfl, rfl⟩)
      · cases hnone
      · exact ⟨_, ⟨w, replies, awaits_question _ _ _, rfl, rfl⟩, rfl⟩

theorem get?_foldl_zeros (apps : List Application) (t : Table UInt32) (id : AppId) :
    (apps.foldl (fun counts a => counts.put a.id 0) t).get? id =
      if id ∈ apps.map (·.id) then some 0 else t.get? id := by
  induction apps generalizing t with
  | nil => simp
  | cons a apps ih =>
    rw [List.foldl_cons, ih, List.map_cons]
    by_cases hid : id = a.id
    · subst hid
      simp
    · rw [Table.get?_put_of_ne _ _ hid]
      simp [hid]

theorem get?_zeros (apps : List Application) (id : AppId) :
    (zeros apps).get? id = if id ∈ apps.map (·.id) then some 0 else none :=
  get?_foldl_zeros apps .empty id

theorem covers_zeros (apps : List Application) : Covers apps (zeros apps) := by
  intro id
  rw [get?_zeros]
  split <;> simp_all

theorem Covers.count (h : Covers apps counts) (reply : Json) : Covers apps (count apps counts reply) := by
  unfold Health.count
  split
  · rename_i r hr
    split
    · rename_i hknown
      intro id
      by_cases hid : id = r.droplet
      · obtain ⟨a, ha, hmatch⟩ := List.any_eq_true.1 hknown
        have hmem : id ∈ apps.map (·.id) := List.mem_map.2 ⟨a, ha, by simp_all⟩
        rw [hid, Table.get?_put_self, ← hid]
        exact iff_of_true rfl hmem
      · rw [Table.get?_put_of_ne _ _ hid]
        exact h id
    · exact h
  · exact h

/-- Whatever is replied, there is a count for every application, and there are no others. -/
theorem Covers.foldl (h : Covers apps counts) (replies : List Json) :
    Covers apps (replies.foldl (Health.count apps) counts) := by
  induction replies generalizing counts with
  | nil => exact h
  | cons reply replies ih => exact ih (h.count reply)

theorem get?_count (hids : (apps.map (·.id)).Nodup) (ha : a ∈ apps) (counts : Table UInt32)
    (reply : Json) : (count apps counts reply).get? a.id = (countOf a reply).or (counts.get? a.id) := by
  unfold count countOf
  cases HealthReply.codec.read reply with
  | error e => rfl
  | ok r =>
    dsimp only
    by_cases habout : r.droplet = a.id ∧ r.version = a.version
    · have hknown : apps.any fun a => a.id = r.droplet && a.version = r.version :=
        List.any_eq_true.2 ⟨a, ha, by simp [habout]⟩
      rw [if_pos hknown, if_pos habout, habout.1, Table.get?_put_self]
      rfl
    · rw [if_neg habout]
      split
      · rename_i hknown
        obtain ⟨other, hother, hmatch⟩ := List.any_eq_true.1 hknown
        simp only [Bool.and_eq_true, decide_eq_true_eq] at hmatch
        refine Table.get?_put_of_ne _ _ fun hid => habout ⟨hid.symm, ?_⟩
        obtain rfl := List.inj_on_of_nodup_map hids ha hother (hid.trans hmatch.1.symm)
        exact hmatch.2.symm
      · rfl

/-- The last reply that is of use is the one that is shown. -/
theorem get?_foldl_count (hids : (apps.map (·.id)).Nodup) (ha : a ∈ apps) (replies : List Json) :
    (replies.foldl (count apps) counts).get? a.id =
      (replies.filterMap (countOf a)).getLast?.or (counts.get? a.id) := by
  induction replies using List.reverseRecOn with
  | nil => simp
  | append_singleton replies reply ih =>
    have hlast : ([reply].filterMap (countOf a)).getLast? = countOf a reply := by
      cases h : countOf a reply <;> simp [h]
    rw [List.foldl_append, List.foldl_cons, List.foldl_nil, get?_count hids ha, ih,
      List.filterMap_append, List.getLast?_append, hlast, Option.or_assoc]

/-- What is shown of the replies that were seen is right for all that came, exactly if one that was seen
says something about the application, or none does, or one that came says zero. -/
theorem isCount_iff {seen came : List Json} (hseen : ∀ reply ∈ seen, reply ∈ came) :
    IsCount a came ((seen.filterMap (countOf a)).getLast?.getD 0) ↔
      (IsAnswered a came → IsAnswered a seen ∨ ∃ reply ∈ came, countOf a reply = some 0) := by
  cases hlast : (seen.filterMap (countOf a)).getLast? with
  | some n =>
    obtain ⟨reply, hreply, hcount⟩ := List.mem_filterMap.1 (List.mem_of_getLast? hlast)
    exact iff_of_true (.inl ⟨reply, hseen reply hreply, hcount⟩)
      fun _ => .inl ⟨reply, hreply, by rw [hcount]; rfl⟩
  | none =>
    have hnone : ∀ reply ∈ seen, countOf a reply = none :=
      List.filterMap_eq_nil_iff.1 (List.getLast?_eq_none_iff.1 hlast)
    constructor
    · rintro (⟨reply, hreply, hcount⟩ | ⟨-, hall⟩) hsome
      · exact .inr ⟨reply, hreply, hcount⟩
      · obtain ⟨reply, hreply, hcount⟩ := hsome
        rw [hall reply hreply] at hcount
        cases hcount
    · intro h
      by_cases hsome : IsAnswered a came
      · rcases h hsome with ⟨reply, hreply, hcount⟩ | hzero
        · rw [hnone reply hreply] at hcount
          cases hcount
        · exact .inl hzero
      · refine .inr ⟨rfl, fun reply hreply => ?_⟩
        exact Option.not_isSome_iff_eq_none.1 fun hcount => hsome ⟨reply, hreply, hcount⟩

/-- A question that has returned saw the first replies that came, one for each application, or the bus
closed. -/
theorem received_of_returned {past rest : List Event} {q : Inquiry} {replies : Replies}
    (hq : (empty.after (past ++ .request (question queryMs apps) :: rest)).inquiries[
      (empty.after past).inquiries.length]? = some q) (hreplies : q.replies? = some replies) :
    let es := past ++ .request (question queryMs apps) :: rest
    let k := (empty.after past).inquiries.length
    received replies = (arrivals k es).take apps.length ∨ received replies = [] ∧ CutOff k es := by
  have hexpected : q.expected = some apps.length := expected_of_made hq
  rcases returned hq hreplies with rfl | ⟨rfl, hcut⟩
  · rw [hexpected]
    exact .inl rfl
  · exact .inr ⟨rfl, hcut⟩

/-- Whoever is on the bus and whatever they reply, the ids of the applications are what there are
counts for. The replies in time come first, and no others if the question is woken in time; it returns
as soon as it is woken after enough replies, the closing of the bus or the deadline. What is shown for
an application is what a reply said about its current generation, or zero as none did, exactly if such
a reply is among the first, one for each application, or none came, or one says zero itself. There never
is a panic. -/
theorem counts_right_iff (hids : (apps.map (·.id)).Nodup)
    (h : (healthyInstances queryMs apps).Goes steps counts) :
    (healthyInstances queryMs apps).Steady ∧ (∀ id, (counts.get? id).isSome ↔ id ∈ apps.map (·.id)) ∧
    (apps = [] ∧ steps = [] ∨ ∃ w replies, steps = [.ask w (question queryMs apps) replies] ∧
      ∀ past rest q,
        let es := past ++ .request (question queryMs apps) :: rest
        let k := (empty.after past).inquiries.length
        let came := arrivals k es
        (empty.after es).inquiries[k]? = some q →
        (empty.repliesWhile Inquiry.isInTime k es <+: came ∧
          (Punctual k es → came = empty.repliesWhile Inquiry.isInTime k es)) ∧
        (∀ x, q = .collecting x →
          ((∃ x' last, (empty.after (es ++ [.turn k])).inquiries[k]? = some (.leaving x' last)) ↔
            Enough (some apps.length) came ∨ CutOff k es ∨ x.deadline ≤ (empty.after es).now)) ∧
        (q.replies? = some replies →
          (received replies = came.take apps.length ∨ received replies = [] ∧ CutOff k es) ∧
          ∀ a ∈ apps, ∃ n, counts.get? a.id = some n ∧ (IsCount a came n ↔
            (IsAnswered a came → IsAnswered a (received replies) ∨
              ∃ reply ∈ came, countOf a reply = some 0)))) := by
  rcases healthyInstances_goes.1 h with ⟨rfl, rfl, rfl⟩ | ⟨-, w, replies, rfl, rfl⟩
  · exact ⟨steady_healthyInstances _ _, covers_zeros [], .inl ⟨rfl, rfl⟩⟩
  refine ⟨steady_healthyInstances _ _, (covers_zeros apps).foldl _, .inr ⟨w, replies, rfl, fun past rest q => ?_⟩⟩
  intro es k came hq
  have hexpected : q.expected = some apps.length := expected_of_made hq
  refine ⟨⟨(inTime_isPrefix k es).1, Punctual.arrivals_eq⟩, ?_, ?_⟩
  · rintro x rfl
    rw [← hexpected]
    exact leaving_iff hq
  · intro hreplies
    have hreceived := received_of_returned hq hreplies
    have hcame : ∀ reply ∈ received replies, reply ∈ came := by
      intro reply hreply
      rcases hreceived with hfirst | ⟨hnone, -⟩
      · rw [hfirst] at hreply
        exact List.mem_of_mem_take hreply
      · rw [hnone] at hreply
        cases hreply
    refine ⟨hreceived, fun a ha => ⟨_, ?_, isCount_iff hcame⟩⟩
    have hzero : (zeros apps).get? a.id = some 0 := by
      rw [get?_zeros, if_pos (List.mem_map_of_mem ha)]
    rw [get?_foldl_count hids ha, hzero]
    cases ((received replies).filterMap (countOf a)).getLast? <;> rfl

def repliedAtOnce (a : Application) (replies : List Json) : List Event :=
  .request (question 50 [a]) :: .turn 0 :: .turn 0 ::
    (replies.map fun reply => .deliver ⟨Subject.inbox 0, reply, none⟩) ++ [.turn 0]

def web : Application := .new "web" "web"

def threeHealthy : Json := HealthReply.codec.write ⟨"web", web.version, 3⟩

def nineOfOther : Json := HealthReply.codec.write ⟨"web", "old", 9⟩

theorem countOf_threeHealthy : countOf web threeHealthy = some 3 := by
  rw [threeHealthy, countOf_write, if_pos ⟨rfl, rfl⟩]

theorem countOf_nineOfOther : countOf web nineOfOther = none := by
  have hother : ¬ ("old" = web.version) := by decide +kernel
  rw [nineOfOther, countOf_write, if_neg fun h => hother h.2]

theorem nodup_web : ([web].map (·.id)).Nodup := List.nodup_singleton _

theorem goes_web (replies : List Json) : (healthyInstances 50 [web]).Goes
    [.ask (World.initial 0 0 0) (question 50 [web]) (.ok replies)]
    (replies.foldl (count [web]) (zeros [web])) :=
  healthyInstances_goes.2 (.inr ⟨List.cons_ne_nil _ _, _, _, rfl, rfl⟩)

theorem counts_right_iff_web : ∃ counts, (healthyInstances 50 [web]).Goes
    [.ask (World.initial 0 0 0) (question 50 [web]) (.ok [threeHealthy])] counts ∧
    counts.get? "web" = some 3 := by
  refine ⟨_, goes_web [threeHealthy], ?_⟩
  obtain ⟨-, -, ⟨hnone, -⟩ | ⟨w, replies, hsteps, hall⟩⟩ :=
    counts_right_iff nodup_web (goes_web [threeHealthy])
  · cases hnone
  · obtain ⟨-, -, hreturned⟩ := hall [] (repliedAtOnce web [threeHealthy]).tail _ rfl
    cases hsteps
    obtain ⟨-, hcounts⟩ := hreturned rfl
    obtain ⟨n, hn, hiff⟩ := hcounts web (List.mem_singleton_self _)
    have hcount : IsCount web [threeHealthy] n := hiff.2 fun _ =>
      .inl ⟨threeHealthy, List.mem_singleton_self _, by rw [countOf_threeHealthy]; rfl⟩
    rcases hcount with ⟨reply, hreply, hsays⟩ | ⟨-, hnone⟩
    · rw [List.mem_singleton.1 hreply, countOf_threeHealthy] at hsays
      exact hn.trans hsays.symm
    · cases countOf_threeHealthy.symm.trans (hnone threeHealthy (List.mem_singleton_self _))

theorem passed_over_takes_place : ¬ ∀ (queryMs : UInt64) (apps : List Application) (counts : Table UInt32)
    (w : World) (replies : Replies) (past rest : List Event), (apps.map (·.id)).Nodup →
    (healthyInstances queryMs apps).Goes [.ask w (question queryMs apps) replies] counts →
    let es := past ++ .request (question queryMs apps) :: rest
    let k := (empty.after past).inquiries.length
    (empty.after es).inquiries[k]?.bind Inquiry.replies? = some replies →
    ∀ a ∈ apps, ∃ n, counts.get? a.id = some n ∧
      IsCount a (empty.repliesWhile Inquiry.isInTime k es) n := by
  intro h
  obtain ⟨n, hn, hcount⟩ := h 50 [web] _ (World.initial 0 0 0) (.ok [nineOfOther]) []
    (repliedAtOnce web [nineOfOther, threeHealthy]).tail nodup_web (goes_web [nineOfOther])
    rfl web (List.mem_singleton_self _)
  have hcame : IsCount web [nineOfOther, threeHealthy] n := hcount
  have hzero : n = 0 := by
    rw [List.foldl_cons, List.foldl_nil, get?_count nodup_web (List.mem_singleton_self _),
      countOf_nineOfOther] at hn
    exact (Option.some.inj hn).symm
  subst hzero
  rcases hcame with ⟨reply, hreply, hsays⟩ | ⟨-, hnone⟩
  · rcases List.mem_cons.1 hreply with rfl | hreply
    · cases countOf_nineOfOther.symm.trans hsays
    · rw [List.mem_singleton.1 hreply, countOf_threeHealthy] at hsays
      cases hsays
  · cases countOf_threeHealthy.symm.trans (hnone threeHealthy (by simp))

end Health

end AppFleet
