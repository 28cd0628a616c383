import AppFleet.Proofs.Activity.Course
import AppFleet.Proofs.Dispatch.Grammar
import AppFleet.Proofs.Message.RoundTrip
import AppFleet.Proofs.Dispatch.Told

/-! Which application a rejected command is blamed on. The application is looked for in the same way on
every subject, under `droplet` first, also where a command names it under `app_id`. -/

namespace AppFleet

/-- The event about an application that a step publishes. -/
def Step.event? : Step → Option AppEvent
  | .act _ (.publish subject payload) =>
    if subject = Subject.appEvent then (AppEvent.codec.read payload).toOption else none
  | _ => none

namespace Command

/-- The key under which a command on this subject names its application. -/
def idKey (subject : String) : String :=
  if subject = "hm.start" ∨ subject = "hm.stop" then "droplet" else "app_id"

/-- The instances are counts, as many as there may be. -/
def HasCounts (payload : Json) : Prop :=
  ∃ counts : List UInt32, payload.get? "instances" = some (.array (counts.map Json.count))

/-- Nothing in the payload leads away from the application that it names. -/
def Clear (subject : String) (payload : Json) (app : AppId) : Prop :=
  subject = "hm.adjust" → payload.get? "droplet" = none ∨ payload.get? "droplet" = some (.string app) ∨
    HasCounts payload

variable {subject : String} {entries : List (String × Json)} {payload : Json} {app : AppId} {m : Malformed}

theorem droplet_of_hmStart (h : decode "hm.start" payload = .error m) : m.droplet = hint payload := by
  unfold decode at h
  simp only [Subject.hmStart, if_true, bind_error_iff, mapError_error_iff] at h
  obtain ⟨_, -, rfl⟩ | ⟨raw, -, h⟩ := h
  · rfl
  · cases hd : raw.droplet <;> cases hv : raw.version <;> cases hi : raw.indices <;>
      simp [hd, hv, hi, pure, Except.pure] at h <;> exact h ▸ rfl

theorem droplet_of_hmStop (h : decode "hm.stop" payload = .error m) : m.droplet = hint payload := by
  have hne : ¬ "hm.stop" = Subject.hmStart := by decide
  unfold decode at h
  simp only [hne, if_false, Subject.hmStop, if_true, bind_error_iff, mapError_error_iff] at h
  obtain ⟨_, -, rfl⟩ | ⟨raw, -, h⟩ := h
  · rfl
  · cases hd : raw.droplet <;> cases hi : raw.instances <;>
      simp [hd, hi, pure, Except.pure] at h <;> exact h ▸ rfl

/-- A change of the instances is rejected with the application that it names if the instances are
counts, too many or too few of them. -/
theorem droplet_of_hmAdjust (happ : (Json.object entries).get? "app_id" = some (.string app))
    (h : decode "hm.adjust" (.object entries) = .error m) :
    HasCounts (.object entries) ∧ m.droplet = some app ∨
      ¬ HasCounts (.object entries) ∧ m.droplet = hint (.object entries) := by
  have hne : ¬ "hm.adjust" = Subject.hmStart ∧ ¬ "hm.adjust" = Subject.hmStop := by decide
  unfold decode at h
  simp only [hne, if_false, Subject.hmAdjust, if_true, bind_error_iff, mapError_error_iff,
    mapError_ok_iff] at h
  obtain ⟨e, hread, rfl⟩ | ⟨raw, hread, h⟩ := h
  · refine .inr ⟨?_, rfl⟩
    rintro ⟨counts, hcounts⟩
    have hok : RawAdjust.codec.read (.object entries) = .ok ⟨some app, some counts⟩ :=
      read_rawAdjust_iff.2 ⟨happ, hcounts⟩
    cases hok.symm.trans hread
  · obtain ⟨hid, hinstances⟩ := read_rawAdjust_iff.1 hread
    have hraw : raw.appId = some app := by
      cases hraw : raw.appId with
      | none => simp [hraw, Json.Has, happ] at hid
      | some other => simpa [hraw, Json.Has, happ, eq_comm] using hid
    rw [hraw] at h
    cases hcounts : raw.instances with
    | none =>
      rw [hcounts] at h hinstances
      have hnone : ¬ HasCounts (.object entries) := by
        rintro ⟨counts, hcounts⟩
        simp [Json.Has, hcounts] at hinstances
      simp [throw, throwThe, MonadExceptOf.throw] at h
      exact .inr ⟨hnone, h ▸ rfl⟩
    | some counts =>
      rw [hcounts] at h hinstances
      refine .inl ⟨⟨counts, hinstances⟩, ?_⟩
      rcases counts with _ | ⟨before, _ | ⟨after, _ | _⟩⟩
      case cons.cons.nil => simp [pure, Except.pure] at h
      all_goals
        simp [throw, throwThe, MonadExceptOf.throw] at h
        exact h ▸ rfl

/-- What is under `droplet` comes first, whatever it is. -/
theorem hint_of_droplet {j : Json} (h : payload.get? "droplet" = some j) : hint payload = j.text? := by
  simp [hint, h]

theorem hint_iff (happ : payload.get? "app_id" = some (.string app)) :
    hint payload = some app ↔
      payload.get? "droplet" = none ∨ payload.get? "droplet" = some (.string app) := by
  cases hdroplet : payload.get? "droplet" with
  | none => simp [hint, hdroplet, happ, Json.text?]
  | some j =>
    rw [hint_of_droplet hdroplet]
    cases j <;> simp [Json.text?]

theorem droplet_iff (hcommand : subject ∈ Subject.commands)
    (hid : (Json.object entries).get? (idKey subject) = some (.string app))
    (h : decode subject (.object entries) = .error m) :
    (m.droplet = some app ↔ Clear subject (.object entries) app) ∧
      (¬ Clear subject (.object entries) app →
        m.droplet = ((Json.object entries).get? "droplet").bind Json.text?) := by
  simp only [Subject.commands, List.mem_cons, List.not_mem_nil, or_false] at hcommand
  obtain rfl | rfl | rfl | rfl := hcommand
  · have hclear : Clear "hm.start" (.object entries) app := fun hadjust => absurd hadjust (by decide)
    have hdroplet : m.droplet = some app := (droplet_of_hmStart h).trans (hint_of_droplet hid)
    exact ⟨iff_of_true hdroplet hclear, fun hnot => absurd hclear hnot⟩
  · have hclear : Clear "hm.stop" (.object entries) app := fun hadjust => absurd hadjust (by decide)
    have hdroplet : m.droplet = some app := (droplet_of_hmStop h).trans (hint_of_droplet hid)
    exact ⟨iff_of_true hdroplet hclear, fun hnot => absurd hclear hnot⟩
  · have happ : (Json.object entries).get? "app_id" = some (.string app) := hid
    have hclear : Clear "hm.adjust" (.object entries) app ↔
        hint (.object entries) = some app ∨ HasCounts (.object entries) := by
      rw [hint_iff happ, or_assoc]
      exact ⟨fun hclear => hclear rfl, fun hclear _ => hclear⟩
    rw [show Subject.hmAdjust = "hm.adjust" from rfl, hclear]
    obtain ⟨hcounts, hdroplet⟩ | ⟨hnone, hdroplet⟩ := droplet_of_hmAdjust happ h
    · exact ⟨iff_of_true hdroplet (.inr hcounts), fun hnot => absurd (.inr hcounts) hnot⟩
    · rw [hdroplet]
      refine ⟨by simp [hnone], fun hnot => ?_⟩
      cases hkey : (Json.object entries).get? "droplet" with
      | none => exact absurd (.inl ((hint_iff happ).2 (.inl hkey))) hnot
      | some j => exact hint_of_droplet hkey
  · have hok : decode "hm.autoscaling.request" (.object entries) = .ok (.queryAutoscaling app) :=
      decode_ok_iff.2 (.queryAutoscaling app hid)
    cases hok.symm.trans h

end Command

namespace Respondent

open Command

/-- What handling a payload makes known: the events, with their applications, kinds and messages. -/
def eventsOf (steps : List Step) : List (AppId × AppEventKind × String) :=
  (steps.filterMap Step.event?).map fun e => (e.appId, e.kind, e.message)

theorem event?_publish (w : World) (e : AppEvent) :
    (Step.act w (.publish Subject.appEvent (AppEvent.codec.write e))).event? = some e := by
  simp [Step.event?, AppEvent.codec_faithful e, Except.toOption]

theorem eventsOf_recordEvent {app : AppId} {kind : AppEventKind} {message : String} {steps : List Step}
    {u : Unit} (h : (Orders.recordEvent app kind message).Goes steps u) :
    eventsOf steps = [(app, kind, message)] := by
  obtain ⟨w, _, rfl, w', _, rfl, rfl, -⟩ := h
  have hclock : (Step.act w .wallClock).event? = none := rfl
  simp only [eventsOf, List.filterMap_cons, List.filterMap_nil, hclock]
  rw [event?_publish]
  rfl

variable {config : StagingConfig} {subject : String} {entries : List (String × Json)} {payload : Json}
  {app : AppId} {m : Malformed} {steps : List Step} {u : Unit}

theorem steady_rejected (h : decode subject payload = .error m) :
    (handle config subject payload).Steady := by
  simp only [handle, h]
  cases m.droplet with
  | none => exact Activity.steady_pure _
  | some app => exact Orders.steady_recordEvent _ _ _

/-- A rejected payload makes known one error of the application that the rejection names, if it names
one, and nothing else. -/
theorem eventsOf_rejected {o : Option Unit} (h : decode subject payload = .error m)
    (hends : (handle config subject payload).Ends steps o) :
    eventsOf steps = m.droplet.toList.map (·, .error, m.message) := by
  cases o with
  | none => exact absurd hends (steady_rejected h steps)
  | some u =>
    simp only [handle, h, Activity.ends_some] at hends
    cases hdroplet : m.droplet with
    | none =>
      rw [hdroplet] at hends
      obtain ⟨rfl, -⟩ := hends
      rfl
    | some app =>
      rw [hdroplet] at hends
      exact eventsOf_recordEvent hends

structure Blames (config : StagingConfig) (subject : String) (payload : Json) (app : AppId) : Prop where
  named : ∀ m, decode subject payload = .error m → m.droplet = some app
  told : ∀ m steps o, decode subject payload = .error m → (handle config subject payload).Ends steps o →
    eventsOf steps = [(app, .error, m.message)]

/-- A rejected payload is blamed on the application that it names, except where the number of instances
is to be changed, and there too unless something else is under `droplet` and the instances are no counts.
Then it is blamed on what is there if that is a text, and on nothing if not. -/
theorem rejected_blames_iff (config : StagingConfig) (hcommand : subject ∈ Subject.commands)
    (hid : (Json.object entries).get? (idKey subject) = some (.string app))
    (h : decode subject (.object entries) = .error m) :
    (Blames config subject (.object entries) app ↔ Clear subject (.object entries) app) ∧
    (¬ Clear subject (.object entries) app →
      m.droplet = ((Json.object entries).get? "droplet").bind Json.text?) ∧
    (∃ steps u, (handle config subject (.object entries)).Goes steps u) ∧
    ∀ steps o, (handle config subject (.object entries)).Ends steps o →
      eventsOf steps = m.droplet.toList.map (·, .error, m.message) := by
  obtain ⟨hiff, hother⟩ := droplet_iff hcommand hid h
  obtain ⟨steps, u, hgoes, -⟩ := (steady_rejected h : (handle config subject (.object entries)).Steady).exists_goes .empty
  refine ⟨⟨fun hblames => hiff.1 (hblames.named m h), fun hclear => ⟨fun m' h' => ?_, ?_⟩⟩, hother,
    ⟨steps, u, hgoes⟩, fun steps o hends => eventsOf_rejected h hends⟩
  · cases h.symm.trans h'
    exact hiff.2 hclear
  · intro m' steps o h' hends
    cases h.symm.trans h'
    rw [eventsOf_rejected h hends, hiff.2 hclear]
    rfl

def tornAdjust : List (String × Json) := [("app_id", .string "web")]

def tornAdjustSigned : List (String × Json) := [("app_id", .string "web"), ("droplet", .string "other")]

theorem rejected_blames_iff_web : Blames .default "hm.adjust" (.object tornAdjust) "web" :=
  (rejected_blames_iff .default (by decide) rfl (m := ⟨"hm.adjust", some "web", "missing field `instances`"⟩)
    rfl).1.2 fun _ => .inl rfl

theorem blames_other : ¬ ∀ (config : StagingConfig) (subject : String) (entries : List (String × Json))
    (app : AppId) (m : Malformed), subject ∈ Subject.commands →
    (Json.object entries).get? (idKey subject) = some (.string app) →
    decode subject (.object entries) = .error m → Blames config subject (.object entries) app := by
  intro h
  have hblames := h .default "hm.adjust" tornAdjustSigned "web"
    ⟨"hm.adjust", some "other", "missing field `instances`"⟩ (by decide) rfl rfl
  exact absurd (hblames.named _ rfl) (by decide)

end Respondent

end AppFleet
