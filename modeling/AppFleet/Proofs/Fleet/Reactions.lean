import AppFleet.Proofs.Fleet.Changes

/-! What becomes of an application while a reaction to it is under way. Staging may take long, and
nobody looks again when it is over: a start goes out, and a verdict is recorded, for the application
that the call wrote. So either is right exactly if what the owner ordered meanwhile was taken back. -/

namespace AppFleet

open Fleet

variable {config : Config} {w : World} {es : List Event} {i : Nat} {t : Task}

/-- An application is stopped and started by its owner's calls alone. -/
theorem isStarted_orderedBy (app : AppId) :
    OrderedBy (fun a => a.isStarted) app (·.Stops app) (·.Starts app) := by
  have horder {a b : Application} (h : b.desired = a.desired) : b.isStarted = a.isStarted := by
    simp [Application.isStarted, h]
  have hkeeps {a b : Application} {u : Update} (hb : a.apply u = .ok b) (hu : u.state = none) :
      b.isStarted = a.isStarted := horder (by simp [Application.apply_desired hb, hu])
  have hsets {a b : Application} {u : Update} {d : DesiredState} (hb : a.apply u = .ok b)
      (hu : u.state = some d) : b.isStarted ↔ d = .started := by
    simp [Application.isStarted, Application.apply_desired hb, hu]
  constructor
  · refine ⟨fun a b h => by simp [horder h.desired], fun a hid ha => ⟨hid, ?_⟩,
      fun u a b ha hb hnot => ?_, fun _ => rfl⟩
    · cases hd : a.desired <;> simp [Application.isStarted, Application.isStopped, hd] at ha ⊢
    · refine ⟨rfl, ?_⟩
      cases hu : u.state with
      | none =>
        rw [is_some, hkeeps hb hu] at hnot
        exact absurd (is_some.not.2 hnot) ha
      | some d =>
        rw [is_some, hsets hb hu] at hnot
        cases d with
        | started => exact absurd rfl hnot
        | stopped => rfl
  · refine ⟨fun a b h => by simp [horder h.desired], fun a hid ha => ⟨hid, is_some.1 ha⟩,
      fun u a b ha hb hnow => ?_, fun h => absurd h is_none⟩
    refine ⟨rfl, ?_⟩
    cases hu : u.state with
    | none =>
      rw [is_some, hkeeps hb hu] at hnow
      exact absurd (is_some.2 hnow) ha
    | some d =>
      rw [is_some, hsets hb hu] at hnow
      rw [hnow]

theorem packageHash_orderedBy (app : AppId) (bits : Option String) :
    OrderedBy (fun a => a.packageHash = bits) app (·.TakesBits app bits) (·.GivesBits app bits) := by
  have happly {a b : Application} {u : Update} (hb : a.apply u = .ok b) :
      b.packageHash = u.packageHash.or a.packageHash := Application.apply_packageHash hb
  constructor
  · refine ⟨fun a b h => by simp [h.packageHash], fun a hid ha => ⟨hid, by simpa using ha⟩,
      fun u a b ha hb hnot => ?_, fun _ => rfl⟩
    simp only [is_some, not_not, happly hb] at ha hnot
    refine ⟨rfl, ?_⟩
    cases hu : u.packageHash with
    | none => simp [hu, ha] at hnot
    | some hash => exact ⟨hash, rfl, by simpa [hu] using hnot⟩
  · refine ⟨fun a b h => by simp [h.packageHash], fun a hid ha => ⟨hid, is_some.1 ha⟩,
      fun u a b ha hb hnow => ?_, fun h => absurd h is_none⟩
    simp only [is_some, happly hb] at ha hnow
    refine ⟨rfl, ?_⟩
    cases hu : u.packageHash with
    | none => simp [hu, ha] at hnow
    | some hash => exact ⟨rfl, by simpa [hu] using hnow⟩

/-- Whatever starts an application as a reaction to a change, the call behind it stored the
application as started. It is started still exactly if every call of its owner that stopped it since
was followed by one that started it. -/
theorem start_started_iff (hw : w.store.apps.Holds fun _ => True) {c : Call}
    (hc : (run config (start w) es).call? i = some c) (hrelays : ¬ c.RelaysStarts) {payload : Json}
    (hnext : (run config (start w) es).next? i = some (.publish Subject.nodeStart payload)) :
    ∃ cmd k, payload = RunCommand.codec.write cmd ∧ k < es.length ∧ es[k]? = some (.turn i) ∧
      AppIs config w es (k + 1) cmd.appId (fun a => a.isStarted) ∧ ¬ c.Stops cmd.appId ∧
      ((∃ a, (run config (start w) es).apps.get? cmd.appId = some a ∧ a.isStarted) ↔
        MadeGood config w es (k + 1) cmd.appId (fun a => a.isStarted) (·.Stops cmd.appId)
          (·.Starts cmd.appId)) := by
  obtain ⟨t, ht, rfl⟩ := Option.map_eq_some_iff.1 hc
  obtain ⟨t', ht', haction⟩ := Option.bind_eq_some_iff.1 hnext
  cases ht.symm.trans ht'
  obtain ⟨g, hrecorded, hobeys⟩ := run_obeys hw es ht
  obtain ⟨cmd, a, hpayload, hfirst, hstarted, hid, hstops⟩ :=
    ((hobeys.allows haction).2.1 payload rfl).resolve_left hrelays
  obtain ⟨k, hk, hturn, hstored⟩ := hrecorded.first a hfirst
  rw [hid] at hstored hstops
  have hwas : AppIs config w es (k + 1) cmd.appId (fun a => a.isStarted) := ⟨a, hstored, hstarted⟩
  have hnow := appIs_iff_madeGood (isStarted_orderedBy cmd.appId) hw hk hwas
  rw [AppIs, appAt, List.take_length] at hnow
  exact ⟨cmd, k, hpayload, hk, hturn, hwas, hstops, hnow⟩

def Application.web : Application := Operation.run (.new "web" "web")
  [.apply { Update.empty with state := some .started, packageHash := some "bits-1" }]

/-- An application is created and staged, and its owner orders something else before the stager
answers. -/
def Fleet.orderWhileStaging (u : Update) : List Event :=
  [.call (.create .web), .turn 0, .turn 0, .turn 0, .call (.update "web" u), .turn 1,
    .deliver ⟨Subject.inbox 0, StageReply.codec.write (.staged ⟨0, none, none⟩), none⟩, .turn 0]

def Fleet.stopWhileStaging : List Event :=
  orderWhileStaging { Update.empty with state := some .stopped } ++ [.turn 0]

theorem next_stopWhileStaging :
    (run .default (start (.initial 0 0 0)) stopWhileStaging).next? 0 =
      some (.publish Subject.nodeStart (RunCommand.codec.write (.ofApp .web))) := rfl

theorem start_started_iff_web :
    ∃ cmd k, RunCommand.codec.write (.ofApp .web) = RunCommand.codec.write cmd ∧
      stopWhileStaging[k]? = some (.turn 0) ∧
      ((∃ a, (run .default (start (.initial 0 0 0)) stopWhileStaging).apps.get? cmd.appId = some a ∧
        a.isStarted) ↔ MadeGood .default (.initial 0 0 0) stopWhileStaging (k + 1) cmd.appId
          (fun a => a.isStarted) (·.Stops cmd.appId) (·.Starts cmd.appId)) := by
  have hc : (run .default (start (.initial 0 0 0)) stopWhileStaging).call? 0 =
      some (.create .web) := rfl
  obtain ⟨cmd, k, hcmd, -, hk, -, -, hiff⟩ :=
    start_started_iff (Table.holds_empty _) hc not_false next_stopWhileStaging
  exact ⟨cmd, k, hcmd, hk, hiff⟩

theorem starts_stopped : ¬ ∀ (config : Config) (w : World) (es : List Event) (i : Nat) (c : Call)
    (cmd : RunCommand), w.store.apps.Holds (fun _ => True) →
    (run config (start w) es).call? i = some c → ¬ c.RelaysStarts →
    (run config (start w) es).next? i =
      some (.publish Subject.nodeStart (RunCommand.codec.write cmd)) →
    ∃ a, (run config (start w) es).apps.get? cmd.appId = some a ∧ a.isStarted := by
  intro h
  have hc : (run .default (start (.initial 0 0 0)) stopWhileStaging).call? 0 =
      some (.create .web) := rfl
  obtain ⟨a, ha, hstarted⟩ :=
    h .default (.initial 0 0 0) stopWhileStaging 0 _ _ (Table.holds_empty _) hc not_false
      next_stopWhileStaging
  have hstopped : ((run .default (start (.initial 0 0 0)) stopWhileStaging).apps.get?
      (RunCommand.ofApp .web).appId).map (·.isStarted) = some false := rfl
  rw [ha, Option.map_some, hstarted] at hstopped
  cases hstopped

/-- A verdict answers the question about the application that the call behind it stored. It is a
verdict on the bits of the stored application exactly if every call of its owner that took those since
was followed by one that gave them back. -/
theorem verdict_bits_iff (hw : w.store.apps.Holds fun _ => True) {c : Call}
    (hc : (run config (start w) es).call? i = some c) {app : AppId}
    {mark : Application → Except Fault Application} (hmark : IsVerdict mark)
    (hnext : (run config (start w) es).next? i = some (.changeApp app mark))
    {before : Application} (hbefore : (run config (start w) es).apps.get? app = some before) :
    ∃ (request : StageRequest) (k : Nat), (run config (start w) es).asked? i = some (.single
        Subject.stagerStage (StageRequest.codec.write request) config.staging.stageMs) ∧
      request.appId = app ∧ k < es.length ∧ es[k]? = some (.turn i) ∧
      AppIs config w es (k + 1) app (fun a => a.packageHash = request.packageHash) ∧
      ¬ c.TakesBits app request.packageHash ∧
      (before.packageHash = request.packageHash ↔
        MadeGood config w es (k + 1) app (fun a => a.packageHash = request.packageHash)
          (·.TakesBits app request.packageHash) (·.GivesBits app request.packageHash)) := by
  obtain ⟨t, ht, rfl⟩ := Option.map_eq_some_iff.1 hc
  obtain ⟨t', ht', haction⟩ := Option.bind_eq_some_iff.1 hnext
  cases ht.symm.trans ht'
  obtain ⟨g, hrecorded, hobeys⟩ := run_obeys hw es ht
  obtain ⟨a, hwrote, hid, hasked⟩ := (hobeys.allows haction).2.2 app mark rfl hmark
  obtain ⟨k, hk, hturn, hstored⟩ := hrecorded.first a (by simp [hwrote.stored])
  have hbits := hwrote.bits
  rw [hid] at hstored hbits
  have hwas : AppIs config w es (k + 1) app (fun b => b.packageHash = a.packageHash) :=
    ⟨a, hstored, rfl⟩
  have hnow := appIs_iff_madeGood (packageHash_orderedBy app a.packageHash) hw hk hwas
  rw [AppIs, appAt, List.take_length, hbefore, is_some] at hnow
  refine ⟨.ofApp a, k, ?_, hid, hk, hturn, hwas, hbits, hnow⟩
  rw [asked?, ht]
  exact hrecorded.asked.trans hasked

def Fleet.uploadWhileStaging : List Event :=
  orderWhileStaging { Update.empty with packageHash := some "bits-2" }

theorem next_uploadWhileStaging :
    (run .default (start (.initial 0 0 0)) uploadWhileStaging).next? 0 =
      some (.changeApp "web" (·.markStaged ⟨0, none, none⟩)) := rfl

theorem apps_uploadWhileStaging :
    (run .default (start (.initial 0 0 0)) uploadWhileStaging).apps.get? "web" =
      some { Application.web with packageHash := some "bits-2" } := rfl

theorem verdict_bits_iff_web :
    ∃ (request : StageRequest) (k : Nat), request.appId = "web" ∧
      uploadWhileStaging[k]? = some (.turn 0) ∧
      (some "bits-2" = request.packageHash ↔ MadeGood .default (.initial 0 0 0) uploadWhileStaging
        (k + 1) "web" (fun a => a.packageHash = request.packageHash)
        (·.TakesBits "web" request.packageHash) (·.GivesBits "web" request.packageHash)) := by
  have hc : (run .default (start (.initial 0 0 0)) uploadWhileStaging).call? 0 =
      some (.create .web) := rfl
  obtain ⟨request, k, -, hid, -, hk, -, -, hiff⟩ := verdict_bits_iff (Table.holds_empty _) hc
    (.staged _) next_uploadWhileStaging apps_uploadWhileStaging
  exact ⟨request, k, hid, hk, hiff⟩

theorem verdict_on_other_bits : ¬ ∀ (config : Config) (w : World) (es : List Event) (i : Nat)
    (app : AppId) (mark : Application → Except Fault Application) (before made : Application)
    (request : StageRequest), w.store.apps.Holds (fun _ => True) → IsVerdict mark →
    (run config (start w) es).next? i = some (.changeApp app mark) →
    (run config (start w) es).apps.get? app = some before → mark before = .ok made →
    (run config (start w) es).asked? i = some (.single Subject.stagerStage
      (StageRequest.codec.write request) config.staging.stageMs) →
    before.packageHash = request.packageHash := by
  intro h
  have hasked : (run .default (start (.initial 0 0 0)) uploadWhileStaging).asked? 0 =
      some (.single Subject.stagerStage (StageRequest.codec.write (.ofApp .web))
        Config.default.staging.stageMs) := rfl
  have hsame := h .default (.initial 0 0 0) uploadWhileStaging 0 _ _ _ _ _ (Table.holds_empty _)
    (.staged _) next_uploadWhileStaging apps_uploadWhileStaging rfl hasked
  have hbits : (some "bits-2" : Option String) = some "bits-1" := hsame
  simp at hbits

end AppFleet
