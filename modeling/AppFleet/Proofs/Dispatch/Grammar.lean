import AppFleet.Proofs.Dispatch.Malformed
import AppFleet.Proofs.Json.Accepts

/-! The grammar of commands: which objects are commands on which subject, and what they say. -/

namespace AppFleet.Command

open Codec Fields

def counted (running : List (Version × UInt32)) : Json :=
  .object (running.map fun e => (e.1, Json.count e.2))

/-- How many instances of each generation the sender saw. -/
inductive Running (payload : Json) : List (Version × UInt32) → Prop where
  | absent (h : payload.get? "running" = none) : Running payload []
  | null (h : payload.get? "running" = some .null) : Running payload []
  | counts (running : List (Version × UInt32))
      (h : payload.get? "running" = some (counted running)) :
      Running payload running

inductive Says (payload : Json) : String → Command → Prop where
  | start (request : StartInstances)
      (hdroplet : payload.get? "droplet" = some (.string request.droplet))
      (hversion : payload.get? "version" = some (.string request.version))
      (hindices : payload.get? "indices" = some (.array (request.indices.map Json.count)))
      (hrunning : Running payload request.running) : Says payload "hm.start" (.start request)
  | stop (request : StopInstances)
      (hdroplet : payload.get? "droplet" = some (.string request.droplet))
      (hinstances : payload.get? "instances" =
        some (.object (request.instances.map fun e => (e.1, .string e.2))))
      (hrunning : Running payload request.running) : Says payload "hm.stop" (.stop request)
  | adjust (app : AppId) (counts : AdjustInstances)
      (happ : payload.get? "app_id" = some (.string app))
      (hcounts : payload.get? "instances" =
        some (.array [Json.count counts.before, Json.count counts.after])) :
      Says payload "hm.adjust" (.adjust app counts)
  | queryAutoscaling (app : AppId) (happ : payload.get? "app_id" = some (.string app)) :
      Says payload "hm.autoscaling.request" (.queryAutoscaling app)

def knownKeys (subject : String) : List String :=
  if subject = "hm.start" then ["droplet", "version", "indices", "running"]
  else if subject = "hm.stop" then ["droplet", "instances", "running"]
  else if subject = "hm.adjust" then ["app_id", "instances"]
  else if subject = "hm.autoscaling.request" then ["app_id"]
  else []

variable {subject : String} {entries : List (String × Json)} {payload : Json} {command : Command}

theorem running_iff {running : List (Version × UInt32)} :
    (∃ o : Option (List (Version × UInt32)), payload.Has "running" counted o ∧ o.getD [] = running) ↔
      Running payload running := by
  constructor
  · rintro ⟨_ | counts, h, rfl⟩
    · exact h.elim .absent .null
    · exact .counts counts h
  · rintro (h | h | ⟨counts, h⟩)
    · exact ⟨none, .inl h, rfl⟩
    · exact ⟨none, .inr h, rfl⟩
    · exact ⟨some running, h, rfl⟩

theorem readKeys_text (payload : Json) (name : String) {get : σ → Option String} (o : Option String) :
    (lenient name string get).readKeys (fun key => payload.get? key) = .ok o ↔
      payload.Has name .string o := readKeys_lenient_iff string_accepts nofun o

theorem readKeys_counts (payload : Json) (name : String) {get : σ → Option (List UInt32)}
    (o : Option (List UInt32)) :
    (lenient name (list uint32) get).readKeys (fun key => payload.get? key) = .ok o ↔
      payload.Has name (fun counts => .array (counts.map Json.count)) o :=
  readKeys_lenient_iff (list_accepts uint32_accepts) nofun o

theorem readKeys_running (payload : Json) {get : σ → Option (List (Version × UInt32))}
    (o : Option (List (Version × UInt32))) :
    (lenient "running" (map uint32) get).readKeys (fun key => payload.get? key) = .ok o ↔
      payload.Has "running" counted o := readKeys_lenient_iff (map_accepts uint32_accepts) nofun o

theorem read_rawStart_iff {raw : RawStart} : RawStart.codec.read (.object entries) = .ok raw ↔
    (Json.object entries).Has "droplet" .string raw.droplet ∧
    (Json.object entries).Has "version" .string raw.version ∧
    (Json.object entries).Has "indices" (fun indices => .array (indices.map Json.count)) raw.indices ∧
    (Json.object entries).Has "running" counted raw.running := by
  rw [RawStart.codec, read_record_iff]
  simp only [readKeys_seq_iff, readKeys_map_iff, readKeys_text, readKeys_counts, readKeys_running]
  constructor
  · rintro ⟨_, _, ⟨_, _, ⟨_, _, ⟨_, hdroplet, rfl⟩, hversion, rfl⟩, hindices, rfl⟩, hrunning, rfl⟩
    exact ⟨hdroplet, hversion, hindices, hrunning⟩
  · rintro ⟨hdroplet, hversion, hindices, hrunning⟩
    exact ⟨_, _, ⟨_, _, ⟨_, _, ⟨_, hdroplet, rfl⟩, hversion, rfl⟩, hindices, rfl⟩, hrunning, rfl⟩

theorem read_rawStop_iff {raw : RawStop} : RawStop.codec.read (.object entries) = .ok raw ↔
    (Json.object entries).Has "droplet" .string raw.droplet ∧
    (Json.object entries).Has "instances" (fun es => .object (es.map fun e => (e.1, .string e.2)))
      raw.instances ∧
    (Json.object entries).Has "running" counted raw.running := by
  have hinstances (o : Option (List (String × String))) :
      (lenient "instances" (map string) RawStop.instances).readKeys
        (fun key => (Json.object entries).get? key) = .ok o ↔ _ :=
    readKeys_lenient_iff (map_accepts string_accepts) nofun o
  rw [RawStop.codec, read_record_iff]
  simp only [readKeys_seq_iff, readKeys_map_iff, readKeys_text, hinstances, readKeys_running]
  constructor
  · rintro ⟨_, _, ⟨_, _, ⟨_, hdroplet, rfl⟩, hinstances, rfl⟩, hrunning, rfl⟩
    exact ⟨hdroplet, hinstances, hrunning⟩
  · rintro ⟨hdroplet, hinstances, hrunning⟩
    exact ⟨_, _, ⟨_, _, ⟨_, hdroplet, rfl⟩, hinstances, rfl⟩, hrunning, rfl⟩

theorem read_rawAdjust_iff {raw : RawAdjust} : RawAdjust.codec.read (.object entries) = .ok raw ↔
    (Json.object entries).Has "app_id" .string raw.appId ∧
    (Json.object entries).Has "instances" (fun counts => .array (counts.map Json.count))
      raw.instances := by
  rw [RawAdjust.codec, read_record_iff]
  simp only [readKeys_seq_iff, readKeys_map_iff, readKeys_text, readKeys_counts]
  constructor
  · rintro ⟨_, _, ⟨_, happ, rfl⟩, hinstances, rfl⟩
    exact ⟨happ, hinstances⟩
  · rintro ⟨happ, hinstances⟩
    exact ⟨_, _, ⟨_, happ, rfl⟩, hinstances, rfl⟩

theorem read_rawAppQuery_iff {raw : RawAppQuery} : RawAppQuery.codec.read (.object entries) = .ok raw ↔
    (Json.object entries).Has "app_id" .string raw.appId := by
  rw [RawAppQuery.codec, read_record_iff]
  simp only [readKeys_map_iff, readKeys_text]
  constructor
  · rintro ⟨_, happ, rfl⟩
    exact happ
  · intro happ
    exact ⟨_, happ, rfl⟩

theorem decode_hmStart_iff : decode "hm.start" payload = .ok command ↔
    ∃ raw, RawStart.codec.read payload = .ok raw ∧ ∃ droplet ∈ raw.droplet, ∃ version ∈ raw.version,
      ∃ indices ∈ raw.indices, command = .start ⟨droplet, version, indices, raw.running.getD []⟩ := by
  unfold decode
  simp only [Subject.hmStart, if_true, bind_ok_iff, mapError_ok_iff]
  refine exists_congr fun raw => and_congr_right fun _ => ?_
  cases raw.droplet <;> cases raw.version <;> cases raw.indices <;> simp [pure, Except.pure, eq_comm]

theorem decode_hmStop_iff : decode "hm.stop" payload = .ok command ↔
    ∃ raw, RawStop.codec.read payload = .ok raw ∧ ∃ droplet ∈ raw.droplet, ∃ instances ∈ raw.instances,
      command = .stop ⟨droplet, instances, raw.running.getD []⟩ := by
  have hne : ¬ "hm.stop" = Subject.hmStart := by decide
  unfold decode
  simp only [hne, if_false, Subject.hmStop, if_true, bind_ok_iff, mapError_ok_iff]
  refine exists_congr fun raw => and_congr_right fun _ => ?_
  cases raw.droplet <;> cases raw.instances <;> simp [pure, Except.pure, eq_comm]

theorem decode_hmAdjust_iff : decode "hm.adjust" payload = .ok command ↔
    ∃ raw, RawAdjust.codec.read payload = .ok raw ∧ ∃ app ∈ raw.appId, ∃ before after,
      raw.instances = some [before, after] ∧ command = .adjust app ⟨before, after⟩ := by
  have hne : ¬ "hm.adjust" = Subject.hmStart ∧ ¬ "hm.adjust" = Subject.hmStop := by decide
  unfold decode
  simp only [hne, if_false, Subject.hmAdjust, if_true, bind_ok_iff, mapError_ok_iff]
  refine exists_congr fun raw => and_congr_right fun _ => ?_
  rcases raw.appId with _ | app
  · simp
  · rcases raw.instances with _ | (_ | ⟨before, _ | ⟨after, _ | _⟩⟩)
    case some.cons.cons.nil => simp [pure, Except.pure, eq_comm]
    all_goals simp [throw, throwThe, MonadExceptOf.throw]

theorem decode_hmAutoscalingRequest_iff : decode "hm.autoscaling.request" payload = .ok command ↔
    ∃ raw, RawAppQuery.codec.read payload = .ok raw ∧ ∃ app ∈ raw.appId,
      command = .queryAutoscaling app := by
  have hne : ¬ "hm.autoscaling.request" = Subject.hmStart ∧
      ¬ "hm.autoscaling.request" = Subject.hmStop ∧
      ¬ "hm.autoscaling.request" = Subject.hmAdjust := by decide
  unfold decode
  simp only [hne, if_false, Subject.hmAutoscalingRequest, if_true, bind_ok_iff, mapError_ok_iff]
  refine exists_congr fun raw => and_congr_right fun _ => ?_
  cases raw.appId <;> simp [pure, Except.pure, eq_comm]

/-- An object is read as a command if it says so, and as no other. -/
theorem decode_ok_iff : decode subject (.object entries) = .ok command ↔
    Says (.object entries) subject command := by
  constructor
  · intro h
    have hsubject := Inbound.commands_of_decode (e := ⟨subject, .object entries, none⟩) h
    simp only [Subject.commands, List.mem_cons, List.not_mem_nil, or_false] at hsubject
    obtain rfl | rfl | rfl | rfl := hsubject
    · obtain ⟨raw, hraw, droplet, hd, version, hv, indices, hi, rfl⟩ := decode_hmStart_iff.1 h
      obtain ⟨hdroplet, hversion, hindices, hrunning⟩ := read_rawStart_iff.1 hraw
      rw [hd] at hdroplet
      rw [hv] at hversion
      rw [hi] at hindices
      exact .start _ hdroplet hversion hindices (running_iff.1 ⟨_, hrunning, rfl⟩)
    · obtain ⟨raw, hraw, droplet, hd, instances, hi, rfl⟩ := decode_hmStop_iff.1 h
      obtain ⟨hdroplet, hinstances, hrunning⟩ := read_rawStop_iff.1 hraw
      rw [hd] at hdroplet
      rw [hi] at hinstances
      exact .stop _ hdroplet hinstances (running_iff.1 ⟨_, hrunning, rfl⟩)
    · obtain ⟨raw, hraw, app, ha, before, after, hi, rfl⟩ := decode_hmAdjust_iff.1 h
      obtain ⟨happ, hinstances⟩ := read_rawAdjust_iff.1 hraw
      rw [ha] at happ
      rw [hi] at hinstances
      exact .adjust app _ happ hinstances
    · obtain ⟨raw, hraw, app, ha, rfl⟩ := decode_hmAutoscalingRequest_iff.1 h
      have happ := read_rawAppQuery_iff.1 hraw
      rw [ha] at happ
      exact .queryAutoscaling app happ
  · rintro (⟨request, hdroplet, hversion, hindices, hrunning⟩ | ⟨request, hdroplet, hinstances, hrunning⟩ |
      ⟨app, counts, happ, hcounts⟩ | ⟨app, happ⟩)
    · obtain ⟨running, hrunning, hvalue⟩ := running_iff.2 hrunning
      refine decode_hmStart_iff.2 ⟨⟨some request.droplet, some request.version, some request.indices,
        running⟩, read_rawStart_iff.2 ⟨hdroplet, hversion, hindices, hrunning⟩, _, rfl, _, rfl, _, rfl, ?_⟩
      rw [hvalue]
    · obtain ⟨running, hrunning, hvalue⟩ := running_iff.2 hrunning
      refine decode_hmStop_iff.2 ⟨⟨some request.droplet, some request.instances, running⟩,
        read_rawStop_iff.2 ⟨hdroplet, hinstances, hrunning⟩, _, rfl, _, rfl, ?_⟩
      rw [hvalue]
    · exact decode_hmAdjust_iff.2 ⟨⟨some app, some [counts.before, counts.after]⟩,
        read_rawAdjust_iff.2 ⟨happ, hcounts⟩, _, rfl, _, _, rfl, rfl⟩
    · exact decode_hmAutoscalingRequest_iff.2 ⟨⟨some app⟩, read_rawAppQuery_iff.2 happ, _, rfl, rfl⟩

variable {payload' : Json}

theorem Running.of_same (h : payload.get? "running" = payload'.get? "running")
    {running : List (Version × UInt32)} (hrunning : Running payload running) :
    Running payload' running := by
  cases hrunning with
  | absent hkey => exact .absent (h ▸ hkey)
  | null hkey => exact .null (h ▸ hkey)
  | counts running hkey => exact .counts running (h ▸ hkey)

/-- What a payload says is in the known keys. -/
theorem Says.of_same (h : ∀ key ∈ knownKeys subject, payload.get? key = payload'.get? key)
    (hsaid : Says payload subject command) : Says payload' subject command := by
  cases hsaid with
  | start request hdroplet hversion hindices hrunning =>
    exact .start request (h "droplet" (by decide) ▸ hdroplet) (h "version" (by decide) ▸ hversion)
      (h "indices" (by decide) ▸ hindices) (hrunning.of_same (h "running" (by decide)))
  | stop request hdroplet hinstances hrunning =>
    exact .stop request (h "droplet" (by decide) ▸ hdroplet) (h "instances" (by decide) ▸ hinstances)
      (hrunning.of_same (h "running" (by decide)))
  | adjust app counts happ hcounts =>
    exact .adjust app counts (h "app_id" (by decide) ▸ happ) (h "instances" (by decide) ▸ hcounts)
  | queryAutoscaling app happ => exact .queryAutoscaling app (h "app_id" (by decide) ▸ happ)

/-- Objects are commands exactly as the grammar has it, and say just what is in them; keys that are not
known on the subject do not count, and on no other subject there are commands. -/
theorem decode_grammar (subject : String) (entries others : List (String × Json)) :
    (∀ command, decode subject (.object entries) = .ok command ↔
      Says (.object entries) subject command) ∧
    ((∀ key ∈ knownKeys subject, (Json.object entries).get? key = (Json.object others).get? key) →
      ∀ command, decode subject (.object entries) = .ok command ↔
        decode subject (.object others) = .ok command) ∧
    (subject ∉ ["hm.start", "hm.stop", "hm.adjust", "hm.autoscaling.request"] →
      ∃ m, decode subject (.object entries) = .error m) := by
  refine ⟨fun _ => decode_ok_iff, fun h command => ?_, fun h => ?_⟩
  · rw [decode_ok_iff, decode_ok_iff]
    exact ⟨.of_same h, .of_same fun key hkey => (h key hkey).symm⟩
  · cases hdecode : decode subject (.object entries) with
    | error m => exact ⟨m, rfl⟩
    | ok command =>
      have hsubject := Inbound.commands_of_decode (e := ⟨subject, .object entries, none⟩) hdecode
      exact absurd hsubject h

def webTwo : List (String × Json) :=
  [("droplet", .string "web"), ("indices", .array [Json.count 0, Json.count 2]), ("version", .string "v1")]

def webTwoSigned : List (String × Json) := ("app_id", .string "other") :: webTwo

theorem decode_grammar_web :
    decode "hm.start" (.object webTwoSigned) = .ok (.start ⟨"web", "v1", [0, 2], []⟩) ∧
    ∃ m, decode "hm.health" (.object webTwo) = .error m := by
  obtain ⟨hsaid, hknown, -⟩ := decode_grammar "hm.start" webTwo webTwoSigned
  obtain ⟨-, -, hother⟩ := decode_grammar "hm.health" webTwo webTwo
  have hstart : decode "hm.start" (.object webTwo) = .ok (.start ⟨"web", "v1", [0, 2], []⟩) :=
    (hsaid _).2 (.start _ rfl rfl rfl (.absent rfl))
  exact ⟨(hknown (by decide +kernel) _).1 hstart, hother (by decide)⟩

end AppFleet.Command
