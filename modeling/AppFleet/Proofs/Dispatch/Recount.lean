import AppFleet.Proofs.Activity.LeftAlone
import AppFleet.Proofs.Application.Instances
import AppFleet.Proofs.Dispatch.Told

/-! What is made of a change of the count alone while nobody else acts. The nodes of a started application
are told once to run that many, nobody is told to start, stop or stage anything, and of what is stored
only pending routes become no longer pending. -/

namespace AppFleet

/-- The subjects on which the running of instances is ordered. -/
def Subject.orders : List String := [stagerStage, nodeStart, nodeStop, nodeScale]

def Application.recounted (a : Application) (count : UInt32) (updatedAt : UInt64) : Application :=
  { a with instances := count, updatedAt }

namespace World

structure Tells (w : World) (news : List Sent) (w' : World) : Prop where
  store : w'.store = w.store
  scaleUps : w'.scaleUps = w.scaleUps
  refused : w'.link.refused = w.link.refused
  sent : w'.link.sent = w.link.sent ++ news

structure Puts (w : World) (a : Application) (w' : World) : Prop where
  self : w'.store.apps.get? a.id = some a
  others : ∀ id, id ≠ a.id → w'.store.apps.get? id = w.store.apps.get? id
  scaleUps : w'.scaleUps = w.scaleUps
  link : w'.link = w.link

/-- The application is as it was, but that its routes may be pending no longer; nothing else stored was
touched, and the running of instances was ordered by these messages. -/
structure Redispatches (w : World) (a : Application) (orders : List Sent) (w' : World) : Prop where
  self : ∃ pending updatedAt, w'.store.apps.get? a.id =
    some { a with routesPending := pending, updatedAt } ∧ (pending = a.routesPending ∨ a.routesPending)
  others : ∀ id, id ≠ a.id → w'.store.apps.get? id = w.store.apps.get? id
  scaleUps : w'.scaleUps = w.scaleUps
  sent : ∃ news, w'.link.sent = w.link.sent ++ news ∧ news.filter (·.subject ∈ Subject.orders) = orders

variable {w w' w'' : World} {a : Application} {news later orders : List Sent}

theorem Tells.refl (w : World) : w.Tells [] w := ⟨rfl, rfl, rfl, by simp⟩

theorem Tells.trans (h : w.Tells news w') (h' : w'.Tells later w'') : w.Tells (news ++ later) w'' :=
  ⟨h'.store.trans h.store, h'.scaleUps.trans h.scaleUps, h'.refused.trans h.refused,
    by rw [h'.sent, h.sent, List.append_assoc]⟩

theorem Tells.redispatches (h : w.Tells news w') (ha : w.store.apps.get? a.id = some a) :
    w.Redispatches a (news.filter (·.subject ∈ Subject.orders)) w' where
  self := ⟨a.routesPending, a.updatedAt, by rw [h.store]; exact ha, .inl rfl⟩
  others id _ := by rw [h.store]
  scaleUps := h.scaleUps
  sent := ⟨news, h.sent, rfl⟩

theorem Tells.then (h : w.Tells news w') (h' : w'.Redispatches a orders w'') :
    w.Redispatches a (news.filter (·.subject ∈ Subject.orders) ++ orders) w'' where
  self := h'.self
  others id hid := by rw [h'.others id hid, h.store]
  scaleUps := h'.scaleUps.trans h.scaleUps
  sent := by
    obtain ⟨more, hsent, horders⟩ := h'.sent
    exact ⟨news ++ more, by rw [hsent, h.sent, List.append_assoc], by rw [List.filter_append, horders]⟩

theorem Redispatches.recounts {count : UInt32} {updatedAt : UInt64}
    (h : w.Redispatches (a.recounted count updatedAt) orders w') :
    ∃ b, w'.store.apps.get? a.id = some b ∧ a.Recounts count b := by
  obtain ⟨pending, stamp, hself, hpending⟩ := h.self
  exact ⟨_, hself, rfl, hpending⟩

end World

namespace Diff

variable {a : Application} {count : UInt32}

/-- Another count of a started application calls for scaling, and of a stopped one for nothing. -/
theorem classify_recounted (h : count ≠ a.instances) (updatedAt : UInt64) :
    (updated a (a.recounted count updatedAt)).classify = if a.isStarted then some .scale else none := by
  have hs : (a.recounted count updatedAt).isStarted = a.isStarted := rfl
  simp [classify, updated, desiredChanged, instancesChanged, versionChanged, packageChanged,
    scalingChanged, differs, hs]
  simp [Application.recounted, Ne.symm h]

/-- A change of the count alone stages nothing. -/
theorem not_stages_of_recount {b : Application}
    (hb : b = { a with instances := b.instances, updatedAt := b.updatedAt }) :
    (updated a b).classify ≠ some .start ∧ (updated a b).classify ≠ some .rollout := by
  have hd : b.desired = a.desired := by rw [hb]
  have hv : b.version = a.version := by rw [hb]
  have hp : (b.packageHash, b.dropletHash) = (a.packageHash, a.dropletHash) := by rw [hb]
  simp only [classify, updated, desiredChanged, versionChanged, packageChanged, differs, hd, hv, hp]
  grind

end Diff

theorem Activity.leads_recount {w m : World} {steps : List Step} {a : Application} {count : UInt32}
    {change : Application → Except Fault Application} {answer : Except Rejection (Option Diff)}
    (hstored : w.store.apps.get? a.id = some a) (hchange : change a = .ok { a with instances := count })
    (hne : count ≠ a.instances) (h : (changeApp a.id change).Leads w steps answer m) :
    ∃ found, w.Later found ∧ steps = [.act found (.changeApp a.id change)] ∧
      answer = .ok (some (.updated a (a.recounted count found.wallClock))) ∧
      w.Puts (a.recounted count found.wallClock) m := by
  obtain ⟨found, hfound, rfl, hanswer, rfl⟩ := (leads_changeApp _).1 h
  have hstored' : found.store.apps.get? a.id = some a := by rw [hfound.store]; exact hstored
  have hdiffers : { a with instances := count } ≠ a :=
    fun heq => hne (congrArg Application.instances heq)
  have hchanged := found.store.changeApp_of_ne found.wallClock hstored' hchange hdiffers
  simp only [World.perform, hchanged] at hanswer ⊢
  refine ⟨found, hfound, rfl, ?_, Table.get?_put_self _ _ _, fun id hid => ?_, hfound.scaleUps,
    hfound.link⟩
  · cases answer <;> cases hanswer
    rfl
  · rw [← hfound.store]
    exact Table.get?_put_of_ne _ _ hid

namespace Dispatch

open Activity

variable {config : StagingConfig} {w w' : World} {steps : List Step} {a : Application}

/-- What is made of a change of the count alone is never a panic. -/
theorem steady_recount (config : StagingConfig) {app : AppId} {change : Application → Except Fault Application}
    {f : Except Rejection (Option Diff) → Activity β} (hover : ∀ a, change a ≠ .error .overflow)
    (hchange : ∀ a b, change a = .ok b → b = { a with instances := b.instances })
    (hrejected : ∀ r, (f (.error r)).Steady) (hmissing : (f (.ok none)).Steady)
    (hchanged : ∀ diff, (observe config diff).Steady → (f (.ok (some diff))).Steady) :
    (changeApp app change >>= f).Steady := by
  refine (steady_changeApp hover).bind fun own answer hown => ?_
  match answer, hown with
  | .error r, _ => exact hrejected r
  | .ok none, _ => exact hmissing
  | .ok (some diff), hown =>
    refine hchanged diff fun steps h => ?_
    obtain ⟨w, -, hanswer⟩ := (goes_changeApp _).1 hown
    obtain ⟨reaction, a, hclass, hr, -⟩ := dispatch_breaks (observe_panics_iff.1 h)
    rcases w.store.changeApp_cases w.wallClock app change with ⟨_, e, -, -, heq⟩ | ⟨-, heq⟩ |
      ⟨before, made, after, -, hmade, hstamp, heq, -⟩
    · cases (congrArg Prod.fst heq).symm.trans hanswer
    · cases (congrArg Prod.fst heq).symm.trans hanswer
    · cases heq.symm.trans hanswer
      have hcounts : after = { before with instances := after.instances, updatedAt := after.updatedAt } := by
        rw [hstamp, hchange before made hmade]
      obtain ⟨hstart, hrollout⟩ := Diff.not_stages_of_recount hcounts
      rcases hr with rfl | rfl
      · exact hstart hclass
      · exact hrollout hclass

/-- The message that one sends who publishes in this world. -/
def note (w : World) (subject : String) (payload : Json) : Sent :=
  ⟨subject, payload, none, subject ∈ w.link.refused⟩

theorem leads_publish {subject : String} {payload : Json} {answer : Except BusError Unit}
    (h : (publish subject payload).Leads w steps answer w') :
    w.Tells [note w subject payload] w' := by
  obtain ⟨found, hfound, -, -, rfl⟩ := (leads_perform _ _).1 h
  rw [hfound]
  refine ⟨rfl, rfl, ?_, ?_⟩ <;> simp only [World.perform, Link.publish] <;> split <;> rfl

theorem scale_leads {outcome : Except ReactionError Unit} (h : (scale a).Leads w steps outcome w') :
    ∃ news, w.Tells news w' ∧ news.filter (·.subject ∈ Subject.orders) =
      [note w Subject.nodeScale (RunCommand.codec.write (.ofApp a))] := by
  obtain ⟨own, rest, answer, m, rfl, hown, hrest⟩ := (leads_bind _ _ _).1 h
  have hscaled := leads_publish hown
  cases answer with
  | error cause =>
    obtain ⟨-, -, rfl⟩ := (leads_pure _ _).1 hrest
    exact ⟨_, hscaled, rfl⟩
  | ok u =>
    obtain ⟨answer, hgoes, -⟩ := (leads_bind_pure _ _ _).1 hrest
    exact ⟨_, hscaled.trans (leads_publish hgoes), rfl⟩

theorem pushRoutes_leads (ha : w.store.apps.get? a.id = some a) (hpending : a.routesPending) {u : Unit}
    (h : (pushRoutes a).Leads w steps u w') : w.Redispatches a [] w' := by
  obtain ⟨own, rest, answer, m, rfl, hown, hrest⟩ := (leads_bind _ _ _).1 h
  have htold := leads_publish hown
  cases answer with
  | error cause =>
    obtain ⟨-, -, rfl⟩ := (leads_pure _ _).1 hrest
    exact htold.redispatches ha
  | ok _ =>
    obtain ⟨answer, hgoes, -⟩ := (leads_bind_pure _ _ _).1 hrest
    obtain ⟨found, hfound, -, -, rfl⟩ := (leads_changeApp _).1 hgoes
    have hstore : found.store = w.store := hfound.store.trans htold.store
    have hstored : found.store.apps.get? a.id = some a := by rw [hstore]; exact ha
    have hne : a.routesPushed ≠ a := by
      intro h
      have := congrArg Application.routesPending h
      simp [Application.routesPushed, hpending] at this
    have hchanged : found.store.changeApp found.wallClock a.id (fun stored => .ok stored.routesPushed) =
        _ := found.store.changeApp_of_ne found.wallClock hstored rfl hne
    simp only [World.perform, hchanged]
    refine ⟨⟨false, found.wallClock, Table.get?_put_self _ _ _, .inr hpending⟩, ?_, ?_, ?_⟩
    · intro id hid
      rw [← hstore]
      exact Table.get?_put_of_ne _ _ hid
    · exact hfound.scaleUps.trans htold.scaleUps
    · exact ⟨_, by rw [hfound.link]; exact htold.sent, rfl⟩

theorem pushPending_leads (ha : w.store.apps.get? a.id = some a) {recorded next : Option Diff}
    (h : Activity.Leads (do
      if a.routesPending then pushRoutes a
      return recorded) w steps next w') : w.Redispatches a [] w' ∧ next = recorded := by
  split at h
  · obtain ⟨u, hpushed, rfl⟩ := (leads_bind_pure _ _ _).1 h
    exact ⟨pushRoutes_leads ha ‹_› hpushed, rfl⟩
  · obtain ⟨-, rfl, rfl⟩ := (leads_pure _ _).1 h
    exact ⟨(World.Tells.refl _).redispatches ha, rfl⟩

theorem dispatch_recounted {count : UInt32} {updatedAt : UInt64} {next : Option Diff}
    (hne : count ≠ a.instances) (hstored : w.store.apps.get? a.id = some (a.recounted count updatedAt))
    (h : (dispatch config (.updated a (a.recounted count updatedAt))).Leads w steps next w') :
    next = none ∧ w.Redispatches (a.recounted count updatedAt)
      (if a.isStarted then
        [note w Subject.nodeScale (RunCommand.codec.write (.ofApp (a.recounted count updatedAt)))]
      else []) w' := by
  have hclass := Diff.classify_recounted hne updatedAt
  unfold dispatch at h
  by_cases hs : a.isStarted
  · simp only [hs, if_true] at hclass ⊢
    simp only [hclass] at h
    obtain ⟨own, rest, outcome, m, rfl, hown, hrest⟩ := (leads_bind _ _ _).1 h
    obtain ⟨answer, hscale, rfl⟩ := (leads_bind_pure _ _ _).1 hown
    obtain ⟨news, htold, horders⟩ := scale_leads hscale
    obtain ⟨hpushed, rfl⟩ := pushPending_leads (by rw [htold.store]; exact hstored) hrest
    refine ⟨by cases answer <;> rfl, ?_⟩
    simpa [horders] using htold.then hpushed
  · simp only [hs] at hclass ⊢
    simp only [hclass] at h
    obtain ⟨hpushed, rfl⟩ := pushPending_leads hstored h
    exact ⟨rfl, hpushed⟩

theorem observe_recounted {count : UInt32} {updatedAt : UInt64} {reaction : Option Reaction}
    (hne : count ≠ a.instances) (hstored : w.store.apps.get? a.id = some (a.recounted count updatedAt))
    (h : (observe config (.updated a (a.recounted count updatedAt))).Leads w steps reaction w') :
    w.Redispatches (a.recounted count updatedAt)
      (if a.isStarted then
        [note w Subject.nodeScale (RunCommand.codec.write (.ofApp (a.recounted count updatedAt)))]
      else []) w' := by
  obtain ⟨own, rest, next, m, rfl, hown, hrest⟩ := (leads_bind _ _ _).1 h
  obtain ⟨rfl, hdispatched⟩ := dispatch_recounted hne hstored hown
  obtain ⟨-, -, rfl⟩ := (leads_pure _ _).1 hrest
  exact hdispatched

end Dispatch

/-- A started application of two instances that scales itself to no more than `most`. Its route is not
pushed yet. -/
def Application.bounded (most : UInt32) : Application :=
  Operation.run (.new "web" "web") [.apply { Update.ofInstances 2 with
    state := some .started, minInstances := some 2, maxInstances := some most, autoscale := some true,
    routes := some ["web.test"] }]

theorem Application.bounded_lawful (most : UInt32) : (bounded most).Lawful :=
  Operation.run_lawful (new_lawful _ _) _

theorem World.holds_storing_bounded (most : UInt32) :
    (storing (.bounded most)).store.apps.Holds Application.Lawful :=
  (Table.holds_empty _).put (Application.bounded_lawful most)

end AppFleet
