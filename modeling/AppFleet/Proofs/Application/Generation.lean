import AppFleet.Proofs.Application.Token
import AppFleet.Proofs.Application.Verdict
import Mathlib.Data.List.Nodup

/-! Generations along the life of an application. One is opened when something else is to run than
before, and by every restage; none is ever closed again. So what has the same version at two moments,
and is started at both, ran the same all the time in between. -/

namespace AppFleet

/-- The text whose digest is the version of an application. -/
def Application.seed (a : Application) : List UInt8 := Version.seed a.id a.generation

/-- What is to run of an application is not what ran of it before. -/
def Application.RunsAnew (a b : Application) : Prop :=
  b.isStarted ∧ (¬ a.isStarted ∨ b.memoryMb ≠ a.memoryMb ∨ b.healthCheck ≠ a.healthCheck ∨
    a.dropletHash = none ∧ b.dropletHash.isSome)

/-- A change opens one generation or none. -/
structure Application.Counts (a b : Application) (opens : Prop) : Prop where
  opened : opens → b.generation.toNat = a.generation.toNat + 1
  kept : ¬ opens → b.generation = a.generation ∧ b.version = a.version

/-- No operation proposes another id or another generation. A droplet may be replaced but is never taken
away. -/
structure Application.Proposes (a c : Application) : Prop where
  id : c.id = a.id
  generation : c.generation = a.generation
  version : c.version = a.version
  droplet : a.dropletHash.isSome → c.dropletHash.isSome

def Operation.appAt (a : Application) (ops : List Operation) (n : Nat) : Application :=
  run a (ops.take n)

namespace Application

variable {a b c : Application} {edits : BoundEdits}

theorem not_runsAnew_self (a : Application) : ¬ a.RunsAnew a := by
  rintro ⟨hs, h | h | h | ⟨hnone, hsome⟩⟩
  · exact h hs
  · exact h rfl
  · exact h rfl
  · simp [hnone] at hsome

theorem opensGeneration_iff : opensGeneration a b ↔ a.RunsAnew b := by
  simp [opensGeneration, RunsAnew, or_assoc]

theorem settle_counts (h : settle a edits c = .ok b) (hc : a.Proposes c) :
    a.Counts b (a.RunsAnew b) := by
  obtain ⟨-, s, -, hb⟩ := (settle_ok_iff a c b edits).1 h
  have hframe := clamp_frame a { c with scaling := s }
  set d := clamp a { c with scaling := s }
  have hg : d.generation = a.generation := by rw [hframe]; exact hc.generation
  have hv : d.version = a.version := by rw [hframe]; exact hc.version
  -- the generation itself is no part of what runs
  have hsame : a.RunsAnew b ↔ opensGeneration a d := by
    rw [opensGeneration_iff, renew_frame hb]
    rfl
  rw [hsame]
  rcases (renew_ok_iff a d b).1 hb with ⟨hquiet, rfl⟩ | ⟨hopens, hlast, rfl⟩
  · exact ⟨fun h => absurd h hquiet, fun _ => ⟨hg, hv⟩⟩
  · refine ⟨fun _ => ?_, fun h => absurd hopens h⟩
    rw [← hg]
    exact toNat_generation_succ hlast

theorem settle_id (h : settle a edits c = .ok b) (hc : a.Proposes c) : b.id = a.id := by
  rw [settle_frame h]
  exact hc.id

theorem settle_droplet (h : settle a edits c = .ok b) (hc : a.Proposes c)
    (ha : a.dropletHash.isSome) : b.dropletHash.isSome := by
  rw [settle_frame h]
  exact hc.droplet ha

theorem assign_proposes (ha : a.Lawful) (u : Update) : a.Proposes (a.assign u) := by
  have hcandidate := assign_candidate ha u
  refine ⟨hcandidate.id, hcandidate.generation, hcandidate.version, fun hsome => ?_⟩
  unfold assign
  rw [assignRoutes_frame, assignPackage_frame]
  simp [hsome]

/-- The three steps of a restage. The application is stopped in between, so the last opens a
generation whatever was before. -/
theorem restage_steps (h : a.restage = .ok b) : ∃ s m,
    settle a .neither { a with desired := .stopped } = .ok s ∧
      settle s .neither s.resetPackage = .ok m ∧
      settle m .neither { m with desired := .started } = .ok b :=
  (restage_ok_iff a b).1 h

theorem restage_counts (h : a.restage = .ok b) :
    b.generation.toNat = a.generation.toNat + 1 := by
  obtain ⟨s, m, hs, hm, hb⟩ := restage_steps h
  have hstopped : s.desired = .stopped := by rw [settle_frame hs]
  have hmarked : m.desired = .stopped := by rw [settle_frame hm]; exact hstopped
  have hstarted : b.desired = .started := by rw [settle_frame hb]
  have hs' := (settle_counts hs ⟨rfl, rfl, rfl, fun h => h⟩).kept
    (by simp [RunsAnew, isStarted, hstopped])
  have hm' := (settle_counts hm ⟨rfl, rfl, rfl, fun h => h⟩).kept
    (by simp [RunsAnew, isStarted, hmarked])
  have hb' := (settle_counts hb ⟨rfl, rfl, rfl, fun h => h⟩).opened
    (by simp [RunsAnew, isStarted, hmarked, hstarted])
  rw [hb', hm'.1, hs'.1]

end Application

namespace Operation

open Application

variable {a b : Application} {op : Operation} {ops : List Operation} {i j n : Nat}

/-- Every operation but a restage passes one candidate through the pipeline, or is about routes. -/
theorem perform_cases (ha : a.Lawful) (h : op.perform a = .ok b) :
    op = .restage ∨ (∃ edits c, settle a edits c = .ok b ∧ a.Proposes c) ∨
      ∃ routes pending, b = { a with routes, routesPending := pending } := by
  cases op with
  | apply u => exact .inr (.inl ⟨_, _, h, assign_proposes ha u⟩)
  | start | stop | markForRestaging => exact .inr (.inl ⟨_, _, h, rfl, rfl, rfl, fun hsome => hsome⟩)
  | restage => exact .inl rfl
  | markStaged result =>
    obtain ⟨-, h⟩ := (markStaged_ok_iff a b result).1 h
    exact .inr (.inl ⟨_, _, h, rfl, rfl, rfl, fun hsome => by simp [hsome]⟩)
  | markFailed reason =>
    obtain ⟨-, h⟩ := (markFailed_ok_iff a b reason).1 h
    exact .inr (.inl ⟨_, _, h, rfl, rfl, rfl, fun hsome => hsome⟩)
  | bindRoute route =>
    cases h
    unfold Application.bindRoute
    split <;> exact .inr (.inr ⟨_, _, rfl⟩)
  | unbindRoute route =>
    cases h
    unfold Application.unbindRoute
    split <;> exact .inr (.inr ⟨_, _, rfl⟩)
  | routesPushed =>
    cases h
    exact .inr (.inr ⟨_, _, rfl⟩)

theorem perform_counts (ha : a.Lawful) (h : op.perform a = .ok b) :
    a.Counts b (op = .restage ∨ a.RunsAnew b) := by
  by_cases hop : op = .restage
  · subst hop
    exact ⟨fun _ => restage_counts h, fun hno => absurd (.inl rfl) hno⟩
  · simp only [hop, false_or]
    rcases (perform_cases ha h).resolve_left hop with ⟨edits, c, hb, hc⟩ | ⟨routes, pending, hb⟩
    · exact settle_counts hb hc
    · have hsame : a.RunsAnew b ↔ a.RunsAnew a := by rw [hb]; rfl
      refine ⟨fun hanew => absurd (hsame.1 hanew) (not_runsAnew_self a), fun _ => ?_⟩
      rw [hb]
      exact ⟨rfl, rfl⟩

theorem perform_id (ha : a.Lawful) (h : op.perform a = .ok b) : b.id = a.id := by
  rcases perform_cases ha h with rfl | ⟨edits, c, hb, hc⟩ | ⟨routes, pending, rfl⟩
  · obtain ⟨s, m, hs, hm, hb⟩ := restage_steps h
    rw [settle_frame hb, settle_frame hm, settle_frame hs]
    rfl
  · exact settle_id hb hc
  · rfl

theorem perform_droplet (ha : a.Lawful) (h : op.perform a = .ok b) (hsome : a.dropletHash.isSome) :
    b.dropletHash.isSome := by
  rcases perform_cases ha h with rfl | ⟨edits, c, hb, hc⟩ | ⟨routes, pending, rfl⟩
  · obtain ⟨s, m, hs, hm, hb⟩ := restage_steps h
    rw [settle_frame hb, settle_frame hm, settle_frame hs]
    exact hsome
  · exact settle_droplet hb hc hsome
  · exact hsome

/-- A restage is never rejected, and what is rejected counts nothing. Only after the last generation an
operation that would open another does not count, for it panics. -/
theorem after_counts (ha : a.Lawful) (op : Operation) :
    a.Counts (after a op) (op = .restage ∨ a.RunsAnew (after a op)) ∨
      op.perform a = .error .overflow ∧ a.AtLast := by
  cases hop : op.perform a with
  | ok b =>
    have hafter : after a op = b := by simp [after, hop]
    rw [hafter]
    exact .inl (perform_counts ha hop)
  | error e =>
    have hafter : after a op = a := by simp [after, hop]
    rw [hafter]
    by_cases hrestage : op = .restage
    · subst hrestage
      rcases ha.unhindered.restage with ⟨b, hb⟩ | ⟨hover, hlast⟩
      · cases hop.symm.trans hb
      · exact .inr ⟨hop.symm.trans hover, hlast⟩
    · refine .inl ⟨?_, fun _ => ⟨rfl, rfl⟩⟩
      rintro (h | hanew)
      · exact absurd h hrestage
      · exact absurd hanew (not_runsAnew_self a)

/-- Whatever becomes of an operation, it opens a generation or none. -/
theorem after_generation (ha : a.Lawful) (op : Operation) :
    a.generation ≤ (after a op).generation ∧
      (after a op).generation.toNat ≤ a.generation.toNat + 1 := by
  rw [UInt64.le_iff_toNat_le]
  rcases after_counts ha op with hcounts | ⟨hover, -⟩
  · by_cases hopens : op = .restage ∨ a.RunsAnew (after a op)
    · have := hcounts.opened hopens
      omega
    · rw [(hcounts.kept hopens).1]
      omega
  · have hafter : after a op = a := by simp [after, hover]
    rw [hafter]
    omega

theorem after_id (ha : a.Lawful) (op : Operation) : (after a op).id = a.id := by
  unfold after
  split
  · exact perform_id ha ‹_›
  · rfl

theorem after_droplet (ha : a.Lawful) (op : Operation) (hsome : a.dropletHash.isSome) :
    (after a op).dropletHash.isSome := by
  unfold after
  split
  · exact perform_droplet ha ‹_› hsome
  · exact hsome

theorem appAt_lawful (ha : a.Lawful) (ops : List Operation) (n : Nat) : (appAt a ops n).Lawful :=
  run_lawful ha _

theorem appAt_succ (a : Application) (ops : List Operation) (n : Nat) :
    (∃ op, appAt a ops (n + 1) = after (appAt a ops n) op) ∨ appAt a ops (n + 1) = appAt a ops n := by
  unfold appAt run
  cases hop : ops[n]? with
  | none =>
    refine .inr ?_
    rw [List.take_add_one, hop]
    simp
  | some op =>
    refine .inl ⟨op, ?_⟩
    rw [List.take_add_one, hop]
    simp

theorem appAt_id (ha : a.Lawful) (ops : List Operation) (n : Nat) : (appAt a ops n).id = a.id := by
  induction n with
  | zero => rfl
  | succ n ih =>
    rcases appAt_succ a ops n with ⟨op, heq⟩ | heq
    · rw [heq, after_id (appAt_lawful ha ops n), ih]
    · rw [heq, ih]

theorem generation_succ (ha : a.Lawful) (ops : List Operation) (n : Nat) :
    (appAt a ops n).generation ≤ (appAt a ops (n + 1)).generation ∧
      (appAt a ops (n + 1)).generation.toNat ≤ (appAt a ops n).generation.toNat + 1 := by
  rcases appAt_succ a ops n with ⟨op, heq⟩ | heq
  · rw [heq]
    exact after_generation (appAt_lawful ha ops n) op
  · rw [heq]
    exact ⟨UInt64.le_refl _, Nat.le_succ _⟩

theorem generation_mono (ha : a.Lawful) (ops : List Operation) (hij : i ≤ j) :
    (appAt a ops i).generation ≤ (appAt a ops j).generation := by
  induction j, hij using Nat.le_induction with
  | base => exact UInt64.le_refl _
  | succ j _ ih => exact UInt64.le_trans ih (generation_succ ha ops j).1

theorem generation_le (ha : a.Lawful) (ops : List Operation) (n : Nat) :
    (appAt a ops n).generation.toNat ≤ a.generation.toNat + n := by
  induction n with
  | zero => exact Nat.le_refl _
  | succ n ih =>
    have := (generation_succ ha ops n).2
    omega

/-- To come to the last generation takes as many operations as there are generations. -/
theorem length_of_atLast {id : AppId} {name : String} (h : (run (.new id name) ops).AtLast) :
    2 ^ 64 ≤ ops.length + 1 := by
  have hle := generation_le (new_lawful id name) ops ops.length
  have hrun : appAt (.new id name) ops ops.length = run (.new id name) ops := by simp [appAt]
  rw [hrun, h] at hle
  change 0xffffffffffffffff ≤ 0 + ops.length at hle
  omega

/-- Two applications run the same thing: both are started, with the same memory and health check, and
both have a droplet or neither has. -/
structure SameRun (a b : Application) : Prop where
  started : a.isStarted
  memoryMb : a.memoryMb = b.memoryMb
  healthCheck : a.healthCheck = b.healthCheck
  droplet : a.dropletHash.isSome ↔ b.dropletHash.isSome

theorem SameRun.trans {a b c : Application} (h : SameRun a b) (h' : SameRun b c) : SameRun a c :=
  ⟨h.started, h.memoryMb.trans h'.memoryMb, h.healthCheck.trans h'.healthCheck,
    h.droplet.trans h'.droplet⟩

/-- What is started after an operation that opened no generation was so before. -/
theorem sameRun_after (ha : a.Lawful) (hgeneration : (after a op).generation = a.generation)
    (hs : (after a op).isStarted) : SameRun a (after a op) := by
  have hnot : ¬ a.RunsAnew (after a op) := fun hanew => by
    rcases after_counts ha op with hcounts | ⟨hover, -⟩
    · have := hcounts.opened (.inr hanew)
      rw [hgeneration] at this
      omega
    · have hafter : after a op = a := by simp [after, hover]
      rw [hafter] at hanew
      exact not_runsAnew_self a hanew
  simp only [RunsAnew, hs, true_and, not_or, not_not, not_and] at hnot
  obtain ⟨hstarted, hmemory, hhealth, hdroplet⟩ := hnot
  refine ⟨hstarted, hmemory.symm, hhealth.symm, after_droplet ha op, fun hsome => ?_⟩
  by_contra hnone
  exact hdroplet (by simpa using hnone) hsome

/-- Nothing else was run since a generation was opened. -/
theorem sameRun_of_generation (ha : a.Lawful) {k : Nat} (hik : i ≤ k) (hkj : k ≤ j)
    (hgeneration : (appAt a ops i).generation = (appAt a ops j).generation)
    (hs : (appAt a ops j).isStarted) : SameRun (appAt a ops k) (appAt a ops j) := by
  induction hd : j - k generalizing k with
  | zero =>
    obtain rfl : k = j := by omega
    exact ⟨hs, rfl, rfl, Iff.rfl⟩
  | succ d ih =>
    have hrest := ih (k := k + 1) (by omega) (by omega) (by omega)
    have hbefore := generation_mono ha ops hik
    have hstep := (generation_succ ha ops k).1
    have hafter := generation_mono ha ops (show k + 1 ≤ j by omega)
    rcases appAt_succ a ops k with ⟨op, heq⟩ | heq
    · rw [heq] at hrest hstep hafter
      have hsame : (after (appAt a ops k) op).generation = (appAt a ops k).generation := by
        refine UInt64.le_antisymm ?_ hstep
        exact UInt64.le_trans hafter (hgeneration ▸ hbefore)
      exact (sameRun_after (appAt_lawful ha ops k) hsame hrest.started).trans hrest
    · rwa [heq] at hrest

/-- Versions that are the same are of one application, and of one generation of it. -/
theorem generation_eq_of_version {texts : Set (List UInt8)} (hdigest : Version.ToldApart texts)
    (ha : a.Lawful) (hb : b.Lawful) (hseeda : a.seed ∈ texts) (hseedb : b.seed ∈ texts)
    (hversion : a.version = b.version) : a.id = b.id ∧ a.generation = b.generation := by
  rw [ha.version, hb.version] at hversion
  exact Version.token_inj hdigest hseeda hseedb hversion

theorem run_id (ha : a.Lawful) (ops : List Operation) : (run a ops).id = a.id := by
  have hlast : appAt a ops ops.length = run a ops := by simp [appAt]
  rw [← hlast, appAt_id ha]

/-- A version names what is running. Where it is the same at two moments of a life, both started, the
same ran at both and all the time in between; a generation is opened by a restage and by what runs anew,
and by nothing else; none is closed again; and no other application has the version. Only where as many
operations as there are generations went before, one that would open another panics. -/
theorem version_names_what_runs {texts : Set (List UInt8)} (hdigest : Version.ToldApart texts) :
    (∀ id name ops i j, i ≤ j → j ≤ ops.length →
      (appAt (.new id name) ops i).seed ∈ texts → (appAt (.new id name) ops j).seed ∈ texts →
      (appAt (.new id name) ops i).isStarted → (appAt (.new id name) ops j).isStarted →
      (appAt (.new id name) ops i).version = (appAt (.new id name) ops j).version →
      ∀ k, i ≤ k → k ≤ j → SameRun (appAt (.new id name) ops k) (appAt (.new id name) ops j)) ∧
    (∀ id name ops op, (run (.new id name) ops).Counts (after (run (.new id name) ops) op)
      (op = .restage ∨ (run (.new id name) ops).RunsAnew (after (run (.new id name) ops) op)) ∨
      op.perform (run (.new id name) ops) = .error .overflow ∧ 2 ^ 64 ≤ ops.length + 1) ∧
    (∀ id name ops i j, i ≤ j →
      (appAt (.new id name) ops i).generation ≤ (appAt (.new id name) ops j).generation) ∧
    (∀ id name ops id' name' ops', (run (.new id name) ops).seed ∈ texts →
      (run (.new id' name') ops').seed ∈ texts → id ≠ id' →
      (run (.new id name) ops).version ≠ (run (.new id' name') ops').version) := by
  refine ⟨?_, ?_, ?_, ?_⟩
  · intro id name ops i j hij _ hseedi hseedj _ hs hversion k hik hkj
    have hlawful := appAt_lawful (new_lawful id name) ops
    have hgeneration :=
      (generation_eq_of_version hdigest (hlawful i) (hlawful j) hseedi hseedj hversion).2
    exact sameRun_of_generation (new_lawful id name) hik hkj hgeneration hs
  · intro id name ops op
    refine (after_counts (run_lawful (new_lawful id name) ops) op).imp_right ?_
    exact And.imp_right length_of_atLast
  · intro id name ops i j hij
    exact generation_mono (new_lawful id name) ops hij
  · intro id name ops id' name' ops' hseed hseed' hne hversion
    have hid := (generation_eq_of_version hdigest (run_lawful (new_lawful id name) ops)
      (run_lawful (new_lawful id' name') ops') hseed hseed' hversion).1
    rw [run_id (new_lawful id name), run_id (new_lawful id' name')] at hid
    exact hne hid

def restagedOnce : List Operation := [.start, .apply { Update.empty with instances := some 2 }, .restage]

def restagedTexts : List (List UInt8) :=
  [Version.seed "web" 1, Version.seed "web" 2, Version.seed "api" 1]

theorem restagedTexts_toldApart : Version.ToldApart {text | text ∈ restagedTexts} :=
  List.inj_on_of_nodup_map (by decide +kernel)

theorem version_names_what_runs_restaged :
    SameRun (appAt (.new "web" "web") restagedOnce 1) (appAt (.new "web" "web") restagedOnce 2) ∧
      (run (.new "web" "web") restagedOnce).generation = 2 ∧
      (appAt (.new "web" "web") restagedOnce 1).generation ≤
        (appAt (.new "web" "web") restagedOnce 3).generation ∧
      (run (.new "web" "web") restagedOnce).version ≠ (run (.new "api" "api") [.start]).version := by
  obtain ⟨hsame, hcounts, hmono, hapart⟩ := version_names_what_runs restagedTexts_toldApart
  refine ⟨?_, ?_, hmono _ _ _ 1 3 (by decide), ?_⟩
  · exact hsame "web" "web" restagedOnce 1 2 (by decide) (by decide) (by decide +kernel)
      (by decide +kernel) (by decide +kernel) (by decide +kernel) (by decide +kernel) 1 (by decide)
      (by decide)
  · have hrestage := (hcounts "web" "web" (restagedOnce.take 2) .restage).resolve_right
      fun h => absurd h.2 (by decide)
    exact UInt64.toNat_inj.1 (hrestage.opened (.inl rfl))
  · exact hapart "web" "web" restagedOnce "api" "api" [.start] (by decide +kernel)
      (by decide +kernel) (by decide)

end Operation

end AppFleet
