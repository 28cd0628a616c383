import AppFleet.Proofs.Json.Accepts
import AppFleet.Proofs.Json.Faithful
import Mathlib.Data.List.Induction

/-! Records read back what they write. A field is looked up under its name, and what is written under
the others is no matter, as long as no two fields have one name. -/

namespace AppFleet

theorem Keyed.lookup_of_notMem {entries : List (String × α)} {key : String} (h : key ∉ entries.map (·.1)) :
    entries.lookup key = none := by
  refine List.lookup_eq_none_iff.2 fun e he => ?_
  have hne : key ≠ e.1 := by
    rintro rfl
    exact h (List.mem_map_of_mem he)
  simpa using hne

theorem Keyed.lookup_sort {entries : List (String × α)} (h : (entries.map (·.1)).Nodup) (key : String) :
    (sort entries).lookup key = entries.lookup key := by
  induction entries using List.reverseRecOn with
  | nil => rfl
  | append_singleton entries e ih =>
    obtain ⟨name, value⟩ := e
    obtain ⟨hnodup, -, hfresh⟩ := List.nodup_append.1 (List.map_append ▸ h)
    have hlast : sort (entries ++ [(name, value)]) = set name value (sort entries) := by simp [sort]
    rw [hlast, List.lookup_append]
    by_cases hkey : key = name
    · subst hkey
      have hnone : entries.lookup key = none :=
        lookup_of_notMem fun hmem => hfresh key hmem key (by simp) rfl
      simp [lookup_set_self, hnone]
    · rw [lookup_set_of_ne hkey, ih hnodup]
      simp [List.lookup_cons, beq_eq_false_iff_ne.2 hkey]

theorem Json.get?_record_eq_none_iff {entries : List (String × Json)} {key : String} :
    (Json.record entries).get? key = none ↔ key ∉ entries.map (·.1) := by
  have hkeys : key ∈ (Keyed.sort entries).map (·.1) ↔ key ∈ entries.map (·.1) := by
    induction entries using List.reverseRecOn with
    | nil => rfl
    | append_singleton entries e ih =>
      have hlast : Keyed.sort (entries ++ [e]) = Keyed.set e.1 e.2 (Keyed.sort entries) := by
        simp [Keyed.sort]
      rw [hlast, Keyed.mem_keys_set, ih]
      simp [or_comm]
  rw [← hkeys, Json.record, Json.get?, List.lookup_eq_none_iff]
  simp only [List.mem_map, not_exists, not_and, bne_iff_ne, ne_eq]
  exact forall₂_congr fun e _ => ne_comm

namespace Codec

theorem bool_faithful : bool.Faithful := fun _ => rfl

theorem uint64_faithful : uint64.Faithful := fun _ => rfl

theorem uint32_faithful : uint32.Faithful := fun n => (uint32_accepts _ n).2 rfl

/-- A value that is there must not be written as the one that is not. -/
theorem option_faithful {inner : Codec α} (h : inner.Faithful) (hnull : ∀ a, inner.write a ≠ .null) :
    inner.option.Faithful := by
  intro o
  cases o with
  | none => rfl
  | some a =>
    simp only [option]
    split
    · exact absurd ‹_› (hnull a)
    · rw [h a]
      rfl

end Codec

namespace Fields

/-- Some fields have these names, and are read back from where they were written. -/
structure Reads (x : Fields σ α) (names : List String) (get : σ → α) : Prop where
  named : ∀ s, ((x.write s).map (·.1)).Sublist names
  reads : names.Nodup → ∀ s find, (∀ name ∈ names, find name = (x.write s).lookup name) →
    x.readKeys find = .ok (get s)

variable {x : Fields σ α} {names : List String} {get : σ → α}

theorem Reads.map (h : x.Reads names get) (f : α → β) : (f <$> x).Reads names fun s => f (get s) where
  named := h.named
  reads hnames s find hfind := by
    change (x.readKeys find).map f = _
    rw [h.reads hnames s find hfind]
    rfl

/-- What is written under a name is not written under the names of other fields. -/
theorem Reads.lookup_none (h : x.Reads names get) (s : σ) {name : String} (hname : name ∉ names) :
    (x.write s).lookup name = none :=
  Keyed.lookup_of_notMem fun hmem => hname ((h.named s).subset hmem)

theorem Reads.seq {f : Fields σ (α → β)} {own : List String} {g : σ → α → β} (hf : f.Reads own g)
    (hx : x.Reads names get) : (f <*> x).Reads (own ++ names) fun s => g s (get s) where
  named s := by
    change ((f.write s ++ x.write s).map (·.1)).Sublist _
    rw [List.map_append]
    exact (hf.named s).append (hx.named s)
  reads hnames s find hfind := by
    obtain ⟨hown, hnames, hapart⟩ := List.nodup_append.1 hnames
    have hlookup (name : String) : (f.write s ++ x.write s).lookup name =
        ((f.write s).lookup name).or ((x.write s).lookup name) := List.lookup_append
    have hleft : f.readKeys find = .ok (g s) := by
      refine hf.reads hown s find fun name hname => ?_
      have hother : name ∉ names := fun h => hapart name hname name h rfl
      rw [hfind name (List.mem_append_left _ hname)]
      exact (hlookup name).trans (by simp [hx.lookup_none s hother])
    have hright : x.readKeys find = .ok (get s) := by
      refine hx.reads hnames s find fun name hname => ?_
      have hother : name ∉ own := fun h => hapart name h name hname rfl
      rw [hfind name (List.mem_append_right _ hname)]
      exact (hlookup name).trans (by simp [hf.lookup_none s hother])
    simp only [Seq.seq, Fields.seq, hleft, hright]

/-- A field that is left out has the value that its absence stands for. -/
theorem reads_field (name : String) {codec : Codec α} (get : σ → α)
    (hcodec : ∀ s, codec.read (codec.write (get s)) = .ok (get s)) {missing short : Option α}
    {kept : α → Bool}
    (hmissing : ∀ a, kept a = false → missing = some a) :
    (field name codec get missing short kept).Reads [name] get where
  named s := by
    by_cases hkept : kept (get s) <;> simp [field, hkept]
  reads _ s find hfind := by
    have hname := hfind name List.mem_cons_self
    by_cases hkept : kept (get s)
    · simp [field, hkept] at hname ⊢
      simp [hname, hcodec s, Except.mapError]
    · simp [field, hkept] at hname ⊢
      simp [hname, hmissing _ (Bool.eq_false_iff.2 hkept)]

/-- It is enough that the values read back that there are. -/
theorem reads_required_of (name : String) (codec : Codec α) (get : σ → α)
    (h : ∀ s, codec.read (codec.write (get s)) = .ok (get s)) :
    (required name codec get).Reads [name] get := reads_field name get h (by simp)

theorem reads_required (name : String) {codec : Codec α} (h : codec.Faithful) (get : σ → α) :
    (required name codec get).Reads [name] get := reads_required_of name codec get fun s => h (get s)

theorem reads_optional (name : String) {codec : Codec α} (h : codec.option.Faithful)
    (get : σ → Option α) : (optional name codec get).Reads [name] get :=
  reads_field name get (fun s => h (get s)) nofun

theorem reads_withDefault (name : String) {codec : Codec α} (h : codec.Faithful) (default : α)
    (get : σ → α) : (withDefault name codec default get).Reads [name] get :=
  reads_field name get (fun s => h (get s)) nofun

theorem reads_omitEmpty (name : String) {codec : Codec α} (h : codec.Faithful) (get : σ → List α) :
    (omitEmpty name codec get).Reads [name] get := by
  refine reads_field name get (fun s => Codec.list_faithful h (get s)) fun values hempty => ?_
  cases values with
  | nil => rfl
  | cons a rest => cases hempty

theorem reads_omitNone (name : String) {codec : Codec α} (h : codec.option.Faithful)
    (get : σ → Option α) : (omitNone name codec get).Reads [name] get := by
  refine reads_field name get (fun s => h (get s)) fun o hnone => ?_
  cases o with
  | none => rfl
  | some a => cases hnone

theorem Reads.get?_record (h : x.Reads names get) (hnames : names.Nodup) (s : σ) (name : String) :
    (Json.record (x.write s)).get? name = (x.write s).lookup name :=
  Keyed.lookup_sort (hnames.sublist (h.named s)) name

theorem Reads.readObject (h : x.Reads names get) (hnames : names.Nodup) (s : σ) :
    x.readObject (Json.record (x.write s)) = .ok (get s) := by
  have hread := h.reads hnames s (fun name => (Json.record (x.write s)).get? name)
    fun name _ => h.get?_record hnames s name
  rw [Fields.readObject, hread]
  rfl

theorem record_faithful {name : String} {fields : Fields α α} (h : fields.Reads names id)
    (hnames : names.Nodup) : (record name fields).Faithful := h.readObject hnames

end Fields

namespace Variant

variable {key tag shape : String} {fields : Fields β β} {names : List String} {wrap : β → α}
  {unwrap : α → Option β}

theorem nodup_keys (h : fields.Reads names id) (hnames : (key :: names).Nodup) (tag : Json) (b : β) :
    (((key, tag) :: fields.write b).map (·.1)).Nodup :=
  hnames.sublist ((h.named b).cons_cons key)

theorem readObject_of (h : fields.Reads names id) (hnames : (key :: names).Nodup) (b : β) :
    (of tag shape fields wrap unwrap).readObject (Json.record ((key, .string tag) :: fields.write b)) =
      .ok (wrap b) := by
  have hkeys := nodup_keys h hnames (.string tag) b
  obtain ⟨hkey, hnames⟩ := List.nodup_cons.1 hnames
  have hread := h.reads hnames b (fun name => (Json.record ((key, .string tag) :: fields.write b)).get? name)
    fun name hname => by
      have hne : name ≠ key := by
        rintro rfl
        exact hkey hname
      refine (Keyed.lookup_sort hkeys name).trans ?_
      rw [List.lookup_cons, beq_eq_false_iff_ne.2 hne]
  simp only [of, Fields.readObject, hread]
  rfl

theorem get?_tag {tag : Json} {entries : List (String × Json)}
    (hkeys : (((key, tag) :: entries).map (·.1)).Nodup) :
    (Json.record ((key, tag) :: entries)).get? key = some tag :=
  (Keyed.lookup_sort hkeys key).trans (by simp)

theorem read_codec {name : String} {variants : List (Variant α)} {v : Variant α}
    {entries : List (String × Json)} {a : α} (hfind : find variants (.string v.tag) = .ok v)
    (hkeys : (((key, .string v.tag) :: entries).map (·.1)).Nodup)
    (hread : v.readObject (Json.record ((key, .string v.tag) :: entries)) = .ok a) :
    (codec name key variants).read (Json.record ((key, .string v.tag) :: entries)) = .ok a := by
  have htag := get?_tag hkeys
  rw [Json.record] at htag hread ⊢
  simp only [codec, htag, hfind]
  exact hread

theorem variant_of_read {name : String} {variants : List (Variant α)} {entries : List (String × Json)}
    {a : α} (h : (codec name key variants).read (.object entries) = .ok a) :
    ∃ v ∈ variants, (Json.object entries).get? key = some (.string v.tag) ∧
      v.readObject (.object entries) = .ok a := by
  simp only [codec] at h
  split at h
  · rename_i tag htag
    obtain ⟨v, hfind, hread⟩ := bind_ok_iff.1 h
    unfold find at hfind
    split at hfind
    · rename_i s
      split at hfind
      · rename_i found hfound
        cases hfind
        have hs : v.tag = s := by simpa using List.find?_some hfound
        exact ⟨v, List.mem_of_find?_eq_some hfound, hs ▸ htag, hread⟩
      · cases hfind
    · cases hfind
  · cases h

theorem wrap_of_readObject {j : Json} {a : α}
    (h : (of tag shape fields wrap unwrap).readObject j = .ok a) : ∃ b, a = wrap b := by
  obtain ⟨b, -, rfl⟩ := map_ok_iff.1 h
  exact ⟨b, rfl⟩

end Variant

end AppFleet
