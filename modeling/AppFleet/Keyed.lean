/-!
Entries by increasing string key, as JSON objects and the tables of a store keep them. Strings are
ordered by code point, which is also the order of their UTF-8 bytes.
-/

namespace AppFleet.Keyed

def Increasing (entries : List (String × α)) : Prop := (entries.map (·.1)).Pairwise (· < ·)

/-- Sets the value of a key. -/
def set (key : String) (value : α) : List (String × α) → List (String × α)
  | [] => [(key, value)]
  | (k, v) :: rest =>
    if key < k then (key, value) :: (k, v) :: rest
    else if key = k then (key, value) :: rest
    else (k, v) :: set key value rest

/-- The same entries by increasing key; of several entries of one key the last. -/
def sort (entries : List (String × α)) : List (String × α) :=
  entries.foldl (fun sorted e => set e.1 e.2 sorted) []

def erase (key : String) (entries : List (String × α)) : List (String × α) :=
  entries.filter (·.1 ≠ key)

theorem mem_keys_set {key k : String} {value : α} {entries : List (String × α)} :
    k ∈ (set key value entries).map (·.1) ↔ k = key ∨ k ∈ entries.map (·.1) := by
  induction entries with
  | nil => simp [set]
  | cons e rest ih =>
    simp only [set]
    split
    · simp
    · split
      · rename_i h; subst h; simp
      · simp only [List.map_cons, List.mem_cons, ih]; grind

theorem increasing_set {key : String} {value : α} {entries : List (String × α)}
    (h : Increasing entries) : Increasing (set key value entries) := by
  induction entries with
  | nil => simp [set, Increasing]
  | cons e rest ih =>
    obtain ⟨k, v⟩ := e
    simp only [Increasing, List.map_cons, List.pairwise_cons] at h
    simp only [set]
    split
    · rename_i hlt
      simp only [Increasing, List.map_cons, List.pairwise_cons, List.mem_cons]
      exact ⟨fun b hb => hb.elim (· ▸ hlt) fun hb => String.lt_trans hlt (h.1 b hb), h⟩
    · split
      · rename_i heq
        subst heq
        simpa [Increasing] using h
      · simp only [Increasing, List.map_cons, List.pairwise_cons]
        refine ⟨fun b hb => ?_, ih h.2⟩
        rcases mem_keys_set.1 hb with rfl | hb
        · grind
        · exact h.1 b hb

theorem increasing_erase {key : String} {entries : List (String × α)} (h : Increasing entries) :
    Increasing (erase key entries) :=
  h.sublist (List.filter_sublist.map _)

theorem lookup_set_self {key : String} {value : α} {entries : List (String × α)} :
    (set key value entries).lookup key = some value := by
  induction entries with
  | nil => simp [set]
  | cons e rest ih =>
    obtain ⟨k, v⟩ := e
    simp only [set]
    split
    · simp
    · split
      · simp
      · rename_i h
        simpa [List.lookup_cons, beq_eq_false_iff_ne.2 h] using ih

theorem lookup_set_of_ne {key other : String} {value : α} {entries : List (String × α)}
    (h : other ≠ key) : (set key value entries).lookup other = entries.lookup other := by
  induction entries with
  | nil => simp [set, List.lookup_cons, beq_eq_false_iff_ne.2 h]
  | cons e rest ih =>
    obtain ⟨k, v⟩ := e
    simp only [set]
    split
    · rw [List.lookup_cons, beq_eq_false_iff_ne.2 h]
    · split
      · rename_i heq
        subst heq
        simp [List.lookup_cons, beq_eq_false_iff_ne.2 h]
      · simp only [List.lookup_cons, ih]

theorem lookup_erase_self {key : String} {entries : List (String × α)} :
    (erase key entries).lookup key = none := by
  simp only [erase, List.lookup_eq_none_iff, List.mem_filter]
  grind

theorem lookup_erase_of_ne {key other : String} {entries : List (String × α)} (h : other ≠ key) :
    (erase key entries).lookup other = entries.lookup other := by
  induction entries with
  | nil => rfl
  | cons e rest ih =>
    obtain ⟨k, v⟩ := e
    unfold erase at ih ⊢
    by_cases hk : k = key
    · subst hk
      simpa [List.lookup_cons, beq_eq_false_iff_ne.2 h] using ih
    · simp only [List.filter_cons, hk, ne_eq, not_false_eq_true, decide_true, if_true,
        List.lookup_cons, ih]

end AppFleet.Keyed
