import AppFleet.Ledger.Record
import AppFleet.Store.Table
import Mathlib.Data.List.Sort

/-! Keys of slots. An index is written in digits, so the last colon of a key parts the application from
the index, and no two slots share a key. A scan for the keys of an application finds more than those:
every application whose id begins with that id and a colon is in it too. -/

namespace AppFleet

/-- The id of another application begins with this id and a colon. -/
def Clashes (app other : AppId) : Prop := (app ++ ":").toList <+: other.toList

theorem Clashes.ne {app other : AppId} (h : Clashes app other) : other ≠ app := by
  rintro rfl
  have hcolon : (":" : String).toList.length = 1 := rfl
  have hlen := h.length_le
  rw [String.toList_append, List.length_append, hcolon] at hlen
  omega

namespace LedgerRecord

theorem toList_key (app : AppId) (index : UInt32) :
    (key app index).toList = app.toList ++ ':' :: Nat.toDigits 10 index.toNat := by
  have hkey : key app index = app ++ ":" ++ index.toNat.repr := rfl
  simp [hkey, Nat.toList_repr]

theorem colon_not_mem_digits (n : Nat) : ':' ∉ Nat.toDigits 10 n := by
  intro h
  have hdigit := Nat.isDigit_of_mem_toDigits (by decide) (by decide) h
  exact absurd hdigit (by decide)

/-- What stands before a colon ends where the digits begin, or has the colon of the key in it. -/
theorem append_colon_cases {a b t : List Char} {n : Nat}
    (h : a ++ ':' :: t = b ++ ':' :: Nat.toDigits 10 n) :
    (a = b ∧ t = Nat.toDigits 10 n) ∨ a ++ [':'] <+: b := by
  rcases List.append_eq_append_iff.1 h with ⟨as, rfl, ht⟩ | ⟨bs, rfl, ht⟩
  · cases as with
    | nil => exact .inl ⟨by simp, by simpa using ht⟩
    | cons c as =>
      obtain ⟨rfl, -⟩ := List.cons.inj ht
      exact .inr ⟨as, by simp⟩
  · cases bs with
    | nil => exact .inl ⟨by simp, by simpa using ht.symm⟩
    | cons c bs =>
      obtain ⟨-, ht⟩ := List.cons.inj ht
      have hcolon : ':' ∈ Nat.toDigits 10 n := by simp [ht]
      exact absurd hcolon (colon_not_mem_digits n)

theorem isPrefix_key_iff (app other : AppId) (index : UInt32) :
    (app ++ ":").toList <+: (key other index).toList ↔ other = app ∨ Clashes app other := by
  rw [toList_key, String.toList_append, Clashes, String.toList_append]
  constructor
  · rintro ⟨t, ht⟩
    have hcolon : app.toList ++ ':' :: t = other.toList ++ ':' :: Nat.toDigits 10 index.toNat := by
      simpa using ht
    rcases append_colon_cases hcolon with ⟨heq, -⟩ | hclash
    · exact .inl (String.toList_inj.1 heq.symm)
    · exact .inr hclash
  · rintro (rfl | hclash)
    · exact ⟨Nat.toDigits 10 index.toNat, by simp⟩
    · exact hclash.trans (List.prefix_append _ _)

theorem key_inj {app other : AppId} {index index' : UInt32} :
    key app index = key other index' ↔ app = other ∧ index = index' := by
  constructor
  · intro h
    have hlist := congrArg String.toList h
    rw [toList_key, toList_key] at hlist
    rcases append_colon_cases hlist with ⟨happ, hdigits⟩ | hclash
    · refine ⟨String.toList_inj.1 happ, UInt32.toNat_inj.1 ?_⟩
      rw [← Nat.ofDigitChars_ten_toDigits (n := index.toNat), hdigits,
        Nat.ofDigitChars_ten_toDigits]
    · -- the other way round the ids have the same length
      rcases append_colon_cases hlist.symm with ⟨happ, -⟩ | hclash'
      · rw [happ] at hclash
        have hlen := hclash.length_le
        rw [List.length_append, List.length_singleton] at hlen
        omega
      · have hlen := hclash.length_le
        have hlen' := hclash'.length_le
        rw [List.length_append, List.length_singleton] at hlen hlen'
        omega
  · rintro ⟨rfl, rfl⟩
    rfl

end LedgerRecord

namespace Keyed

variable {entries : List (String × α)}

theorem mem_iff_lookup (h : Increasing entries) {key : String} {value : α} :
    (key, value) ∈ entries ↔ entries.lookup key = some value := by
  induction entries with
  | nil => simp
  | cons e rest ih =>
    obtain ⟨k, v⟩ := e
    obtain ⟨hfirst, hrest⟩ := List.pairwise_cons.1 h
    rw [List.mem_cons, List.lookup_cons, ih hrest]
    by_cases hk : key = k
    · subst hk
      have hnot : rest.lookup key = none := by
        rw [List.lookup_eq_none_iff]
        intro e he
        have hlt := hfirst e.1 (List.mem_map_of_mem he)
        exact bne_iff_ne.2 fun heq => String.lt_irrefl key (heq ▸ hlt)
      simp [hnot, eq_comm]
    · simp [hk, beq_eq_false_iff_ne.2 hk]

theorem Increasing.filter (h : Increasing entries) (p : String × α → Bool) :
    Increasing (entries.filter p) := h.sublist (List.filter_sublist.map _)

theorem getLast?_eq_some_iff (h : Increasing entries) {e : String × α} :
    entries.getLast? = some e ↔ e ∈ entries ∧ ∀ e' ∈ entries, ¬ e.1 < e'.1 := by
  constructor
  · intro hlast
    obtain ⟨before, rfl⟩ := List.getLast?_eq_some_iff.1 hlast
    refine ⟨List.mem_concat_self, fun x hx hlt => ?_⟩
    have hsorted := List.pairwise_append.1 (List.pairwise_map.1 h)
    rcases List.mem_append.1 hx with hb | hb
    · exact String.lt_asymm hlt (hsorted.2.2 x hb e (by simp))
    · rw [List.mem_singleton.1 hb] at hlt
      exact String.lt_irrefl _ hlt
  · rintro ⟨he, hgreatest⟩
    obtain ⟨before, last, rfl⟩ : ∃ before last, entries = before ++ [last] :=
      ⟨_, _, (List.dropLast_concat_getLast (List.ne_nil_of_mem he)).symm⟩
    have hsorted := List.pairwise_append.1 (List.pairwise_map.1 h)
    rcases List.mem_append.1 he with hb | hb
    · exact absurd (hsorted.2.2 e hb last (by simp)) (hgreatest last List.mem_concat_self)
    · rw [List.mem_singleton.1 hb]
      simp

end Keyed

namespace Table

variable {t t' : Table α} {key other : String}

theorem mem_entries_iff (t : Table α) {key : String} {value : α} :
    (key, value) ∈ t.entries ↔ t.get? key = some value := Keyed.mem_iff_lookup t.increasing

theorem ext_get? (h : ∀ key, t.get? key = t'.get? key) : t = t' := by
  have hentries : t.entries = t'.entries := by
    have : Std.Irrefl fun e e' : String × α => e.1 < e'.1 := ⟨fun e => String.lt_irrefl e.1⟩
    have : Std.Antisymm fun e e' : String × α => e.1 < e'.1 :=
      ⟨fun _ _ hlt hgt => (String.lt_asymm hlt hgt).elim⟩
    refine (List.pairwise_map.1 t.increasing).eq_of_mem_iff (List.pairwise_map.1 t'.increasing) ?_
    rintro ⟨key, value⟩
    rw [mem_entries_iff, mem_entries_iff, h key]
  cases t
  cases t'
  cases hentries
  rfl

@[simp] theorem put_put_self (t : Table α) (key : String) (a b : α) :
    (t.put key a).put key b = t.put key b := by
  refine ext_get? fun k => ?_
  by_cases hkey : k = key
  · subst hkey
    rw [get?_put_self, get?_put_self]
  · rw [get?_put_of_ne _ _ hkey, get?_put_of_ne _ _ hkey, get?_put_of_ne _ _ hkey]

theorem put_comm (h : key ≠ other) (a b : α) :
    (t.put key a).put other b = (t.put other b).put key a := by
  refine ext_get? fun k => ?_
  by_cases hother : k = other
  · subst hother
    rw [get?_put_self, get?_put_of_ne _ _ h.symm, get?_put_self]
  · rw [get?_put_of_ne _ _ hother]
    by_cases hkey : k = key
    · subst hkey
      rw [get?_put_self, get?_put_self]
    · rw [get?_put_of_ne _ _ hkey, get?_put_of_ne _ _ hkey, get?_put_of_ne _ _ hother]

end Table

end AppFleet
