import AppFleet.Application.Version
import AppFleet.Proofs.Text.Encoding
import Mathlib.Algebra.Group.Nat.Defs
import Mathlib.Data.Set.Function
import Mathlib.Tactic.Common

/-! What a version token tells apart. The text that is hashed names one application and one generation,
so two tokens that are the same are of the same generation of the same application, as far as the digest
tells the texts apart. -/

namespace AppFleet

namespace Hex

theorem value?_digit {n : UInt8} (h : n < 16) : value? (digit n) = some n.toNat := by
  have hall : ∀ n : Fin 16, value? (digit (UInt8.ofNat n)) = some n.val := by decide
  have hn : n.toNat < 16 := h
  simpa using hall ⟨n.toNat, hn⟩

theorem toNat?_ofByte (b : UInt8) : toNat? (ofByte b) = some b.toNat := by
  have hbound := b.toNat_lt
  have hhigh : b / 16 < 16 := by
    simp only [UInt8.lt_iff_toNat_lt, UInt8.toNat_div, UInt8.reduceToNat]
    omega
  have hlow : b % 16 < 16 := by
    simp only [UInt8.lt_iff_toNat_lt, UInt8.toNat_mod, UInt8.reduceToNat]
    omega
  simp only [toNat?, ofByte, List.foldlM_cons, List.foldlM_nil, value?_digit hhigh, value?_digit hlow]
  simp
  omega

theorem bytes?_flatMap_ofByte (bytes : List UInt8) : bytes? (bytes.flatMap ofByte) = some bytes := by
  induction bytes with
  | nil => rfl
  | cons b rest ih =>
    change (do return UInt8.ofNat (← toNat? (ofByte b)) :: (← bytes? (rest.flatMap ofByte))) = _
    rw [toNat?_ofByte, ih]
    simp

theorem ofBytes_injective : Function.Injective ofBytes := by
  intro bytes bytes' h
  have hdigits : bytes.flatMap ofByte = bytes'.flatMap ofByte := String.ofList_injective h
  have hread := congrArg bytes? hdigits
  rw [bytes?_flatMap_ofByte, bytes?_flatMap_ofByte] at hread
  exact Option.some.inj hread

end Hex

namespace Sha256

theorem bigEndian_succ (count n : Nat) :
    bigEndian (count + 1) n = UInt8.ofNat (n / 256 ^ count % 256) :: bigEndian count n := by
  simp [bigEndian, List.range_succ]

/-- So many bytes keep a number up to a multiple of their range. -/
theorem mod_eq_of_bigEndian {count n m : Nat} (h : bigEndian count n = bigEndian count m) :
    n % 256 ^ count = m % 256 ^ count := by
  induction count with
  | zero => simp [Nat.mod_one]
  | succ count ih =>
    rw [bigEndian_succ, bigEndian_succ] at h
    obtain ⟨hfirst, hrest⟩ := List.cons.inj h
    have hdigit : n / 256 ^ count % 256 = m / 256 ^ count % 256 := by
      simpa using congrArg UInt8.toNat hfirst
    rw [Nat.pow_succ, Nat.mod_mul, Nat.mod_mul, hdigit, ih hrest]

end Sha256

namespace Version

def seed (id : AppId) (generation : UInt64) : List UInt8 :=
  id.toUTF8.toList ++ 0x3a :: Sha256.bigEndian 8 generation.toNat

/-- The twelve bytes of their digests that tokens keep tell these texts apart. -/
def ToldApart (texts : Set (List UInt8)) : Prop :=
  texts.InjOn fun text => (Sha256.digest text).take 12

theorem token_eq (id : AppId) (generation : UInt64) :
    token id generation = Hex.ofBytes ((Sha256.digest (seed id generation)).take 12) := rfl

variable {texts : Set (List UInt8)} {id id' : AppId} {generation generation' : UInt64}

/-- An id may hold anything, the separator too: what comes after it is always nine bytes long. -/
theorem seed_inj (h : seed id generation = seed id' generation') :
    id = id' ∧ generation = generation' := by
  have hlength : (0x3a :: Sha256.bigEndian 8 generation.toNat).length =
      (0x3a :: Sha256.bigEndian 8 generation'.toNat).length := by
    simp [Sha256.length_bigEndian]
  obtain ⟨hid, hcount⟩ := List.append_inj' h hlength
  have hmod := Sha256.mod_eq_of_bigEndian (List.cons.inj hcount).2
  have hrange : 256 ^ 8 = 2 ^ 64 := by decide
  rw [hrange, Nat.mod_eq_of_lt generation.toNat_lt, Nat.mod_eq_of_lt generation'.toNat_lt] at hmod
  exact ⟨Text.toUTF8_toList_injective hid, UInt64.toNat_inj.1 hmod⟩

theorem token_inj (h : ToldApart texts) (hseed : seed id generation ∈ texts)
    (hseed' : seed id' generation' ∈ texts) (heq : token id generation = token id' generation') :
    id = id' ∧ generation = generation' := by
  rw [token_eq, token_eq] at heq
  exact seed_inj (h hseed hseed' (Hex.ofBytes_injective heq))

end Version

end AppFleet
