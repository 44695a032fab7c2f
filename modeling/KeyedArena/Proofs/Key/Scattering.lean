import KeyedArena.Key.Spread
import Mathlib.Data.Nat.Bitwise
import Mathlib.Logic.ExistsUnique
import Mathlib.Logic.Function.Basic
/-!
What a hash keeps of a key.

Both steps of scattering can be undone: the golden word has an inverse among words, and folding the
halves of a word twice gives the word back.  So every word is the hash of exactly one key, and zero
is that of key zero alone.  Keys with one home are told apart by the part of their hashes that the
mask cuts off, and nothing before the mask brings them together.
-/

namespace KeyedArena

/-- The lower 32 bits of the product of an integer and 0x9e3779b9, their upper half folded onto
their lower one, in whole numbers. -/
def scattered (n : Int) : Nat :=
  let product := (n * 0x9e3779b9 % 2 ^ 32).toNat
  product ^^^ (product >>> 16)

/-- The word whose product with the golden word is one. -/
def goldenInverse : UInt32 := 0x144cbc89

def gather (word : UInt32) : UInt32 := foldHalves word * goldenInverse

def Key.ofHash (word : UInt32) : Key := ⟨(gather word).toInt32⟩

/-- A hash of numbered things that scatters their numbers, loses nothing of them, and is zero at
one of them alone. -/
structure Lossless {α : Type} (hash : α → UInt32) (number : α → Int) (origin : α) : Prop where
  toNat_eq : ∀ item, (hash item).toNat = scattered (number item)
  bijective : Function.Bijective hash
  eq_zero_iff : ∀ item, hash item = 0 ↔ item = origin

/-- How keys come to share a home in a circle of a power of two slots. -/
structure MaskedHomes (capacity : Nat) : Prop where
  /-- The home of a key is what the mask leaves of its hash. -/
  masked : ∀ key : Key, key.hash.toNat &&& (capacity - 1) = key.home capacity
  /-- Two keys with one home differ in what the mask cuts off. -/
  apart : ∀ {left right : Key}, left ≠ right → left.home capacity = right.home capacity →
    left.hash.toNat / capacity ≠ right.hash.toNat / capacity
  /-- For every home and all that can be cut off there is one key, so that all homes are shared by
  equally many. -/
  existsUnique : ∀ home < capacity, ∀ rest < 2 ^ 32 / capacity,
    ∃! key : Key, key.home capacity = home ∧ key.hash.toNat / capacity = rest
  /-- A mask that cuts nothing off leaves every key a home of its own. -/
  injective : 2 ^ 32 ≤ capacity → Function.Injective (Key.home capacity)

theorem toNat_foldHalves (word : UInt32) :
    (foldHalves word).toNat = word.toNat ^^^ (word.toNat >>> 16) := by
  rw [foldHalves, UInt32.toNat_xor, UInt32.toNat_shiftRight]
  rfl

/-- Folding the halves once more takes the upper half back out of the lower one. -/
theorem foldHalves_foldHalves (word : UInt32) : foldHalves (foldHalves word) = word := by
  -- shifted twice, a word has lost both its halves
  have hlost : word.toNat >>> 16 >>> 16 = 0 := by
    rw [← Nat.shiftRight_add]
    exact Nat.shiftRight_eq_zero _ _ word.toNat_lt
  apply UInt32.toNat_inj.1
  rw [toNat_foldHalves, toNat_foldHalves, Nat.shiftRight_xor_distrib, hlost, Nat.xor_zero,
    Nat.xor_xor_cancel_right]

theorem goldenWord_mul_goldenInverse : goldenWord * goldenInverse = 1 := by decide

theorem gather_spread (word : UInt32) : gather (spread word) = word := by
  rw [gather, spread, foldHalves_foldHalves, UInt32.mul_assoc, goldenWord_mul_goldenInverse,
    UInt32.mul_one]

theorem spread_gather (word : UInt32) : spread (gather word) = word := by
  rw [spread, gather, UInt32.mul_assoc, UInt32.mul_comm goldenInverse,
    goldenWord_mul_goldenInverse, UInt32.mul_one, foldHalves_foldHalves]

theorem Key.ofHash_hash (key : Key) : Key.ofHash key.hash = key := by
  rw [Key.ofHash, Key.hash, gather_spread, Int32.toInt32_toUInt32]

theorem Key.hash_ofHash (word : UInt32) : (Key.ofHash word).hash = word := by
  rw [Key.hash, Key.ofHash, UInt32.toUInt32_toInt32, spread_gather]

theorem scattered_emod (n : Int) : scattered (n % 2 ^ 32) = scattered n := by
  have hproduct : n % 2 ^ 32 * 0x9e3779b9 % 2 ^ 32 = n * 0x9e3779b9 % 2 ^ 32 := by
    rw [Int.mul_emod, Int.emod_emod, ← Int.mul_emod]
  rw [scattered, scattered, hproduct]

theorem toNat_spread (word : UInt32) : (spread word).toNat = scattered word.toNat := by
  have hgolden : goldenWord.toNat = 0x9e3779b9 := rfl
  have hproduct :
      (word.toNat : Int) * 0x9e3779b9 % 2 ^ 32 = ((word * goldenWord).toNat : Int) := by
    rw [UInt32.toNat_mul, hgolden]
    norm_cast
  rw [spread, toNat_foldHalves, scattered, hproduct, Int.toNat_natCast]

/-- The two's complement bits of a key stand for its integer modulo 2^32. -/
theorem Key.toNat_toUInt32 (key : Key) : (key.raw.toUInt32.toNat : Int) = key.toInt % 2 ^ 32 := by
  have hword := key.raw.toUInt32.toNat_lt
  have hsigned : key.toInt = (key.raw.toUInt32.toNat : Int).bmod (2 ^ 32) := by
    rw [Key.toInt, ← Int32.toInt_toBitVec, BitVec.toInt_eq_toNat_bmod, Int32.toNat_toBitVec]
  have hmod : key.toInt % (2 ^ 32 : Nat) = key.raw.toUInt32.toNat % (2 ^ 32 : Nat) := by
    rw [hsigned, Int.bmod_emod]
  omega

theorem Key.toNat_hash (key : Key) : key.hash.toNat = scattered key.toInt := by
  rw [Key.hash, toNat_spread, Key.toNat_toUInt32, scattered_emod]

theorem Lossless.of_inverse {α : Type} {hash : α → UInt32} {number : α → Int} {origin : α}
    {unhash : UInt32 → α} (htoNat : ∀ item, (hash item).toNat = scattered (number item))
    (hleft : Function.LeftInverse unhash hash) (hright : Function.RightInverse unhash hash)
    (horigin : hash origin = 0) : Lossless hash number origin where
  toNat_eq := htoNat
  bijective := Function.bijective_iff_has_inverse.2 ⟨unhash, hleft, hright⟩
  eq_zero_iff item := by rw [← horigin, hleft.injective.eq_iff]

theorem lossless_spread : Lossless spread (fun word => (word.toNat : Int)) 0 :=
  .of_inverse toNat_spread gather_spread spread_gather (by decide)

theorem Key.lossless_hash : Lossless Key.hash Key.toInt .zero :=
  .of_inverse Key.toNat_hash Key.ofHash_hash Key.hash_ofHash (by decide)

section Homes

variable {capacity : Nat}

/-- A key is known by its home and by what is cut off its hash. -/
theorem Key.eq_of_home {left right : Key} (hhome : left.home capacity = right.home capacity)
    (hrest : left.hash.toNat / capacity = right.hash.toNat / capacity) : left = right :=
  Key.lossless_hash.bijective.injective (UInt32.toNat_inj.1 (Nat.ext_div_mod hrest hhome))

theorem Key.exists_home {home rest : Nat} (hhome : home < capacity)
    (hrest : rest < 2 ^ 32 / capacity) :
    ∃ key : Key, key.home capacity = home ∧ key.hash.toNat / capacity = rest := by
  have hword : home + capacity * rest < 2 ^ 32 := by
    calc home + capacity * rest < capacity + capacity * rest := Nat.add_lt_add_right hhome _
      _ = capacity * (rest + 1) := by rw [Nat.mul_succ, Nat.add_comm]
      _ ≤ capacity * (2 ^ 32 / capacity) := Nat.mul_le_mul_left capacity hrest
      _ ≤ 2 ^ 32 := Nat.mul_div_le _ _
  obtain ⟨key, hkey⟩ :=
    Key.lossless_hash.bijective.surjective (UInt32.ofNat (home + capacity * rest))
  have hhash : key.hash.toNat = home + capacity * rest := by
    rw [hkey, UInt32.toNat_ofNat_of_lt' hword]
  obtain ⟨hdiv, hmod⟩ := (Nat.div_mod_unique (Nat.zero_lt_of_lt hhome)).2 ⟨hhash.symm, hhome⟩
  exact ⟨key, hmod, hdiv⟩

theorem maskedHomes (hpower : capacity.isPowerOfTwo) : MaskedHomes capacity where
  masked := Key.hash_and_mask hpower
  apart hne hhome hrest := hne (Key.eq_of_home hhome hrest)
  existsUnique home hhome rest hrest := by
    obtain ⟨key, hkey, hcut⟩ := Key.exists_home hhome hrest
    exact ⟨key, ⟨hkey, hcut⟩, fun other hother =>
      Key.eq_of_home (hother.1.trans hkey.symm) (hother.2.trans hcut.symm)⟩
  injective hwide left right hhome := by
    have huncut : ∀ key : Key, key.hash.toNat / capacity = 0 := fun key =>
      Nat.div_eq_of_lt (key.hash.toNat_lt.trans_le hwide)
    exact Key.eq_of_home hhome ((huncut left).trans (huncut right).symm)

/-- Scattering loses nothing, of a word or of a key, so that keys share homes by the mask alone. -/
theorem Key.hash_lossless (hpower : capacity.isPowerOfTwo) :
    Lossless spread (fun word => (word.toNat : Int)) 0 ∧ Lossless Key.hash Key.toInt .zero ∧
      MaskedHomes capacity :=
  ⟨lossless_spread, Key.lossless_hash, maskedHomes hpower⟩

end Homes

/-- Keys 1 and -282968063 share a home even among 2^30 slots, and differ in the two bits that the
mask cuts off there. -/
theorem Key.hash_lossless_shared :
    (2 ^ 30).isPowerOfTwo ∧ MaskedHomes (2 ^ 30) ∧
      (⟨1⟩ : Key).home (2 ^ 30) = (⟨-282968063⟩ : Key).home (2 ^ 30) ∧
      (⟨1⟩ : Key).hash.toNat / 2 ^ 30 ≠ (⟨-282968063⟩ : Key).hash.toNat / 2 ^ 30 ∧
      (⟨1⟩ : Key).hash ≠ (⟨-282968063⟩ : Key).hash ∧ (⟨-282968063⟩ : Key).hash ≠ 0 := by
  have hpower : (2 ^ 30).isPowerOfTwo := ⟨30, rfl⟩
  have hne : (⟨1⟩ : Key) ≠ ⟨-282968063⟩ := by decide
  have hshared : (⟨1⟩ : Key).home (2 ^ 30) = (⟨-282968063⟩ : Key).home (2 ^ 30) := by decide
  obtain ⟨_, hkeys, hhomes⟩ := Key.hash_lossless hpower
  exact ⟨hpower, hhomes, hshared, hhomes.apart hne hshared, hkeys.bijective.injective.ne hne,
    fun hzero => absurd ((hkeys.eq_zero_iff _).1 hzero) (by decide)⟩

end KeyedArena
