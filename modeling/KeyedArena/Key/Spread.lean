import KeyedArena.Key.Basic
/-!
Spreading keys over probe slots.

Keys are issued one after another, so an identity hash would file them in one long run.  A
multiplication by an odd constant close to 2^32 divided by the golden ratio, followed by folding
the upper half onto the lower, scatters neighbours while keeping distinct keys distinct.
-/

namespace KeyedArena

/-- An odd word close to 2^32 over the golden ratio. -/
def goldenWord : UInt32 := 0x9e3779b9

/-- Folds the upper half of a word onto its lower half. -/
def foldHalves (word : UInt32) : UInt32 := word ^^^ (word >>> 16)

/-- Scatters a word.  The product is taken modulo 2^32. -/
def spread (word : UInt32) : UInt32 := foldHalves (word * goldenWord)

/-- The hash of a key: its two's complement bits, scattered. -/
def Key.hash (key : Key) : UInt32 := spread key.raw.toUInt32

/-- The slot at which the walk for a key begins in a circle of `capacity` slots. -/
def Key.home (capacity : Nat) (key : Key) : Nat := key.hash.toNat % capacity

theorem Key.home_lt {capacity : Nat} (key : Key) (h : 0 < capacity) :
    key.home capacity < capacity := Nat.mod_lt _ h

/-- In a circle of a power of two slots the home is what a mask leaves of the hash. -/
theorem Key.hash_and_mask {capacity : Nat} (hpower : capacity.isPowerOfTwo) (key : Key) :
    key.hash.toNat &&& (capacity - 1) = key.home capacity := by
  obtain ⟨exponent, rfl⟩ := hpower
  exact Nat.and_two_pow_sub_one_eq_mod _ exponent

end KeyedArena
