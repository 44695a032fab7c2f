import KeyedArena.Proofs.Columns.Table
import KeyedArena.Proofs.Arena.Soundness
/-!
Arenas seen as tables.

The columns of a circle show of each slot its key and its object.  As long as an index lies in the
circle and numbers stay as small as a circle makes them, nothing goes wrong: a column holds what
its slot shows, writing it is writing the slot, and cutting a word by the mask is taking a
remainder.
-/

namespace KeyedArena

open Checked

variable {V β : Type}

def Slots.columns (slots : Slots V) : Columns V where
  keys := slots.map fun slot => slot.key?.getD .zero
  objects := slots.map Slot.value?

def Arena.table (arena : Arena V) : Table V where
  columns := arena.slots.columns
  zero := arena.zero
  mask := arena.capacity - 1
  filled := arena.filled
  growAt := arena.growAt
  nextKey := arena.nextKey
  loadFactor := arena.loadFactor
  ceiling := arena.ceiling

theorem Slots.columns_vacant (capacity : Nat) :
    (Slots.vacant capacity : Slots V).columns = .vacant capacity := by
  simp [Slots.columns, Slots.vacant, Columns.vacant]

theorem Arena.table_vacant (capacity : Nat) (loadFactor : Float) :
    (Arena.vacant capacity loadFactor : Arena V).table = .vacant capacity loadFactor := by
  rw [Arena.table, Arena.capacity_vacant, Arena.vacant, Slots.columns_vacant]
  rfl

theorem Slots.read_map {slots : Slots V} {index : Nat} (hindex : index < slots.size)
    (column : Slot V → β) :
    read (slots.map column) index = .ok (column (slots.look index)) := by
  simp [Checked.read, hindex, Slots.look_eq_getElem hindex]

theorem Slots.write_map {slots : Slots V} {index : Nat} (hindex : index < slots.size)
    (column : Slot V → β) (slot : Slot V) :
    Checked.write (slots.map column) index (column slot) =
      .ok ((slots.write index slot).map column) := by
  simp [Checked.write, hindex, Slots.write, Array.map_setIfInBounds]

theorem Slots.read_keys {slots : Slots V} {index : Nat} (hindex : index < slots.size) :
    read slots.columns.keys index = .ok ((slots.look index).key?.getD .zero) :=
  Slots.read_map hindex _

theorem Slots.read_objects {slots : Slots V} {index : Nat} (hindex : index < slots.size) :
    read slots.columns.objects index = .ok (slots.look index).value? :=
  Slots.read_map hindex _

theorem Slots.write_keys {slots : Slots V} {index : Nat} (hindex : index < slots.size)
    (slot : Slot V) :
    Checked.write slots.columns.keys index (slot.key?.getD .zero) =
      .ok (slots.write index slot).columns.keys :=
  Slots.write_map hindex (fun slot : Slot V => slot.key?.getD .zero) slot

theorem Slots.write_objects {slots : Slots V} {index : Nat} (hindex : index < slots.size)
    (slot : Slot V) :
    Checked.write slots.columns.objects index slot.value? =
      .ok (slots.write index slot).columns.objects :=
  Slots.write_map hindex Slot.value? slot

theorem Checked.hash_eq {key : Key} (hkey : key ≠ .zero) : hash key = .ok key.hash.toNat :=
  if_neg hkey

/-- A circle small enough for its indices to be words, with a power of two of slots. -/
structure Addressable (capacity : Nat) : Prop where
  power : capacity.isPowerOfTwo
  /-- An index and as many steps as there are slots add up to a word. -/
  le_words : 2 * capacity ≤ greatestCount + 1

theorem Addressable.of_le {capacity : Nat} (hpower : capacity.isPowerOfTwo)
    (hmost : capacity ≤ mostSlots) : Addressable capacity :=
  ⟨hpower, (Nat.mul_le_mul_left 2 hmost).trans (by decide)⟩

theorem Addressable.pos {capacity : Nat} (haddressable : Addressable capacity) : 0 < capacity :=
  Nat.pos_of_isPowerOfTwo haddressable.power

theorem Addressable.and_mask {capacity : Nat} (haddressable : Addressable capacity) (n : Nat) :
    n &&& (capacity - 1) = n % capacity := by
  obtain ⟨exponent, rfl⟩ := haddressable.power
  exact Nat.and_two_pow_sub_one_eq_mod n exponent

theorem Checked.word_of_le {n : Nat} (h : n ≤ greatestCount) : word n = .ok n := if_pos h

theorem Checked.word_of_le_slots {n : Nat} (h : n ≤ 2 * mostSlots) : word n = .ok n :=
  word_of_le (h.trans (by decide))

theorem Addressable.ahead_eq {capacity slot steps : Nat} (haddressable : Addressable capacity)
    (hslot : slot < capacity) (hsteps : steps ≤ capacity) :
    ahead (capacity - 1) slot steps = .ok ((slot + steps) % capacity) := by
  have hwords := haddressable.le_words
  rw [ahead, word_of_le (by omega), ok_bind, haddressable.and_mask]
  rfl

theorem Addressable.ahead_one {capacity slot : Nat} (haddressable : Addressable capacity)
    (hslot : slot < capacity) : ahead (capacity - 1) slot 1 = .ok (following capacity slot) :=
  haddressable.ahead_eq hslot haddressable.pos

theorem Addressable.dvd_words {capacity : Nat} (haddressable : Addressable capacity) :
    capacity ∣ greatestCount + 1 := by
  have hwords := haddressable.le_words
  obtain ⟨exponent, rfl⟩ := haddressable.power
  rw [← Nat.pow_succ'] at hwords
  have hexponent : exponent + 1 ≤ 64 :=
    (Nat.pow_le_pow_iff_right (by decide)).1 (hwords.trans (by decide : greatestCount + 1 ≤ 2 ^ 64))
  exact (Nat.pow_dvd_pow 2 (Nat.le_of_lt hexponent)).trans (by decide)

/-- Taking a hash from a slot, as words, and cutting by the mask gives the distance from the home of
the key. -/
theorem Addressable.wrappingSub_hash {capacity slot : Nat} (haddressable : Addressable capacity)
    (key : Key) :
    wrappingSub slot key.hash.toNat &&& (capacity - 1) =
      distance capacity (key.home capacity) slot := by
  obtain ⟨rounds, hwords⟩ := haddressable.dvd_words
  have hpositive := haddressable.pos
  have hhome : key.hash.toNat % capacity = key.home capacity := rfl
  have hsplit := Nat.div_add_mod key.hash.toNat capacity
  have hbound := key.home_lt hpositive
  have hhash : key.hash.toNat < greatestCount + 1 :=
    key.hash.toNat_lt.trans (by decide)
  have hrounds : key.hash.toNat / capacity < rounds :=
    Nat.div_lt_of_lt_mul (hwords ▸ hhash)
  rw [haddressable.and_mask, wrappingSub, Nat.mod_mod_of_dvd _ haddressable.dvd_words, distance,
    hwords]
  rw [hhome] at hsplit
  obtain ⟨more, rfl⟩ : ∃ more, rounds = key.hash.toNat / capacity + 1 + more :=
    ⟨rounds - (key.hash.toNat / capacity + 1), by omega⟩
  have hshift : slot + capacity * (key.hash.toNat / capacity + 1 + more) - key.hash.toNat =
      slot + (capacity - key.home capacity) + capacity * more := by
    rw [Nat.mul_add, Nat.mul_add, Nat.mul_one]
    omega
  rw [hshift, Nat.add_mul_mod_self_left]

end KeyedArena
