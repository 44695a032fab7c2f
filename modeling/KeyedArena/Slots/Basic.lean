import KeyedArena.Key.Spread
/-!
Slots in a circle.

Entries live in an array whose last slot is followed by its first.  This module holds the array,
its views, and cyclic distance.
-/

namespace KeyedArena

universe u

variable {V : Type u}

/-- One place for an entry. -/
inductive Slot (V : Type u) where
  | free
  | full (key : Key) (value : V)
deriving DecidableEq, Repr

instance : Inhabited (Slot V) := ⟨.free⟩

def Slot.isFree : Slot V → Bool
  | free => true
  | full _ _ => false

def Slot.entry? : Slot V → Option (Key × V)
  | free => none
  | full key value => some (key, value)

def Slot.key? (slot : Slot V) : Option Key := slot.entry?.map Prod.fst

def Slot.value? (slot : Slot V) : Option V := slot.entry?.map Prod.snd

def Slot.holds (key : Key) : Slot V → Bool
  | free => false
  | full stored _ => stored == key

/-- A circle of slots. -/
abbrev Slots (V : Type u) := Array (Slot V)

def Slots.vacant (capacity : Nat) : Slots V := Array.replicate capacity .free

/-- The slot at an index.  There is nothing outside the circle. -/
def Slots.look (slots : Slots V) (index : Nat) : Slot V := slots.getD index .free

def Slots.write (slots : Slots V) (index : Nat) (slot : Slot V) : Slots V :=
  slots.setIfInBounds index slot

def Slots.entries (slots : Slots V) : List (Key × V) := slots.toList.filterMap Slot.entry?

/-- The number of steps forward from one slot to another in a circle of `capacity` slots. -/
def distance (capacity source target : Nat) : Nat := (target + (capacity - source)) % capacity

/-- The slot after the given one in a circle of `capacity` slots. -/
def following (capacity index : Nat) : Nat := (index + 1) % capacity

@[simp] theorem Slot.isFree_free : (free : Slot V).isFree = true := rfl

@[simp] theorem Slot.isFree_full (key : Key) (value : V) : (full key value).isFree = false := rfl

@[simp] theorem Slot.entry?_free : Slot.entry? (free : Slot V) = none := rfl

@[simp] theorem Slot.entry?_full (key : Key) (value : V) :
    Slot.entry? (full key value) = some (key, value) := rfl

@[simp] theorem Slot.key?_free : (free : Slot V).key? = none := rfl

@[simp] theorem Slot.key?_full (key : Key) (value : V) : (full key value).key? = some key := rfl

@[simp] theorem Slot.value?_free : (free : Slot V).value? = none := rfl

@[simp] theorem Slot.value?_full (key : Key) (value : V) :
    (full key value).value? = some value := rfl

theorem Slots.size_vacant (capacity : Nat) : (Slots.vacant capacity : Slots V).size = capacity :=
  Array.size_replicate

theorem Slots.look_vacant (capacity index : Nat) :
    (Slots.vacant capacity : Slots V).look index = .free := by
  simp [Slots.look, Slots.vacant, Array.getD_eq_getD_getElem?, Array.getElem?_replicate]
  split <;> rfl

theorem Slots.look_of_size_le {slots : Slots V} {index : Nat} (h : slots.size ≤ index) :
    slots.look index = .free := by
  simp [Slots.look, Array.getD_eq_getD_getElem?, Array.getElem?_eq_none h]

theorem Slots.size_write (slots : Slots V) (index : Nat) (slot : Slot V) :
    (slots.write index slot).size = slots.size := Array.size_setIfInBounds

theorem Slots.look_write_self {slots : Slots V} {index : Nat} (h : index < slots.size)
    (slot : Slot V) : (slots.write index slot).look index = slot := by
  simp [Slots.look, Slots.write, Array.getD_eq_getD_getElem?, h]

theorem Slots.look_write_of_ne {written read : Nat} (slots : Slots V) (slot : Slot V)
    (h : written ≠ read) : (slots.write written slot).look read = slots.look read := by
  simp [Slots.look, Slots.write, Array.getD_eq_getD_getElem?, Array.getElem?_setIfInBounds_ne h]

theorem distance_lt {capacity : Nat} (source target : Nat) (h : 0 < capacity) :
    distance capacity source target < capacity := Nat.mod_lt _ h

theorem distance_self {capacity index : Nat} (h : index < capacity) :
    distance capacity index index = 0 := by
  unfold distance
  rw [show index + (capacity - index) = capacity by omega, Nat.mod_self]

theorem following_lt {capacity : Nat} (index : Nat) (h : 0 < capacity) :
    following capacity index < capacity := Nat.mod_lt _ h

end KeyedArena
