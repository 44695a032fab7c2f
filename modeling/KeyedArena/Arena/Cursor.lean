import KeyedArena.Arena.Basic
/-!
Going through the entries of an arena one after another.

A cursor holds what it has still to look at: the object under key zero, until it is handed out, and
the rest of the two columns.  It passes over the slots that are not in use.
-/

namespace KeyedArena

universe u

variable {V : Type u}

/-- What is still to be looked at. -/
structure Cursor (V : Type u) where
  /-- The object under key zero. -/
  zero : Option V
  /-- The raw key and the object of each slot. -/
  slots : List (Key × Option V)
deriving Repr

def Arena.cursor (arena : Arena V) : Cursor V where
  zero := arena.zero
  slots := arena.slotKeys.zip (arena.slots.toList.map Slot.value?)

/-- The first slot that has a nonzero key and an object, and the cursor behind it. -/
def Cursor.nextSlot? : List (Key × Option V) → Option ((Key × V) × Cursor V)
  | [] => none
  | (_, none) :: rest => nextSlot? rest
  | (key, some value) :: rest =>
      if key ≠ .zero then some ((key, value), ⟨none, rest⟩) else nextSlot? rest

def Cursor.next? (cursor : Cursor V) : Option ((Key × V) × Cursor V) :=
  match cursor.zero with
  | some value => some ((.zero, value), { cursor with zero := none })
  | none => nextSlot? cursor.slots

/-- The number of places that are still to be looked at. -/
def Cursor.places (cursor : Cursor V) : Nat :=
  cursor.slots.length + if cursor.zero.isSome then 1 else 0

theorem Cursor.places_nextSlot?_lt {slots : List (Key × Option V)} {entry : Key × V}
    {after : Cursor V} (hnext : nextSlot? slots = some (entry, after)) :
    after.places < slots.length := by
  induction slots with
  | nil => simp [nextSlot?] at hnext
  | cons slot rest ih =>
      obtain ⟨key, object⟩ := slot
      cases object with
      | none => exact Nat.lt_succ_of_lt (ih hnext)
      | some value =>
          rw [nextSlot?] at hnext
          split at hnext
          · simp only [Option.some.injEq, Prod.mk.injEq] at hnext
            simp [← hnext.2, places]
          · exact Nat.lt_succ_of_lt (ih hnext)

theorem Cursor.places_next?_lt {cursor after : Cursor V} {entry : Key × V}
    (hnext : cursor.next? = some (entry, after)) : after.places < cursor.places := by
  unfold next? at hnext
  cases hzero : cursor.zero with
  | none =>
      rw [hzero] at hnext
      exact Nat.lt_of_lt_of_le (places_nextSlot?_lt hnext) (Nat.le_add_right _ _)
  | some value =>
      simp only [hzero, Option.some.injEq, Prod.mk.injEq] at hnext
      simp [← hnext.2, places, hzero]

/-- All entries that are handed out until there are no more. -/
def Cursor.collect (cursor : Cursor V) : List (Key × V) :=
  match _ : cursor.next? with
  | none => []
  | some (entry, after) => entry :: after.collect
termination_by cursor.places
decreasing_by exact places_next?_lt ‹_›

end KeyedArena
