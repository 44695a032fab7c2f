import KeyedArena.Slots.Basic
/-!
Closing the gap that a removal leaves.

A free slot ends a walk, so an entry beyond a new gap would be lost to its own walk if that walk
leads through the gap.  Such an entry is moved back into the gap, which leaves a gap further on;
the sweep goes on from there to the next free slot.  No slot is ever marked as deleted.
-/

namespace KeyedArena

universe u

variable {V : Type u}

/-- One entry moved back to an earlier slot. -/
structure Move where
  key : Key
  source : Nat
  target : Nat
deriving DecidableEq, Repr

/-- A sweep in progress: the circle, the free slot that is to be filled, and the moves so far, the
latest first. -/
structure Closing (V : Type u) where
  slots : Slots V
  gap : Nat
  moves : List Move
deriving Repr

/-- Whether the walk of the entry at `index` leads through the gap: its home is at least as far
back as the gap is. -/
def passesGap (capacity gap index : Nat) (key : Key) : Bool :=
  decide (distance capacity gap index ≤ distance capacity (key.home capacity) index)

/-- Looks at one slot and moves its entry into the gap if its walk leads through there. -/
def Closing.visit (closing : Closing V) (index : Nat) : Closing V :=
  match closing.slots.look index with
  | .free => closing
  | .full key value =>
      if passesGap closing.slots.size closing.gap index key then
        { slots := (closing.slots.write closing.gap (.full key value)).write index .free
          gap := index
          moves := ⟨key, index, closing.gap⟩ :: closing.moves }
      else closing

/-- Visits slot after slot until one is free, at most the given number of them. -/
def Closing.sweep (closing : Closing V) : Nat → Nat → Closing V
  | _, 0 => closing
  | index, steps + 1 =>
      if (closing.slots.look index).isFree then closing
      else
        let next := following closing.slots.size index
        (closing.visit index).sweep next steps

/-- Frees a slot and closes the gap.  There are no more slots to visit than the others. -/
def Slots.close (slots : Slots V) (index : Nat) : Closing V :=
  let first := following slots.size index
  let others := slots.size - 1
  Closing.sweep ⟨slots.write index .free, index, []⟩ first others

/-- The moves in the order in which they were made. -/
def Closing.journal (closing : Closing V) : List Move := closing.moves.reverse

theorem Closing.size_visit (closing : Closing V) (index : Nat) :
    (closing.visit index).slots.size = closing.slots.size := by
  unfold Closing.visit
  split
  · rfl
  · split
    · simp [Slots.size_write]
    · rfl

theorem Closing.size_sweep (closing : Closing V) (index steps : Nat) :
    (closing.sweep index steps).slots.size = closing.slots.size := by
  induction steps generalizing closing index with
  | zero => rfl
  | succ n ih =>
      rw [Closing.sweep]
      split
      · rfl
      · simp [ih, Closing.size_visit]

theorem Slots.size_close (slots : Slots V) (index : Nat) :
    (slots.close index).slots.size = slots.size := by
  simp [Slots.close, Closing.size_sweep, Slots.size_write]

end KeyedArena
