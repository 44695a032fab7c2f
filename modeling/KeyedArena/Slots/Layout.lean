import Mathlib.Algebra.BigOperators.Intervals
import KeyedArena.Slots.Closing
import KeyedArena.Slots.Probe
/-!
What a circle of slots looks like when every entry can be found.

A walk stops at the first free slot, so an entry is found exactly when all slots from its home up
to its own are full.  This is a property of the circle as a whole: it does not say in which order
the entries were filed.
-/

namespace KeyedArena

universe u

variable {V : Type u}

/-- All slots on the way from `start` up to, but not including, `index` are full. -/
def Slots.Unbroken (slots : Slots V) (start index : Nat) : Prop :=
  ∀ steps < distance slots.size start index,
    (slots.look ((start + steps) % slots.size)).isFree = false

/-- A circle in which every entry can be found: no slot is filed under key zero, no key is filed
twice, and no walk is broken. -/
structure Slots.Sound (slots : Slots V) : Prop where
  nonzero : ∀ index, (slots.look index).key? ≠ some .zero
  distinct : ∀ {first second : Nat} {key : Key},
    (slots.look first).key? = some key → (slots.look second).key? = some key → first = second
  unbroken : ∀ {index : Nat} {key : Key},
    (slots.look index).key? = some key → slots.Unbroken (key.home slots.size) index

/-- Whether a slot is free.  Every walk ends then. -/
def Slots.HasRoom (slots : Slots V) : Prop := ∃ index < slots.size, slots.look index = .free

def Slots.occupied (slots : Slots V) : Finset Nat :=
  (Finset.range slots.size).filter fun index => (slots.look index).isFree = false

/-- How far the entry in a slot is from its home. -/
def Slots.displacement (slots : Slots V) (index : Nat) : Nat :=
  match (slots.look index).key? with
  | none => 0
  | some key => distance slots.size (key.home slots.size) index

/-- How far all entries together are from their homes: what looking each of them up once costs. -/
def Slots.totalDisplacement (slots : Slots V) : Nat :=
  ∑ index ∈ slots.occupied, slots.displacement index

/-- The slots from one to another, both included, in the order of a walk. -/
def stretch (capacity first last : Nat) : List Nat :=
  List.iterate (following capacity) first (distance capacity first last + 1)

/-- The slots that a walk looks at, in order. -/
def Slots.inspected (slots : Slots V) (wanted : Slot V → Bool) : Nat → Nat → List Nat
  | _, 0 => []
  | start, steps + 1 =>
      if wanted (slots.look start) then [start]
      else start :: slots.inspected wanted (following slots.size start) steps

def Closing.inspected (closing : Closing V) : Nat → Nat → List Nat
  | _, 0 => []
  | index, steps + 1 =>
      if (closing.slots.look index).isFree then [index]
      else index :: (closing.visit index).inspected (following closing.slots.size index) steps

/-- Carries out one move of a journal on a circle that does not know it yet. -/
def Slots.replayMove (slots : Slots V) (move : Move) : Slots V :=
  slots.write move.target (slots.look move.source)

/-- The gap that is left by a journal: where its last move came from, or the slot that was freed. -/
def lastGap (freed : Nat) (journal : List Move) : Nat :=
  (journal.map Move.source).getLastD freed

/-- Carries out a journal move by move and clears the slot that is left. -/
def Slots.replay (slots : Slots V) (freed : Nat) (journal : List Move) : Slots V :=
  (journal.foldl Slots.replayMove slots).write (lastGap freed journal) .free

end KeyedArena
