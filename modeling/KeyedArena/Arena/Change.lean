import KeyedArena.Arena.Basic
/-!
Filing, removing and duplicating objects.

Growth doubles the slots.  It is refused when it would pass the ceiling or when there is no memory
for it; nothing is changed before both are settled, so a refusal leaves the arena as it was.
-/

namespace KeyedArena

universe u v

variable {V : Type u} {α : Type v}

/-- What comes of a change: an answer, the arena afterwards, and what was reported on the way. -/
structure Outcome (V : Type u) (α : Type v) where
  answer : Except Failure α
  arena : Arena V
  log : List Event

/-- A refusal: the arena stays as it was. -/
def Arena.refuse (arena : Arena V) (failure : Failure) (log : List Event) : Outcome V α :=
  ⟨.error failure, arena, log⟩

/-- Why the slots cannot be doubled, and the report of it. -/
def Arena.growthRefusal? (arena : Arena V) (memory : Memory) : Option (Failure × Event) :=
  let wanted := 2 * arena.capacity
  if arena.ceiling < wanted then
    some (.capacityExceeded wanted arena.ceiling, .ceilingReached arena.ceiling wanted)
  else if memory.permits wanted then none
  else some (.capacityExceeded wanted mostSlots, .allocationRefused wanted)

/-- The same entries in twice as many slots. -/
def Arena.grown (arena : Arena V) : Arena V :=
  let wanted := 2 * arena.capacity
  { arena with
    slots := arena.slots.rehash wanted
    growAt := threshold wanted arena.loadFactor }

/-- Files an object under a nonzero key. -/
def Arena.file (arena : Arena V) (key : Key) (value : V) : Arena V :=
  { arena with slots := arena.slots.place key value, filled := arena.filled + 1 }

def Arena.issue (arena : Arena V) : Arena V := { arena with nextKey := arena.nextKey + 1 }

/-- Files an object under the next key.  Only an object that needs a slot when the slots are filled
to the threshold makes them grow; key zero never does. -/
def Arena.add (arena : Arena V) (memory : Memory) (value : V) : Outcome V Key :=
  match Key.ofInt? arena.nextKey with
  | none => arena.refuse .keysExhausted []
  | some key =>
      if key = .zero then ⟨.ok key, { arena with zero := some value }.issue, []⟩
      else if arena.filled = arena.growAt then
        match arena.growthRefusal? memory with
        | some (failure, event) => arena.refuse failure [event]
        | none =>
            let event := .grew arena.capacity (2 * arena.capacity) (arena.filled + 1)
            ⟨.ok key, (arena.grown.file key value).issue, [event]⟩
      else ⟨.ok key, (arena.file key value).issue, []⟩

/-- Files the object under a key once more, under the next key. -/
def Arena.duplicate (arena : Arena V) (memory : Memory) (key : Key) : Outcome V Key :=
  match arena.get? key with
  | none => arena.refuse (.unassigned key) []
  | some value => arena.add memory value

/-- Frees the slot at an index and closes the gap. -/
def Arena.free (arena : Arena V) (index : Nat) : Arena V × List Move :=
  let closing := arena.slots.close index
  ({ arena with slots := closing.slots, filled := arena.filled - 1 }, closing.journal)

def Arena.remove (arena : Arena V) (key : Key) : Outcome V V :=
  if key = .zero then
    match arena.zero with
    | none => arena.refuse (.unassigned key) []
    | some value => ⟨.ok value, { arena with zero := none }, []⟩
  else
    match arena.slots.locate? key with
    | none => arena.refuse (.unassigned key) []
    | some index =>
        match (arena.slots.look index).value? with
        | none => arena.refuse (.unassigned key) []
        | some value =>
            let (after, moves) := arena.free index
            ⟨.ok value, after, moves.map .shifted⟩

/-- Passes over all keys below `key`, as if they had been issued.  Keys never go back. -/
def Arena.advance (arena : Arena V) (key : Nat) : Arena V :=
  { arena with nextKey := max arena.nextKey key }

def Arena.withCeiling (arena : Arena V) (ceiling : Nat) : Arena V := { arena with ceiling }

end KeyedArena
