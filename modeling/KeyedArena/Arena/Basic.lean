import KeyedArena.Event
import KeyedArena.Sizing
import KeyedArena.Slots.Probe
/-!
Arenas: stores that issue the keys.

An arena files each object under the next unused key and never uses a key again.  Entries live in
a circle of slots, except that the entry under key zero has a place of its own, so that a free slot
need not be told from a zero key.  This module makes arenas and reads them.
-/

namespace KeyedArena

universe u

variable {V : Type u}

/-- How much may be allocated at once: any number of slots, or at most a limit. -/
structure Memory where
  limit : Option Nat := none
deriving DecidableEq, Repr

instance : Inhabited Memory := ⟨{}⟩

def Memory.permits (memory : Memory) (slots : Nat) : Bool :=
  match memory.limit with
  | none => true
  | some limit => slots ≤ limit

/-- A store of objects under keys that it issues itself. -/
structure Arena (V : Type u) where
  /-- The entries under nonzero keys. -/
  slots : Slots V
  /-- The entry under key zero. -/
  zero : Option V
  /-- The number of full slots. -/
  filled : Nat
  /-- The number of full slots at which the next entry needs more of them. -/
  growAt : Nat
  /-- The key to issue next.  It may lie beyond the greatest key. -/
  nextKey : Nat
  /-- The fraction of slots to fill before growing. -/
  loadFactor : Float
  /-- The number of slots that growth must not pass. -/
  ceiling : Nat
deriving Repr

def Arena.vacant (capacity : Nat) (loadFactor : Float) : Arena V where
  slots := .vacant capacity
  zero := none
  filled := 0
  growAt := threshold capacity loadFactor
  nextKey := 0
  loadFactor
  ceiling := mostSlots

/-- The arena that is made without any choice: four entries fit, at three quarters full. -/
def Arena.plain : Arena V :=
  let settings : Settings := {}
  .vacant (settings.slots.toOption.getD leastSlots) settings.loadFactor

instance : Inhabited (Arena V) := ⟨.plain⟩

/-- Makes an arena as asked, and reports its size.  Unsound settings come first among the reasons
to refuse, then too many slots, then want of memory. -/
def Arena.ofSettings (settings : Settings) (memory : Memory) :
    Except Failure (Arena V × Event) :=
  match settings.check with
  | .error failure => .error failure
  | .ok () =>
      match settings.slots with
      | .error failure => .error failure
      | .ok capacity =>
          if memory.permits capacity then
            .ok (.vacant capacity settings.loadFactor,
              .sized settings.expected capacity settings.loadFactor)
          else .error (.capacityExceeded capacity mostSlots)

def Arena.capacity (arena : Arena V) : Nat := arena.slots.size

def Arena.size (arena : Arena V) : Nat :=
  arena.filled + if arena.zero.isSome then 1 else 0

def Arena.isEmpty (arena : Arena V) : Bool := arena.size == 0

def Arena.get? (arena : Arena V) (key : Key) : Option V :=
  if key = .zero then arena.zero
  else (arena.slots.locate? key).bind fun index => (arena.slots.look index).value?

/-- The object under a key, or the failure that there is none. -/
def Arena.get (arena : Arena V) (key : Key) : Except Failure V :=
  match arena.get? key with
  | none => .error (.unassigned key)
  | some value => .ok value

def Arena.contains (arena : Arena V) (key : Key) : Bool :=
  if key = .zero then arena.zero.isSome else (arena.slots.locate? key).isSome

/-- All entries: the one under key zero first, then the others in slot order. -/
def Arena.entries (arena : Arena V) : List (Key × V) :=
  match arena.zero with
  | none => arena.slots.entries
  | some value => (.zero, value) :: arena.slots.entries

def Arena.keys (arena : Arena V) : List Key := arena.entries.map Prod.fst

def Arena.ascendingEntries (arena : Arena V) : List (Key × V) :=
  arena.entries.mergeSort fun left right => decide (left.1 ≤ right.1)

def Arena.ascendingKeys (arena : Arena V) : List Key := Key.ascending arena.keys

/-- The raw key in each slot, with zero where there is none. -/
def Arena.slotKeys (arena : Arena V) : List Key :=
  arena.slots.toList.map fun slot => slot.key?.getD .zero

def Arena.summary (arena : Arena V) : String :=
  "ObjectArena \x7b size: " ++ Nat.repr arena.size ++ ", capacity: "
    ++ Nat.repr arena.capacity ++ " \x7d"

end KeyedArena
