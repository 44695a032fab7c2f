import KeyedArena.Session
import KeyedArena.Slots.Layout
/-!
The states that an arena can get into.

`Arena.Sound` is what holds between requests; `Arena.WellFormed` is the part of it that looking up,
removing and growing rely on.  `Session.Reachable` are the sessions that begin with
a fresh arena and answer requests as long as a slot is free; a full circle is where walks for
absent keys would never end.
-/

namespace KeyedArena

universe u

variable {V : Type u}

/-- An arena whose parts agree: a power of two slots, a sound circle, a true count, and only keys
that have been issued. -/
structure Arena.Sound (arena : Arena V) : Prop where
  slots : arena.slots.Sound
  power : arena.capacity.isPowerOfTwo
  least : leastSlots ≤ arena.capacity
  counted : arena.filled = arena.slots.entries.length
  issued : ∀ {index : Nat} {key : Key}, (arena.slots.look index).key? = some key →
    0 < key.toInt ∧ key.toInt < arena.nextKey
  zeroIssued : arena.zero.isSome → 0 < arena.nextKey

/-- An arena in which every entry in the slots can be found and is counted.  Its keys may be any,
negative ones included, and it may have any number of slots. -/
structure Arena.WellFormed (arena : Arena V) : Prop where
  slots : arena.slots.Sound
  counted : arena.filled = arena.slots.entries.length

theorem Arena.Sound.wellFormed {arena : Arena V} (hsound : arena.Sound) : arena.WellFormed :=
  ⟨hsound.slots, hsound.counted⟩

/-- The sessions that can come about. -/
inductive Session.Reachable : Session V → Prop where
  | plain (memory : Memory) : Reachable ⟨.plain, memory⟩
  | made {settings : Settings} {memory : Memory} {arena : Arena V} {event : Event}
      (h : Arena.ofSettings settings memory = .ok (arena, event)) : Reachable ⟨arena, memory⟩
  | handle {session : Session V} (request : Request V) (before : Reachable session)
      (room : session.arena.slots.HasRoom) : Reachable (session.handle request).session

end KeyedArena
