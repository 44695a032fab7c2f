import KeyedArena.Binary64.Text
import KeyedArena.Key.Text
import KeyedArena.Slots.Closing
/-!
What an arena reports while it works.
-/

namespace KeyedArena

/-- How much a report matters. -/
inductive Level where
  | trace
  | debug
  | warn
deriving DecidableEq, Repr

def Level.text : Level → String
  | trace => "TRACE"
  | debug => "DEBUG"
  | warn => "WARN"

inductive Event where
  /-- An arena was made. -/
  | sized (expected slots : Nat) (loadFactor : Float)
  /-- The slots were doubled; `entries` counts the one that made it necessary. -/
  | grew (old new entries : Nat)
  /-- Doubling would pass the ceiling. -/
  | ceilingReached (ceiling requested : Nat)
  /-- There was no memory for the doubled slots. -/
  | allocationRefused (requested : Nat)
  /-- An entry was moved back into a gap. -/
  | shifted (move : Move)
deriving Repr

def Event.level : Event → Level
  | sized .. => .debug
  | grew .. => .debug
  | ceilingReached .. => .warn
  | allocationRefused .. => .warn
  | shifted .. => .trace

def Event.message : Event → String
  | sized expected slots loadFactor =>
      "key table sized for " ++ Nat.repr expected ++ " elements: " ++ Nat.repr slots
        ++ " slots, load factor " ++ shortestText loadFactor
  | grew old new entries =>
      "key table grew from " ++ Nat.repr old ++ " to " ++ Nat.repr new ++ " slots ("
        ++ Nat.repr entries ++ " entries)"
  | ceilingReached ceiling requested =>
      "key table cannot grow past " ++ Nat.repr ceiling ++ " slots (requested "
        ++ Nat.repr requested ++ ")"
  | allocationRefused requested =>
      "allocation failed while growing key table to " ++ Nat.repr requested ++ " slots"
  | shifted move =>
      "shifting key " ++ move.key.text ++ " from slot " ++ Nat.repr move.source ++ " to "
        ++ Nat.repr move.target

/-- An event as a line of a log. -/
def Event.line (event : Event) : String := event.level.text ++ " " ++ event.message

end KeyedArena
