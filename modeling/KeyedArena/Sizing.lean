import KeyedArena.Failure
/-!
How many slots an arena has, and how many of them it fills before it doubles them.
-/

namespace KeyedArena

def leastSlots : Nat := 4

/-- The greatest number of slots, 2^30. -/
def mostSlots : Nat := 1073741824

/-- The least load factor: 99 free slots in 100. -/
def leastLoad : Float := 0.01

/-- The greatest load factor: one free slot in 100. -/
def greatestLoad : Float := 0.99

/-- What the maker of an arena may choose. -/
structure Settings where
  /-- The number of entries that must fit before the first growth. -/
  expected : Nat := 4
  /-- The fraction of slots to fill before growing. -/
  loadFactor : Float := 0.75
deriving BEq, Repr

instance : Inhabited Settings := ⟨{}⟩

/-- Settings are sound when the load factor is in its range, ends included.  What is no number lies
in no range. -/
def Settings.check (s : Settings) : Except Failure Unit :=
  if (Extended.ofFloat leastLoad).atMost (.ofFloat s.loadFactor)
      && (Extended.ofFloat s.loadFactor).atMost (.ofFloat greatestLoad) then .ok ()
  else .error (.loadFactorOutOfRange s.loadFactor leastLoad greatestLoad)

/-- The least power of two that is not below a count. -/
def powerFrom (count : Nat) : Nat :=
  if count ≤ 1 then 1 else 1 <<< ((count - 1).log2 + 1)

/-- The number of slots for `elements` entries at a load factor: a power of two that is not below
their quotient and leaves a slot free. -/
def slotsFor (elements : Nat) (loadFactor : Float) : Except Failure Nat :=
  let length := (quotient elements loadFactor).ceilCount
  if mostSlots < length then .error (.capacityExceeded length mostSlots)
  else
    let length := if length = elements then length + 1 else length
    let slots := max (powerFrom length) leastSlots
    if mostSlots < slots then .error (.capacityExceeded slots mostSlots) else .ok slots

/-- The number of slots to begin with. -/
def Settings.slots (s : Settings) : Except Failure Nat := slotsFor s.expected s.loadFactor

/-- The number of filled slots at which `slots` slots no longer suffice.  One slot always stays
free. -/
def threshold (slots : Nat) (loadFactor : Float) : Nat :=
  min (product slots loadFactor).ceilCount (slots - 1)

end KeyedArena
