import KeyedArena.Session
/-!
Arenas as they lie in memory: two columns, and counters that are words.

A table keeps the raw key of each slot in one column, with zero for a free slot, and the object in
another one beside it.  It reads and writes one place of a column at a time.  Whatever could go
wrong on the way is a fault, and a fault is no refusal: it ends the work without an answer.
-/

namespace KeyedArena

variable {V α : Type}

/-- What can go wrong with columns and words. -/
inductive Fault where
  /-- A column has no place at the index. -/
  | outOfBounds (index : Nat)
  /-- A sum or a product is too great for a word. -/
  | wordExceeded
  /-- The next key is too great for a signed word. -/
  | counterExceeded
  /-- A count of nothing is to be lowered. -/
  | belowZero
  /-- A slot that is to be freed holds no object. -/
  | objectMissing
  /-- A slot that is marked as free still holds an object. -/
  | objectLeft
  /-- Key zero is issued while there is an object under it. -/
  | zeroTaken
  /-- A key turns up on the walk to the slot in which it is to be filed. -/
  | keyMet (key : Key)
  /-- Key zero is hashed. -/
  | zeroHashed
  /-- A walk has come round without meeting its end. -/
  | walkEndless
deriving DecidableEq, Repr

/-- A result, or the fault that there is in its place. -/
abbrev Checked (α : Type) := Except Fault α

namespace Checked

@[simp] theorem ok_bind {β : Type} (result : α) (next : α → Checked β) :
    ((.ok result : Checked α) >>= next) = next result := rfl

@[simp] theorem pure_eq (result : α) : (pure result : Checked α) = .ok result := rfl

theorem bind_eq_ok {β : Type} {result : Checked α} {next : α → Checked β} {final : β} :
    result >>= next = .ok final ↔ ∃ value, result = .ok value ∧ next value = .ok final := by
  cases result with
  | ok value => simp
  | error fault => exact ⟨nofun, fun ⟨_, hvalue, _⟩ => nomatch hvalue⟩

def require (holds : Bool) (fault : Fault) : Checked Unit :=
  if holds then .ok () else .error fault

/-- A sum or a product, which has to be a word. -/
def word (n : Nat) : Checked Nat := if n ≤ greatestCount then .ok n else .error .wordExceeded

def pred (n : Nat) : Checked Nat := if n = 0 then .error .belowZero else .ok (n - 1)

/-- The greatest signed word, 2^63 - 1. -/
def greatestCounter : Nat := 9223372036854775807

/-- The key to issue next, which is kept in a signed word. -/
def counter (n : Nat) : Checked Nat :=
  if n ≤ greatestCounter then .ok n else .error .counterExceeded

def read (column : Array α) (index : Nat) : Checked α :=
  match column[index]? with
  | none => .error (.outOfBounds index)
  | some held => .ok held

def write (column : Array α) (index : Nat) (held : α) : Checked (Array α) :=
  if index < column.size then .ok (column.setIfInBounds index held)
  else .error (.outOfBounds index)

/-- The hash of a key other than zero, as a word. -/
def hash (key : Key) : Checked Nat :=
  if key = .zero then .error .zeroHashed else .ok key.hash.toNat

/-- The difference of two words, modulo the number of words. -/
def wrappingSub (left right : Nat) : Nat :=
  (left + (greatestCount + 1) - right) % (greatestCount + 1)

def ahead (mask slot steps : Nat) : Checked Nat := do
  let reach ← word (slot + steps)
  return reach &&& mask

/-- Walks on until `key` or a free slot turns up, and says where the key is. -/
def findFrom (keys : Array Key) (mask : Nat) (key : Key) : Nat → Nat → Checked (Option Nat)
  | _, 0 => .error .walkEndless
  | slot, steps + 1 => do
      let existing ← read keys slot
      if existing = .zero then return none
      else if existing = key then return some slot
      else
        let after ← ahead mask slot 1
        findFrom keys mask key after steps

/-- Walks on until a free slot turns up, which `key` must not do before. -/
def vacancyFrom (keys : Array Key) (mask : Nat) (key : Key) : Nat → Nat → Checked Nat
  | _, 0 => .error .walkEndless
  | slot, steps + 1 => do
      let existing ← read keys slot
      if existing = .zero then return slot
      else
        require (existing ≠ key) (.keyMet key)
        let after ← ahead mask slot 1
        vacancyFrom keys mask key after steps

/-- Where a key is found, on the walk from its home around the circle. -/
def find (keys : Array Key) (mask : Nat) (key : Key) : Checked (Option Nat) := do
  let hash ← hash key
  findFrom keys mask key (hash &&& mask) (mask + 1)

/-- Where a key is to be filed, on the walk from its home around the circle. -/
def vacancy (keys : Array Key) (mask : Nat) (key : Key) : Checked Nat := do
  let hash ← hash key
  vacancyFrom keys mask key (hash &&& mask) (mask + 1)

end Checked

open Checked

structure Columns (V : Type) where
  keys : Array Key
  objects : Array (Option V)
deriving DecidableEq, Repr

def Columns.vacant (capacity : Nat) : Columns V where
  keys := Array.replicate capacity .zero
  objects := Array.replicate capacity none

/-- Files a key, along with the object that belongs to it. -/
def Columns.place (columns : Columns V) (mask : Nat) (key : Key) (object : Option V) :
    Checked (Columns V) := do
  let slot ← vacancy columns.keys mask key
  let keys ← write columns.keys slot key
  let objects ← write columns.objects slot object
  return ⟨keys, objects⟩

/-- Files what the columns show of an old slot, unless that slot is free. -/
def Columns.carry (mask : Nat) (columns : Columns V) (old : Key × Option V) :
    Checked (Columns V) :=
  if old.1 = .zero then .ok columns else columns.place mask old.1 old.2

/-- Files the keys of other columns, in slot order, each along with its object. -/
def Columns.placeAll (columns : Columns V) (mask : Nat) (old : Columns V) : Checked (Columns V) :=
  (old.keys.toList.zip old.objects.toList).foldlM (Columns.carry mask) columns

/-- A sweep in progress: the gap that is to be filled, whose key is still in its column, and the
number of slots looked at since. -/
structure ColumnSweep (V : Type) where
  columns : Columns V
  gap : Nat
  passed : Nat

/-- Moves the key and the object of a slot back into the gap. -/
def ColumnSweep.pull (sweep : ColumnSweep V) (slot : Nat) (key : Key) :
    Checked (ColumnSweep V) := do
  let keys ← write sweep.columns.keys sweep.gap key
  let object ← read sweep.columns.objects slot
  let taken ← write sweep.columns.objects slot none
  let objects ← write taken sweep.gap object
  return ⟨⟨keys, objects⟩, slot, 0⟩

/-- Looks at a full slot, the given number of slots after the gap, and pulls its entry back if the
walk of the entry has come through the gap. -/
def ColumnSweep.visit (mask : Nat) (sweep : ColumnSweep V) (passed slot : Nat) (key : Key) :
    Checked (ColumnSweep V) := do
  let hash ← hash key
  if passed ≤ wrappingSub slot hash &&& mask then sweep.pull slot key
  else return { sweep with passed }

def ColumnSweep.run (mask : Nat) (sweep : ColumnSweep V) : Nat → Checked (ColumnSweep V)
  | 0 => .error .walkEndless
  | steps + 1 => do
      let passed ← word (sweep.passed + 1)
      let slot ← ahead mask sweep.gap passed
      let existing ← read sweep.columns.keys slot
      if existing = .zero then return sweep
      else
        let visited ← sweep.visit mask passed slot existing
        visited.run mask steps

/-- Frees a slot, closes the gap, and hands back the object that was in the slot.  There are no more
slots to look at than the others. -/
def Columns.close (columns : Columns V) (mask slot : Nat) : Checked (V × Columns V) := do
  let removed ← read columns.objects slot
  match removed with
  | none => .error .objectMissing
  | some value =>
      let objects ← write columns.objects slot none
      let swept ← ColumnSweep.run mask ⟨⟨columns.keys, objects⟩, slot, 0⟩ mask
      let keys ← write swept.columns.keys swept.gap .zero
      let left ← read swept.columns.objects swept.gap
      require left.isNone .objectLeft
      return (value, ⟨keys, swept.columns.objects⟩)

/-- An arena as it lies in memory. -/
structure Table (V : Type) where
  columns : Columns V
  zero : Option V
  /-- One less than the number of slots, which is a power of two. -/
  mask : Nat
  filled : Nat
  growAt : Nat
  nextKey : Nat
  loadFactor : Float
  ceiling : Nat

def Table.vacant (capacity : Nat) (loadFactor : Float) : Table V where
  columns := .vacant capacity
  zero := none
  mask := capacity - 1
  filled := 0
  growAt := threshold capacity loadFactor
  nextKey := 0
  loadFactor
  ceiling := mostSlots

def Table.get? (table : Table V) (key : Key) : Checked (Option V) :=
  if key = .zero then .ok table.zero
  else do
    match ← find table.columns.keys table.mask key with
    | none => .ok none
    | some slot => read table.columns.objects slot

def Table.get (table : Table V) (key : Key) : Checked (Except Failure V) := do
  match ← table.get? key with
  | none => return .error (.unassigned key)
  | some value => return .ok value

def Table.contains (table : Table V) (key : Key) : Checked Bool :=
  if key = .zero then .ok table.zero.isSome
  else do
    let slot ← find table.columns.keys table.mask key
    return slot.isSome

def Table.size (table : Table V) : Checked Nat :=
  word (table.filled + if table.zero.isSome then 1 else 0)

/-- Files a key in twice as many slots, after all others, or refuses to double them. -/
def Table.grow (table : Table V) (memory : Memory) (key : Key) (value : V) :
    Checked (Except Failure (Table V)) := do
  let capacity ← word (table.mask + 1)
  let wanted ← word (capacity * 2)
  if table.ceiling < wanted then return .error (.capacityExceeded wanted table.ceiling)
  else if memory.permits wanted then
    let mask ← pred wanted
    let moved ← (Columns.vacant wanted).placeAll mask table.columns
    let columns ← moved.place mask key (some value)
    return .ok { table with columns, mask, growAt := threshold wanted table.loadFactor }
  else return .error (.capacityExceeded wanted mostSlots)

def Table.count (table : Table V) : Checked (Table V) := do
  let filled ← word (table.filled + 1)
  return { table with filled }

def Table.issue (table : Table V) : Checked (Table V) := do
  let nextKey ← counter (table.nextKey + 1)
  return { table with nextKey }

def Table.add (table : Table V) (memory : Memory) (value : V) :
    Checked (Except Failure Key × Table V) :=
  match Key.ofInt? table.nextKey with
  | none => .ok (.error .keysExhausted, table)
  | some key =>
      if key = .zero then do
        require table.zero.isNone .zeroTaken
        let after ← { table with zero := some value }.issue
        return (.ok key, after)
      else if table.filled = table.growAt then do
        match ← table.grow memory key value with
        | .error failure => return (.error failure, table)
        | .ok grown =>
            let counted ← grown.count
            let after ← counted.issue
            return (.ok key, after)
      else do
        let columns ← table.columns.place table.mask key (some value)
        let counted ← { table with columns }.count
        let after ← counted.issue
        return (.ok key, after)

def Table.duplicate (table : Table V) (memory : Memory) (key : Key) :
    Checked (Except Failure Key × Table V) := do
  match ← table.get key with
  | .error failure => return (.error failure, table)
  | .ok value => table.add memory value

def Table.remove (table : Table V) (key : Key) : Checked (Except Failure V × Table V) :=
  if key = .zero then
    match table.zero with
    | none => .ok (.error (.unassigned key), table)
    | some value => .ok (.ok value, { table with zero := none })
  else do
    match ← find table.columns.keys table.mask key with
    | none => return (.error (.unassigned key), table)
    | some slot =>
        let (value, columns) ← table.columns.close table.mask slot
        let filled ← pred table.filled
        return (.ok value, { table with columns, filled })

/-- The answer that a result makes under a reading of its successes. -/
def Answer.ofResult (read : α → Answer V) : Except Failure α → Answer V
  | .ok result => read result
  | .error failure => .refused failure

/-- Answers a request.  What follows the answer is the table and the memory afterwards. -/
def Table.handle (table : Table V) (memory : Memory) :
    Request V → Checked (Answer V × Table V × Memory)
  | .add value => do
      let (result, after) ← table.add memory value
      return (.ofResult .key result, after, memory)
  | .get key => do
      let result ← table.get key
      return (.ofResult .value result, table, memory)
  | .remove key => do
      let (result, after) ← table.remove key
      return (.ofResult .value result, after, memory)
  | .duplicate key => do
      let (result, after) ← table.duplicate memory key
      return (.ofResult .key result, after, memory)
  | .contains key => do
      let holds ← table.contains key
      return (.truth holds, table, memory)
  | .size => do
      let entries ← table.size
      return (.count entries, table, memory)
  | .isEmpty => do
      let entries ← table.size
      return (.truth (entries == 0), table, memory)
  | .advance key => .ok (.done, { table with nextKey := max table.nextKey key }, memory)
  | .setCeiling ceiling => .ok (.done, { table with ceiling }, memory)
  | .setMemory memory => .ok (.done, table, memory)

def Table.run (table : Table V) (memory : Memory) :
    List (Request V) → Checked (List (Answer V) × Table V × Memory)
  | [] => .ok ([], table, memory)
  | request :: rest => do
      let (answer, after, left) ← table.handle memory request
      let (answers, final) ← after.run left rest
      return (answer :: answers, final)

end KeyedArena
