import KeyedArena.Arena.Change
import KeyedArena.Digest
/-!
Many changes in a row, summed up.
-/

namespace KeyedArena

universe u v

variable {V : Type u} {α : Type v}

/-- What comes of a batch: a summary, the arena afterwards, what was reported on the way, and the
failure that ended the batch early. -/
structure Batch (V : Type u) (α : Type v) where
  summary : α
  arena : Arena V
  log : Array Event
  stopped : Option Failure

/-- Files objects until one is refused, digesting the keys. -/
def Arena.addEach (arena : Arena V) (memory : Memory) (values : List V) (digest : Digest)
    (log : Array Event) : Batch V Digest :=
  match values with
  | [] => ⟨digest, arena, log, none⟩
  | value :: rest =>
      match arena.add memory value with
      | ⟨.error failure, after, events⟩ => ⟨digest, after, log ++ events, some failure⟩
      | ⟨.ok key, after, events⟩ =>
          after.addEach memory rest (digest.absorb key.toInt) (log ++ events)

/-- Removes the objects under keys, tallying them by weight.  Keys without an object count as
missing, as do integers that are no keys. -/
def Arena.removeEach (arena : Arena V) (weight : V → Int) (keys : List Int) (tally : Tally)
    (log : Array Event) : Batch V Tally :=
  match keys with
  | [] => ⟨tally, arena, log, none⟩
  | n :: rest =>
      match Key.ofInt? n with
      | none => arena.removeEach weight rest tally.miss log
      | some key =>
          match arena.remove key with
          | ⟨.error _, after, events⟩ => after.removeEach weight rest tally.miss (log ++ events)
          | ⟨.ok value, after, events⟩ =>
              after.removeEach weight rest (tally.hit (weight value)) (log ++ events)

/-- Looks up the objects under keys, tallying them by weight. -/
def Arena.tally (arena : Arena V) (weight : V → Int) (keys : List Int) : Tally :=
  keys.foldl
    (fun tally n =>
      match (Key.ofInt? n).bind arena.get? with
      | none => tally.miss
      | some value => tally.hit (weight value))
    {}

/-- The integers from `first` in strides of `stride`, up or down, as long as they lie before
`bound`.  A stride of zero leads nowhere. -/
def strides (first bound stride : Int) : List Int :=
  let span := if 0 < stride then bound - first else first - bound
  let terms := (span.toNat + (stride.natAbs - 1)) / stride.natAbs
  (List.range terms).map fun n : Nat => first + n * stride

end KeyedArena
