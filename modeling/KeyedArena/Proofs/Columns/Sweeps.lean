import KeyedArena.Proofs.Columns.Views
/-!
Sweeps over the columns.

A sweep over the columns leaves the key of an entry that it moves where it was, and so the column
of keys shows a key in the gap until the sweep is over.  The sweep never reads it, since it meets a
free slot before it comes round to the gap.  In all else the columns are those of the circle.
-/

namespace KeyedArena

open Checked

variable {V : Type}

/-- A sweep over columns that has done what a sweep over slots has done which is about to look at
`index`: the gap is still occupied by a key, and apart from that the columns show the slots. -/
structure ColumnSweep.Trails (sweep : ColumnSweep V) (closing : Closing V) (index : Nat) :
    Prop where
  keys : ∃ stale : Slot V,
    sweep.columns.keys = (closing.slots.write closing.gap stale).columns.keys
  objects : sweep.columns.objects = closing.slots.columns.objects
  gap : sweep.gap = closing.gap
  passed : sweep.passed + 1 = distance closing.slots.size closing.gap index

section Step

variable {sweep : ColumnSweep V} {closing : Closing V} {index stop : Nat}

theorem ColumnSweep.Trails.slot_eq (htrails : sweep.Trails closing index)
    (haddressable : Addressable closing.slots.size) (hadvancing : closing.Advancing index stop) :
    word (sweep.passed + 1) = .ok (sweep.passed + 1) ∧
      ahead (closing.slots.size - 1) sweep.gap (sweep.passed + 1) = .ok index := by
  have hround := distance_lt closing.gap index haddressable.pos
  have hwords := haddressable.le_words
  have hpassed := htrails.passed
  refine ⟨word_of_le (by omega), ?_⟩
  rw [htrails.gap, haddressable.ahead_eq hadvancing.gap_lt (by omega), hpassed,
    walk_distance hadvancing.gap_lt hadvancing.index_lt]

theorem ColumnSweep.Trails.read_keys (htrails : sweep.Trails closing index)
    (hadvancing : closing.Advancing index stop) :
    read sweep.columns.keys index = .ok ((closing.slots.look index).key?.getD .zero) := by
  obtain ⟨stale, hkeys⟩ := htrails.keys
  rw [hkeys, Slots.read_keys (by rw [Slots.size_write]; exact hadvancing.index_lt),
    Slots.look_write_of_ne _ _ hadvancing.gap_ne]

theorem ColumnSweep.Trails.pull (htrails : sweep.Trails closing index)
    (hadvancing : closing.Advancing index stop) {key : Key} {value : V}
    (hfull : closing.slots.look index = .full key value) :
    ∃ pulled, sweep.pull index key = .ok pulled ∧
      pulled.Trails (closing.moved index key value) (following closing.slots.size index) := by
  obtain ⟨stale, hkeys⟩ := htrails.keys
  have hindex := hadvancing.index_lt
  have hgap := hadvancing.gap_lt
  have hne := hadvancing.gap_ne
  have hbound : closing.gap < (closing.slots.write closing.gap stale).size := by
    rwa [Slots.size_write]
  -- the key that was moved is still shown in its old slot
  have hshown : (closing.moved index key value).slots.write index (.full key value) =
      closing.slots.write closing.gap (.full key value) := by
    rw [Closing.moved, Slots.write_write]
    apply Slots.write_of_look
    · rwa [Slots.size_write]
    · rw [Slots.look_write_of_ne _ _ hne, hfull]
  have hwriteKey : Checked.write sweep.columns.keys closing.gap key =
      .ok (closing.slots.write closing.gap (.full key value)).columns.keys := by
    have hwrite := Slots.write_keys hbound (.full key value)
    rwa [Slots.write_write, ← hkeys] at hwrite
  have hread : read sweep.columns.objects index = .ok (some value) := by
    rw [htrails.objects, Slots.read_objects hindex, hfull, Slot.value?_full]
  have htake : Checked.write sweep.columns.objects index none =
      .ok (closing.slots.write index .free).columns.objects := by
    rw [htrails.objects]
    exact Slots.write_objects hindex .free
  have hput : Checked.write (closing.slots.write index .free).columns.objects closing.gap
      (some value) = .ok (closing.moved index key value).slots.columns.objects := by
    rw [Closing.moved, Slots.write_comm _ hne]
    exact Slots.write_objects (by rwa [Slots.size_write]) (.full key value)
  refine ⟨⟨⟨(closing.slots.write closing.gap (.full key value)).columns.keys,
    (closing.moved index key value).slots.columns.objects⟩, index, 0⟩, ?_, ?_⟩
  · rw [ColumnSweep.pull, htrails.gap, hwriteKey, ok_bind, hread, ok_bind, htake, ok_bind, hput]
    rfl
  · constructor
    case keys => exact ⟨.full key value, by rw [← hshown]; rfl⟩
    case objects => rfl
    case gap => rfl
    case passed =>
      rw [Closing.size_moved]
      exact (distance_following_one hindex (by omega)).symm

/-- Looking at a full slot in the columns is looking at it in the circle. -/
theorem ColumnSweep.Trails.visit (htrails : sweep.Trails closing index)
    (haddressable : Addressable closing.slots.size) (hadvancing : closing.Advancing index stop)
    {key : Key} {value : V} (hfull : closing.slots.look index = .full key value) :
    ∃ visited,
      sweep.visit (closing.slots.size - 1) (sweep.passed + 1) index key = .ok visited ∧
        visited.Trails (closing.visit index) (following closing.slots.size index) := by
  have hkey : key ≠ .zero := by
    rintro rfl
    exact hadvancing.nonzero index (Slots.key?_of_full hfull)
  rw [ColumnSweep.visit, hash_eq hkey, ok_bind, haddressable.wrappingSub_hash, htrails.passed,
    Closing.visit_of_full hfull]
  by_cases hpasses : distance closing.slots.size closing.gap index ≤
      distance closing.slots.size (key.home closing.slots.size) index
  · have hmoves : passesGap closing.slots.size closing.gap index key = true :=
      decide_eq_true hpasses
    rw [if_pos hpasses, if_pos hmoves]
    exact htrails.pull hadvancing hfull
  · have hstays : ¬passesGap closing.slots.size closing.gap index key = true := by
      rwa [passesGap, decide_eq_true_iff]
    obtain ⟨_, honward, _⟩ := hadvancing.next (Slots.look_ne_free hfull)
    rw [if_neg hpasses, if_neg hstays]
    exact ⟨_, rfl, htrails.keys, htrails.objects, htrails.gap, honward.symm⟩

end Step

/-- A sweep over columns comes to the same end as the sweep over slots that it trails. -/
theorem ColumnSweep.Trails.run {sweep : ColumnSweep V} {closing : Closing V}
    {index stop steps : Nat} (htrails : sweep.Trails closing index)
    (haddressable : Addressable closing.slots.size) (hadvancing : closing.Advancing index stop)
    (hsteps : distance closing.slots.size index stop < steps) :
    ∃ swept last, ColumnSweep.run (closing.slots.size - 1) sweep steps = .ok swept ∧
      swept.Trails (closing.sweep index steps) last ∧
        (closing.sweep index steps).Advancing last stop := by
  induction steps generalizing sweep closing index with
  | zero => omega
  | succ n ih =>
      obtain ⟨hword, hslot⟩ := htrails.slot_eq haddressable hadvancing
      rw [ColumnSweep.run, hword, ok_bind, hslot, ok_bind, htrails.read_keys hadvancing, ok_bind,
        Closing.sweep]
      cases hhere : closing.slots.look index with
      | free => exact ⟨sweep, index, rfl, htrails, hadvancing⟩
      | full key value =>
          have hkey : key ≠ .zero := by
            rintro rfl
            exact hadvancing.nonzero index (Slots.key?_of_full hhere)
          have hsize := closing.size_visit index
          obtain ⟨visited, hvisit, hlater⟩ := htrails.visit haddressable hadvancing hhere
          have hvisited := hadvancing.visit (Slots.look_ne_free hhere)
          obtain ⟨hstopNe, _, _⟩ := hadvancing.next (Slots.look_ne_free hhere)
          have hnearer := distance_following hadvancing.index_lt hadvancing.stop_lt hstopNe
          have hend := ih hlater (hsize.symm ▸ haddressable) hvisited (by rw [hsize]; omega)
          rw [hsize] at hend
          simp only [Slot.key?_full, Option.getD_some, hkey, if_false, Slot.isFree_full,
            Bool.false_eq_true]
          rw [hvisit, ok_bind]
          exact hend

/-- Once the object of a slot has been taken, the columns show what the circle shows when the slot
has been freed. -/
theorem Slots.trails_freed {slots : Slots V} {index : Nat} {key : Key} {value : V}
    (hfull : slots.look index = .full key value) (hround : 1 < slots.size) :
    (⟨⟨slots.columns.keys, (slots.write index .free).columns.objects⟩, index, 0⟩ :
      ColumnSweep V).Trails ⟨slots.write index .free, index, []⟩ (following slots.size index) := by
  have hindex := Slots.lt_size_of_full hfull
  constructor
  case keys =>
    -- the key of the freed slot is shown in the first gap
    refine ⟨.full key value, ?_⟩
    rw [Slots.write_write, Slots.write_of_look hindex hfull]
  case objects => rfl
  case gap => rfl
  case passed =>
    rw [Slots.size_write]
    exact (distance_following_one hindex hround).symm

/-- Freeing a full slot in the columns hands back its object, and what is left in the columns is
what is left in the slots.  It does not matter whether the circle is sound. -/
theorem Slots.HasRoom.close_columns {slots : Slots V} (hroom : slots.HasRoom)
    (haddressable : Addressable slots.size)
    (hnonzero : ∀ index, (slots.look index).key? ≠ some .zero) {index : Nat} {key : Key}
    {value : V} (hfull : slots.look index = .full key value) :
    slots.columns.close (slots.size - 1) index =
      .ok (value, (slots.close index).slots.columns) := by
  obtain ⟨stop, hstop, hfree⟩ := hroom
  have hindex := Slots.lt_size_of_full hfull
  have hne : stop ≠ index := by
    rintro rfl
    exact Slots.look_ne_free hfull hfree
  have hfreed : (slots.write index .free).size = slots.size := slots.size_write _ _
  have hread : read slots.columns.objects index = .ok (some value) := by
    rw [Slots.read_objects hindex, hfull, Slot.value?_full]
  have htake : Checked.write slots.columns.objects index none =
      .ok (slots.write index .free).columns.objects := Slots.write_objects hindex .free
  have htrails := Slots.trails_freed hfull (by omega)
  have hsteps : distance (slots.write index .free).size (following slots.size index) stop <
      slots.size - 1 := by
    rw [hfreed]
    exact distance_following_lt hindex hstop hne
  obtain ⟨swept, last, hrun, hswept, hends⟩ := htrails.run (hfreed.symm ▸ haddressable)
    (Slots.advancing hnonzero hindex hstop hne hfree) hsteps
  have hclosed : Closing.sweep ⟨slots.write index .free, index, []⟩ (following slots.size index)
      (slots.size - 1) = slots.close index := rfl
  rw [hfreed] at hrun
  rw [hclosed] at hswept hends
  have hmark : Checked.write swept.columns.keys swept.gap .zero =
      .ok (slots.close index).slots.columns.keys := by
    obtain ⟨stale, hkeys⟩ := hswept.keys
    have hbound : (slots.close index).gap <
        ((slots.close index).slots.write (slots.close index).gap stale).size := by
      rw [Slots.size_write]
      exact hends.gap_lt
    have hwrite := Slots.write_keys hbound .free
    rwa [Slots.write_write, Slots.write_of_look hends.gap_lt hends.gap_free, ← hkeys,
      ← hswept.gap] at hwrite
  have hleft : read swept.columns.objects swept.gap = .ok none := by
    rw [hswept.objects, hswept.gap, Slots.read_objects hends.gap_lt, hends.gap_free,
      Slot.value?_free]
  rw [Columns.close, hread, ok_bind]
  dsimp only
  rw [htake, ok_bind, hrun, ok_bind, hmark, ok_bind, hleft, ok_bind, hswept.objects]
  rfl

end KeyedArena
