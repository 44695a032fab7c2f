import KeyedArena.Proofs.Columns.Sweeps
import KeyedArena.Proofs.Columns.Walks
import KeyedArena.Proofs.Slots.Inspection
/-!
How far walks and sweeps go in a circle that has a free slot and need not be sound.

Keys may be filed twice, or where their walks do not lead.  The walks for a key end all the same,
and so does the sweep from every full slot, in the slots as in the columns.
-/

namespace KeyedArena

open Checked

variable {V : Type}

def ColumnSweep.inspected (mask : Nat) (sweep : ColumnSweep V) : Nat → Checked (List Nat)
  | 0 => .ok []
  | steps + 1 => do
      let passed ← word (sweep.passed + 1)
      let slot ← ahead mask sweep.gap passed
      let existing ← read sweep.columns.keys slot
      if existing = .zero then return [slot]
      else
        let visited ← sweep.visit mask passed slot existing
        let rest ← visited.inspected mask steps
        return slot :: rest

/-- Looks at a slot, the next one after those that the sweep has passed. -/
def ColumnSweep.look (mask : Nat) (sweep : ColumnSweep V) (slot : Nat) :
    Checked (ColumnSweep V) := do
  let passed ← word (sweep.passed + 1)
  let existing ← read sweep.columns.keys slot
  if existing = .zero then return sweep else sweep.visit mask passed slot existing

/-- A sweep over columns that ends has looked at its slots one after another. -/
theorem ColumnSweep.foldlM_inspected {mask steps : Nat} {sweep swept : ColumnSweep V}
    (hrun : ColumnSweep.run mask sweep steps = .ok swept) :
    ∃ places, sweep.inspected mask steps = .ok places ∧
      places.foldlM (ColumnSweep.look mask) sweep = .ok swept := by
  induction steps generalizing sweep with
  | zero => simp [ColumnSweep.run] at hrun
  | succ n ih =>
      rw [ColumnSweep.run] at hrun
      obtain ⟨passed, hpassed, hrun⟩ := bind_eq_ok.1 hrun
      obtain ⟨slot, hslot, hrun⟩ := bind_eq_ok.1 hrun
      obtain ⟨existing, hread, hrun⟩ := bind_eq_ok.1 hrun
      rw [ColumnSweep.inspected, hpassed, ok_bind, hslot, ok_bind, hread, ok_bind]
      by_cases hfree : existing = .zero
      · rw [if_pos hfree] at hrun ⊢
        refine ⟨[slot], rfl, ?_⟩
        rw [List.foldlM_cons, ColumnSweep.look, hpassed, ok_bind, hread, ok_bind, if_pos hfree]
        exact hrun
      · rw [if_neg hfree] at hrun ⊢
        obtain ⟨visited, hvisit, hrun⟩ := bind_eq_ok.1 hrun
        obtain ⟨rest, hrest, hfold⟩ := ih hrun
        rw [hvisit, ok_bind, hrest, ok_bind]
        refine ⟨slot :: rest, rfl, ?_⟩
        rw [List.foldlM_cons, ColumnSweep.look, hpassed, ok_bind, hread, ok_bind, if_neg hfree,
          hvisit, ok_bind]
        exact hfold

theorem ColumnSweep.Trails.inspected_eq {sweep : ColumnSweep V} {closing : Closing V}
    {index stop : Nat} (htrails : sweep.Trails closing index)
    (haddressable : Addressable closing.slots.size) (hadvancing : closing.Advancing index stop)
    (steps : Nat) :
    sweep.inspected (closing.slots.size - 1) steps = .ok (closing.inspected index steps) := by
  induction steps generalizing sweep closing index with
  | zero => rfl
  | succ n ih =>
      obtain ⟨hword, hslot⟩ := htrails.slot_eq haddressable hadvancing
      rw [ColumnSweep.inspected, hword, ok_bind, hslot, ok_bind, htrails.read_keys hadvancing,
        ok_bind, Closing.inspected]
      cases hhere : closing.slots.look index with
      | free => rfl
      | full key value =>
          have hkey : key ≠ .zero := by
            rintro rfl
            exact hadvancing.nonzero index (Slots.key?_of_full hhere)
          have hsize := closing.size_visit index
          obtain ⟨visited, hvisit, hlater⟩ := htrails.visit haddressable hadvancing hhere
          have hvisited := hadvancing.visit (Slots.look_ne_free hhere)
          have hrest := ih hlater (hsize.symm ▸ haddressable) hvisited
          rw [hsize] at hrest
          simp only [Slot.key?_full, Option.getD_some, hkey, if_false, Slot.isFree_full,
            Bool.false_eq_true]
          rw [hvisit, ok_bind, hrest]
          rfl

/-- What the walks for a key come to: one ends at `free`, and the other at `last`, which is where
the key is if it is found. -/
structure Slots.ProbesEnd (slots : Slots V) (key : Key) (free last : Nat) : Prop where
  /-- Both walks begin at the hash of the key, cut by the mask. -/
  home_eq : key.hash.toNat &&& (slots.size - 1) = key.home slots.size
  toFree : slots.WalkEnds Slot.isFree (key.home slots.size) free
  toKey : slots.WalkEnds (fun slot => slot.isFree || slot.holds key) (key.home slots.size) last
  vacancy_eq : slots.vacancy? key = some free
  locate_eq : slots.locate? key = if (slots.look last).holds key then some last else none
  /-- The slot that is found is the first one with the key, if there is no free slot before it. -/
  found_iff : ∀ index, slots.locate? key = some index ↔
    slots.FirstWanted (·.holds key) (key.home slots.size) index ∧
      slots.Unbroken (key.home slots.size) index
  /-- No slot is found exactly when a free one comes before all that have the key. -/
  missing_iff : slots.locate? key = none ↔ ∀ index < slots.size,
    (slots.look index).holds key = true →
      distance slots.size (key.home slots.size) free <
        distance slots.size (key.home slots.size) index
  /-- In the columns, the walk to the key ends after as many steps as the one over the slots. -/
  find_eq : Addressable slots.size → ∀ steps,
    findFrom slots.columns.keys (slots.size - 1) key (key.hash.toNat &&& (slots.size - 1)) steps =
      if distance slots.size (key.home slots.size) last < steps then .ok (slots.locate? key)
      else .error .walkEndless
  /-- In the columns, the walk to a free slot also ends at the key, which it must not meet. -/
  vacant_eq : Addressable slots.size → ∀ steps,
    vacancyFrom slots.columns.keys (slots.size - 1) key (key.hash.toNat &&& (slots.size - 1))
        steps =
      if distance slots.size (key.home slots.size) last < steps then
        if (slots.look last).holds key then .error (.keyMet key) else .ok free
      else .error .walkEndless

/-- What the sweep from a freed slot comes to: it ends at `stop`, the next free slot. -/
structure Slots.SweepEnds (slots : Slots V) (index stop : Nat) : Prop where
  first : slots.FirstWanted Slot.isFree (following slots.size index) stop
  inspected_eq : ∀ steps,
    Closing.inspected ⟨slots.write index .free, index, []⟩ (following slots.size index) steps =
      (stretch slots.size (following slots.size index) stop).take steps
  /-- There are no more slots to look at than the others. -/
  bounded : (stretch slots.size (following slots.size index) stop).length ≤ slots.size - 1
  /-- None of them is looked at twice. -/
  nodup : (stretch slots.size (following slots.size index) stop).Nodup
  /-- With more steps the sweep would do the same. -/
  close_eq : ∀ steps, distance slots.size (following slots.size index) stop < steps →
    Closing.sweep ⟨slots.write index .free, index, []⟩ (following slots.size index) steps =
      slots.close index
  /-- The sweep over the columns looks at the same slots. -/
  columns_eq : Addressable slots.size → ∀ steps,
    ColumnSweep.inspected (slots.size - 1)
        ⟨⟨slots.columns.keys, (slots.write index .free).columns.objects⟩, index, 0⟩ steps =
      .ok ((stretch slots.size (following slots.size index) stop).take steps)
  closed_eq : Addressable slots.size → ∀ key value, slots.look index = .full key value →
    slots.columns.close (slots.size - 1) index = .ok (value, (slots.close index).slots.columns)

section Circle

variable {slots : Slots V}

theorem Slots.HasRoom.probesEnd (hroom : slots.HasRoom) (hpower : slots.size.isPowerOfTwo)
    (hnonzero : ∀ index, (slots.look index).key? ≠ some .zero) {key : Key} (hkey : key ≠ .zero) :
    ∃ free last, slots.ProbesEnd key free last := by
  have ⟨somewhere, hbound, hsomewhere⟩ := hroom
  have hsize : 0 < slots.size := by omega
  have hhome := key.home_lt hsize
  obtain ⟨free, htoFree⟩ := Slots.exists_walkEnds Slot.isFree hbound
    (Slot.isFree_iff.2 hsomewhere) hhome
  obtain ⟨last, htoKey⟩ := Slots.exists_walkEnds (fun slot => slot.isFree || slot.holds key) hbound
    (by rw [hsomewhere, Slot.isFree_free, Bool.true_or]) hhome
  have hlocate : slots.locate? key = if (slots.look last).holds key then some last else none := by
    rw [Slots.locate?, Slots.probe, htoKey.firstFrom_size, Option.filter_some]
  refine ⟨free, last, ?_⟩
  constructor
  case home_eq => exact Key.hash_and_mask hpower key
  case toFree => exact htoFree
  case toKey => exact htoKey
  case vacancy_eq => exact htoFree.firstFrom_size
  case locate_eq => exact hlocate
  case found_iff => exact fun index => Slots.locate?_eq_some_iff hsize
  case missing_iff => exact Slots.locate?_eq_none_iff htoFree.first
  case find_eq =>
    intro haddressable steps
    rw [Key.hash_and_mask haddressable.power, Slots.findFrom_eq haddressable hnonzero hkey hhome,
      htoKey.firstFrom_eq, hlocate]
    by_cases hsteps : distance slots.size (key.home slots.size) last < steps
    · rw [if_pos hsteps, if_pos hsteps]
    · rw [if_neg hsteps, if_neg hsteps]
  case vacant_eq =>
    intro haddressable steps
    have hlast : (slots.look last).holds key = false → last = free := fun hholds =>
      (htoKey.first.isFree_of_not_holds hholds).unique hhome htoFree.first
    rw [Key.hash_and_mask haddressable.power, Slots.vacancyFrom_eq haddressable hnonzero key hhome,
      htoKey.firstFrom_eq]
    by_cases hsteps : distance slots.size (key.home slots.size) last < steps
    · rw [if_pos hsteps, if_pos hsteps]
      cases hholds : (slots.look last).holds key with
      | true => simp [hholds]
      | false =>
          obtain rfl := hlast hholds
          simp [hholds]
    · rw [if_neg hsteps, if_neg hsteps]

theorem Slots.HasRoom.sweepEnds (hroom : slots.HasRoom)
    (hnonzero : ∀ index, (slots.look index).key? ≠ some .zero) {index : Nat}
    (hfull : slots.look index ≠ .free) : ∃ stop, slots.SweepEnds index stop := by
  have hindex := Slots.lt_size_of_look_ne_free hfull
  have hround := hroom.one_lt_size hfull
  have hnext := following_lt index (by omega : 0 < slots.size)
  have hkept := slots.size_write index .free
  have ⟨somewhere, hbound, hsomewhere⟩ := hroom
  obtain ⟨stop, hfirst⟩ := Slots.exists_firstWanted Slot.isFree hbound
    (Slot.isFree_iff.2 hsomewhere) (following slots.size index)
  have hfree : slots.look stop = .free := Slot.isFree_iff.1 hfirst.found
  have hne : stop ≠ index := by
    rintro rfl
    exact hfull hfree
  refine ⟨stop, ?_⟩
  constructor
  case first => exact hfirst
  case inspected_eq => exact hfirst.inspected_freed hindex hne
  case bounded =>
    rw [length_stretch]
    exact distance_following_lt hindex hfirst.lt_size hne
  case nodup => exact nodup_stretch hnext hfirst.lt_size
  case close_eq => exact fun steps hsteps => hfirst.sweep_freed hindex hne hsteps
  case columns_eq =>
    intro haddressable steps
    obtain ⟨key, value, hslot⟩ :=
      Slot.isFree_eq_false_iff.1 (Slot.isFree_eq_false_iff_ne.2 hfull)
    have htrailed := (Slots.trails_freed hslot hround).inspected_eq (hkept.symm ▸ haddressable)
      (Slots.advancing hnonzero hindex hfirst.lt_size hne hfree) steps
    rwa [hkept, hfirst.inspected_freed hindex hne] at htrailed
  case closed_eq =>
    exact fun haddressable key value hslot => hroom.close_columns haddressable hnonzero hslot

/-- Every walk for a key and every sweep ends in a circle with a free slot, each at the slot at
which it should, whatever else the circle holds. -/
theorem Slots.HasRoom.loops_end (hroom : slots.HasRoom) (hpower : slots.size.isPowerOfTwo)
    (hnonzero : ∀ index, (slots.look index).key? ≠ some .zero) :
    (∀ key ≠ .zero, ∃ free last, slots.ProbesEnd key free last) ∧
      ∀ index, slots.look index ≠ .free → ∃ stop, slots.SweepEnds index stop :=
  ⟨fun _ hkey => hroom.probesEnd hpower hnonzero hkey,
    fun _ hfull => hroom.sweepEnds hnonzero hfull⟩

/-- Key 9, whose home is slot 2, is filed twice, and key 3 is filed where no walk for it leads,
since its home is free.  The sweep from slot 2 moves both entries under key 9 and looks at all other
slots. -/
theorem Slots.HasRoom.loops_end_unsound :
    let slots : Slots Nat := #[.full ⟨9⟩ 10, .free, .full ⟨3⟩ 20, .full ⟨9⟩ 30]
    slots.HasRoom ∧ slots.size.isPowerOfTwo ∧ (∀ index, (slots.look index).key? ≠ some .zero) ∧
      (∃ free last, slots.ProbesEnd ⟨9⟩ free last) ∧ (∃ stop, slots.SweepEnds 2 stop) ∧
      slots.locate? ⟨9⟩ = some 3 ∧ slots.locate? ⟨3⟩ = none ∧
      Closing.inspected ⟨slots.write 2 .free, 2, []⟩ 3 4 = [3, 0, 1] := by
  intro slots
  have hroom : slots.HasRoom := ⟨1, by decide, by decide⟩
  have hpower : slots.size.isPowerOfTwo := ⟨2, rfl⟩
  have hnonzero : ∀ index, (slots.look index).key? ≠ some .zero := by
    have hinside : ∀ index < 4, (slots.look index).key? ≠ some .zero := by decide
    intro index
    rcases Nat.lt_or_ge index 4 with hindex | hout
    · exact hinside index hindex
    · rw [Slots.look_of_size_le hout]
      exact nofun
  obtain ⟨hprobes, hsweeps⟩ := Slots.HasRoom.loops_end hroom hpower hnonzero
  exact ⟨hroom, hpower, hnonzero, hprobes ⟨9⟩ (by decide), hsweeps 2 (by decide), by decide,
    by decide, by decide⟩

end Circle

end KeyedArena
