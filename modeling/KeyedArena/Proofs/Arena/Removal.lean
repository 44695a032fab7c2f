import KeyedArena.Proofs.Session.Runs
import KeyedArena.Proofs.Slots.Shifts
/-!
Removing an entry, slot by slot.

A removal clears one key and moves others only as far as that is needed to keep them in reach: back
along their own walks, once at most, and only between the freed slot and the next free one.
-/

namespace KeyedArena

universe u

variable {V : Type u}

theorem Shifted.reverse {capacity : Nat} {moves : List Move} {key : Key} {place now : Nat}
    (hshifted : Shifted capacity moves key place now) :
    Shifted capacity moves.reverse key place now := by
  cases hshifted with
  | stayed hmoves => exact .stayed (by rw [List.filter_reverse, hmoves, List.reverse_nil])
  | moved hsooner hmoves =>
      exact .moved hsooner (by rw [List.filter_reverse, hmoves, List.reverse_singleton])

theorem Shifted.distance_le {capacity : Nat} {moves : List Move} {key : Key} {place now : Nat}
    (hshifted : Shifted capacity moves key place now) :
    distance capacity (key.home capacity) now ≤ distance capacity (key.home capacity) place := by
  cases hshifted with
  | stayed hmoves => exact Nat.le_refl _
  | moved hsooner hmoves => exact Nat.le_of_lt hsooner

theorem Slots.Sound.key?_close_ne {slots : Slots V} (hsound : slots.Sound) (hroom : slots.HasRoom)
    {index : Nat} {key : Key} {value : V} (hfull : slots.look index = .full key value)
    (place : Nat) : ((slots.close index).slots.look place).key? ≠ some key := by
  have hentries := (hsound.close hroom hfull).2
  have hnodup := (hentries.map Prod.fst).nodup_iff.1 hsound.keys_nodup
  rw [List.map_cons, List.nodup_cons] at hnodup
  intro hkey
  exact hnodup.1 (Slots.mem_keys_iff.2 ⟨place, hkey⟩)

/-- What it is for an arena to give up the entry in a slot: `after` is the arena left, `journal`
the moves made on the way. -/
structure Arena.Vacates (arena : Arena V) (key : Key) (slot : Nat) (journal : List Move)
    (after : Arena V) : Prop where
  gone : ∀ place, (after.slots.look place).key? ≠ some key
  /-- Every other entry is in one slot, with its own object and within reach, and has come there by
  staying or by one move to a slot that its walk reaches sooner. -/
  kept : ∀ {place : Nat} {other : Key} {held : V}, place ≠ slot →
    arena.slots.look place = .full other held →
      ∃ now, after.slots.look now = .full other held ∧
        (∀ again, (after.slots.look again).key? = some other → again = now) ∧
        after.slots.Unbroken (other.home after.capacity) now ∧
        after.slots.locate? other = some now ∧
        Shifted arena.capacity journal other place now ∧
        distance arena.capacity (other.home arena.capacity) now ≤
          distance arena.capacity (other.home arena.capacity) place
  /-- There is no entry that was not there before. -/
  nothing_else : ∀ {now : Nat} {other : Key} {held : V}, after.slots.look now = .full other held →
    ∃ place ≠ slot, arena.slots.look place = .full other held
  /-- Only slots before the next free one are changed, and just one of them is full no longer. -/
  within : ∃ stop, arena.slots.FirstWanted Slot.isFree (following arena.capacity slot) stop ∧
    (∀ place < arena.capacity,
      distance arena.capacity slot stop ≤ distance arena.capacity slot place →
        after.slots.look place = arena.slots.look place) ∧
    ∃ emptied < arena.capacity,
      distance arena.capacity slot emptied < distance arena.capacity slot stop ∧
        (arena.slots.look emptied).isFree = false ∧ after.slots.look emptied = .free ∧
        ∀ place ≠ emptied, (after.slots.look place).isFree = (arena.slots.look place).isFree
  counted : after.filled + 1 = arena.filled
  capacity : after.capacity = arena.capacity
  rest : after = { arena with slots := after.slots, filled := after.filled }

/-- Removing the object under a nonzero key hands it back, frees the slot of the key and reports the
moves that this makes necessary. -/
theorem Arena.WellFormed.remove_eq {arena : Arena V} (hformed : arena.WellFormed) {key : Key}
    {value : V} {slot : Nat} (hfull : arena.slots.look slot = .full key value) :
    arena.remove key =
      ⟨.ok value, (arena.free slot).1, (arena.slots.close slot).journal.map .shifted⟩ := by
  have hkey := Slots.key?_of_full hfull
  have hnonzero : key ≠ .zero := by
    rintro rfl
    exact hformed.slots.nonzero slot hkey
  rw [Arena.remove, if_neg hnonzero, hformed.slots.locate?_eq_some_iff.2 hkey]
  simp only [hfull, Slot.value?_full, Arena.free]

theorem Arena.WellFormed.vacates {arena : Arena V} (hformed : arena.WellFormed)
    (hroom : arena.slots.HasRoom) {key : Key} {value : V} {slot : Nat}
    (hfull : arena.slots.look slot = .full key value) :
    arena.Vacates key slot (arena.slots.close slot).journal (arena.free slot).1 := by
  have hne := Slots.look_ne_free hfull
  obtain ⟨hclosed, hentries⟩ := hformed.slots.close hroom hfull
  obtain ⟨last, hlast, htrailing, hgap, _⟩ := hformed.slots.close_trailing hroom hne
  obtain ⟨hgapFull, hgapFree, hothers⟩ := hformed.slots.isFree_close hroom hne
  have hsize := arena.slots.size_close slot
  constructor
  case gone => exact hformed.slots.key?_close_ne hroom hfull
  case kept =>
    intro place other held hplaceNe hplace
    obtain ⟨now, hnow, hshifted⟩ := htrailing.survived hplace hplaceNe
    have hkey := Slots.key?_of_full hnow
    exact ⟨now, hnow, fun again hagain => hclosed.distinct hagain hkey, hclosed.unbroken hkey,
      hclosed.locate?_eq_some_iff.2 hkey, hshifted.reverse, hshifted.distance_le⟩
  case nothing_else =>
    intro now other held hnow
    have hmem := hentries.mem_iff.2
      (List.mem_cons_of_mem _ (Slots.mem_entries_iff.2 ⟨now, hnow⟩))
    obtain ⟨place, hplace⟩ := Slots.mem_entries_iff.1 hmem
    refine ⟨place, ?_, hplace⟩
    rintro rfl
    obtain ⟨rfl, rfl⟩ : key = other ∧ value = held := by simpa [hfull] using hplace
    exact hformed.slots.key?_close_ne hroom hfull now (Slots.key?_of_full hnow)
  case within =>
    exact ⟨last, hlast, htrailing.untouched, (arena.slots.close slot).gap, hgap,
      htrailing.gap_behind, hgapFull, hgapFree, hothers⟩
  case counted =>
    have hlength := hentries.length_eq
    rw [← hformed.counted, List.length_cons] at hlength
    have hfilled : (arena.free slot).1.filled = arena.filled - 1 := rfl
    omega
  case capacity => exact hsize
  case rest => rfl

/-- Removing the object under a nonzero key hands back that object, gives up its entry and moves
the others only as far as keeping them in reach takes. -/
theorem Arena.WellFormed.remove_vacates {arena : Arena V} (hformed : arena.WellFormed)
    (hroom : arena.slots.HasRoom) {key : Key} {value : V} {slot : Nat}
    (hfull : arena.slots.look slot = .full key value) :
    (arena.remove key).answer = .ok value ∧
      ∃ journal : List Move, (arena.remove key).log = journal.map .shifted ∧
        arena.Vacates key slot journal (arena.remove key).arena := by
  rw [hformed.remove_eq hfull]
  exact ⟨rfl, _, rfl, hformed.vacates hroom hfull⟩

/-- When key 16 is removed from slot 0, key 32 jumps over key 4 into that slot. -/
theorem Arena.WellFormed.remove_vacates_wrapped :
    let arena := Session.wrapped.arena
    arena.slotKeys = [⟨16⟩, ⟨4⟩, ⟨32⟩, .zero, .zero, .zero, .zero, ⟨15⟩] ∧
      (arena.remove ⟨16⟩).arena.slotKeys =
        [⟨32⟩, ⟨4⟩, .zero, .zero, .zero, .zero, .zero, ⟨15⟩] ∧
      (arena.remove ⟨16⟩).answer = .ok 160 ∧
        ∃ journal : List Move, (arena.remove ⟨16⟩).log = journal.map .shifted ∧
          arena.Vacates ⟨16⟩ 0 journal (arena.remove ⟨16⟩).arena := by
  intro arena
  have hformed : arena.WellFormed := Session.reachable_wrapped.sound.wellFormed
  exact ⟨by decide +kernel, by decide +kernel,
    Arena.WellFormed.remove_vacates hformed (by decide +kernel) (by decide +kernel)⟩

end KeyedArena
