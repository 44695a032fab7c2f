import KeyedArena.Proofs.Arena.Occupancy
import KeyedArena.Proofs.Arena.Removal
import KeyedArena.Proofs.Slots.Exchange
/-!
Removing the object that was filed last.

The entry filed last stands in a slot that was free just before, and no walk led through it then.
So when it is removed, every entry behind it keeps its slot, even though the sweep runs through the
whole stretch of full slots that the new entry has joined.  All that is left of the two requests is
the key that has been used up and, if there was growth, the doubled slots.
-/

namespace KeyedArena

universe u

variable {V : Type u}

/-- A fresh entry goes to a free slot, and closing the gap there gives back the circle as it was,
without a move. -/
theorem Slots.Sound.close_after_place {slots : Slots V} (hsound : slots.Sound)
    (hroom : slots.HasRoom) (key : Key) (value : V) :
    ∃ slot, (slots.place key value).look slot = .full key value ∧
      (slots.place key value).write slot .free = slots ∧
      (slots.place key value).close slot = ⟨slots, slot, []⟩ := by
  obtain ⟨slot, hslot, hfree, _, hplace⟩ := hroom.place_eq key value
  rw [hplace]
  refine ⟨slot, Slots.look_write_self hslot _, ?_, hsound.close_place_self hslot hfree key value⟩
  rw [Slots.write_write, Slots.write_of_look hslot hfree]

/-- What it is for a removal to take back the filing of an object under a key: the object is handed
back, the slot of the key is freed, no entry is moved, and `restored` is the arena left. -/
structure Arena.TakesBack (arena : Arena V) (key : Key) (value : V) (restored : Arena V) :
    Prop where
  answer : (arena.remove key).answer = .ok value
  unmoved : (arena.remove key).log = []
  freed : ∃ slot, arena.slots.look slot = .full key value ∧
    restored.slots = arena.slots.write slot .free
  left : (arena.remove key).arena = restored

theorem Arena.WellFormed.file_takesBack {arena : Arena V} (hformed : arena.WellFormed)
    (hroom : arena.slots.HasRoom) {key : Key} (hnonzero : key ≠ .zero)
    (hfresh : ∀ index, (arena.slots.look index).key? ≠ some key) (value : V) :
    (arena.file key value).issue.TakesBack key value arena.issue := by
  obtain ⟨slot, hfull, hemptied, hclosed⟩ := hformed.slots.close_after_place hroom key value
  have hfiled : (arena.file key value).issue.WellFormed := by
    refine ⟨hformed.slots.place hroom hnonzero hfresh value, ?_⟩
    have hlength := (hroom.entries_place key value).length_eq
    rw [List.length_cons, ← hformed.counted] at hlength
    exact hlength.symm
  have hslots : (arena.file key value).issue.slots = arena.slots.place key value := rfl
  have hremoved := hfiled.remove_eq (hslots ▸ hfull)
  have hfreed : ((arena.file key value).issue.free slot).1 = arena.issue := by
    rw [Arena.free, hslots, hclosed]
    rfl
  rw [hslots, hclosed, hfreed] at hremoved
  constructor
  case answer => rw [hremoved]
  case unmoved =>
    rw [hremoved]
    rfl
  case freed => exact ⟨slot, hfull, hemptied.symm⟩
  case left => rw [hremoved]

/-- Removing the object that was just filed under a nonzero key, which no slot had before, undoes
the filing.  Without growth, all that is different from before is the next key; with growth, the
entries from before are also filed anew, in slot order and without the one removed, in twice as
many slots. -/
theorem Arena.WellFormed.remove_takesBack {arena : Arena V} (hformed : arena.WellFormed)
    {memory : Memory} {value : V} {key : Key}
    (hadded : (arena.add memory value).answer = .ok key) (hnonzero : key ≠ .zero)
    (hfresh : ∀ index, (arena.slots.look index).key? ≠ some key)
    (hroom : (arena.add memory value).arena.slots.HasRoom) :
    ((arena.add memory value).arena.capacity = arena.capacity →
      (arena.add memory value).arena.TakesBack key value
        { arena with nextKey := arena.nextKey + 1 }) ∧
    ((arena.add memory value).arena.capacity ≠ arena.capacity →
      (arena.add memory value).arena.capacity = 2 * arena.capacity ∧
      (arena.add memory value).arena.TakesBack key value
        { arena with
          slots := .ofEntries (2 * arena.capacity) arena.slots.entries
          growAt := threshold (2 * arena.capacity) arena.loadFactor
          nextKey := arena.nextKey + 1 }) := by
  have hfiling := arena.filing_add memory value
  rw [hadded] at hfiling
  generalize (arena.add memory value).arena = after at hfiling hroom ⊢
  cases hfiling with
  | zero hnext => exact absurd rfl hnonzero
  | filed hkey _ hslack =>
      have hbefore : arena.slots.HasRoom := Slots.hasRoom_of_place hroom
      refine ⟨fun _ => hformed.file_takesBack hbefore hnonzero hfresh value, fun hother => ?_⟩
      exact absurd (arena.capacity_file key value) hother
  | grown hkey _ hfull hgrowth =>
      have hcapacity : (arena.grown.file key value).issue.capacity = 2 * arena.capacity :=
        (arena.grown.capacity_file key value).trans arena.capacity_grown
      have hpositive : 0 < arena.capacity := by
        obtain ⟨free, hbound, _⟩ := hroom
        have hsize : (arena.grown.file key value).issue.slots.size = 2 * arena.capacity := hcapacity
        omega
      refine ⟨fun hsame => ?_, fun _ => ⟨hcapacity, ?_⟩⟩
      · omega
      · exact hformed.grown.file_takesBack (hformed.hasRoom_grown hpositive) hnonzero
          (hformed.fresh_grown hfresh) value

/-- The chain from key 15 runs over the end of the circle, and key 34 joins it.  Taking key 34 back
restores the slots to the letter.  With key 34 the slots are filled to the threshold, so key 35 needs
growth, and taking it back leaves sixteen slots. -/
theorem Arena.WellFormed.remove_takesBack_wrapped :
    let arena := (Session.wrapped.run [.add 330]).1.arena
    let saturated := (Session.wrapped.run [.add 330, .add 340]).1.arena
    arena.slotKeys = [⟨16⟩, ⟨4⟩, ⟨32⟩, ⟨33⟩, .zero, .zero, .zero, ⟨15⟩] ∧
      (arena.add {} 340).arena.slotKeys = [⟨16⟩, ⟨4⟩, ⟨32⟩, ⟨33⟩, ⟨34⟩, .zero, .zero, ⟨15⟩] ∧
      (arena.add {} 340).arena.TakesBack ⟨34⟩ 340 { arena with nextKey := arena.nextKey + 1 } ∧
      saturated.capacity = 8 ∧
      (saturated.add {} 350).arena.slotKeys =
        [⟨33⟩, .zero, .zero, .zero, .zero, .zero, .zero, ⟨16⟩, ⟨15⟩, ⟨4⟩, .zero, .zero, ⟨34⟩, .zero,
          ⟨35⟩, ⟨32⟩] ∧
      (saturated.add {} 350).arena.TakesBack ⟨35⟩ 350
        { saturated with
          slots := .ofEntries (2 * saturated.capacity) saturated.slots.entries
          growAt := threshold (2 * saturated.capacity) saturated.loadFactor
          nextKey := saturated.nextKey + 1 } := by
  intro arena saturated
  have hsound : arena.Sound := (Session.reachable_wrapped.run (by decide +kernel)).sound
  have hsaturated : saturated.Sound := (Session.reachable_wrapped.run (by decide +kernel)).sound
  have hnext : Key.ofInt? arena.nextKey = some ⟨34⟩ := by decide +kernel
  have hlast : Key.ofInt? saturated.nextKey = some ⟨35⟩ := by decide +kernel
  have hgrowth : saturated.growthRefusal? {} = none :=
    Arena.growthRefusal?_eq_none_iff.2 (by decide +kernel)
  have hadds : (arena.add {} 340).answer = .ok ⟨34⟩ :=
    Arena.answer_add_eq_ok_iff.2 ⟨hnext, by decide +kernel⟩
  have hgrows : (saturated.add {} 350).answer = .ok ⟨35⟩ :=
    Arena.answer_add_eq_ok_iff.2 ⟨hlast, fun _ _ => hgrowth⟩
  obtain ⟨hkept, _⟩ := Arena.WellFormed.remove_takesBack hsound.wellFormed hadds (by decide)
    (hsound.next_fresh (Key.toInt_of_ofInt? hnext)) (by decide +kernel)
  obtain ⟨_, hdoubled⟩ := Arena.WellFormed.remove_takesBack hsaturated.wellFormed hgrows (by decide)
    (hsaturated.next_fresh (Key.toInt_of_ofInt? hlast)) (by decide +kernel)
  exact ⟨by decide +kernel, by decide +kernel, hkept (by decide +kernel), by decide +kernel,
    by decide +kernel, (hdoubled (by decide +kernel)).2⟩

end KeyedArena
