import KeyedArena.Proofs.Session.Representation
/-!
Growing, entry by entry.

Growth files the entries anew in slot order, which is neither the order in which they came nor that
of their walks, and then the one that made it necessary.  Each of them is filed in a circle that is
sound already, so all of them are found in the end, each under its own key.
-/

namespace KeyedArena

universe u

variable {V : Type u}

/-- What it is for an arena to file an object under a key in doubled slots. -/
structure Arena.Enlarges (arena : Arena V) (key : Key) (value : V) (after : Arena V) : Prop where
  capacity : after.capacity = 2 * arena.capacity
  /-- Cutting a hash by the new mask gives the home in the doubled slots. -/
  masked : arena.capacity.isPowerOfTwo → ∀ other : Key,
    other.hash.toNat &&& (2 * arena.capacity - 1) = other.home after.capacity
  keys_length : after.slotKeys.length = 2 * arena.capacity
  values_length : after.slotValues.length = 2 * arena.capacity
  growAt : after.growAt = threshold (2 * arena.capacity) arena.loadFactor
  filled : after.filled = arena.filled + 1
  rest : after = { arena with slots := after.slots, filled := after.filled, growAt := after.growAt }
  entries : after.slots.entries.Perm ((key, value) :: arena.slots.entries)
  /-- Every entry, the new one included, is in one slot, beside its own object and within reach. -/
  placed : ∀ entry ∈ (key, value) :: arena.slots.entries, ∃ index,
    after.rawKey index = entry.1 ∧ after.rawValue index = some entry.2 ∧
      (∀ again, after.rawKey again = entry.1 → again = index) ∧
      after.slots.Unbroken (entry.1.home (2 * arena.capacity)) index ∧
      after.slots.locate? entry.1 = some index

/-- Growth keeps every entry and adds the one that made it necessary. -/
theorem Arena.WellFormed.enlarges {arena : Arena V} (hformed : arena.WellFormed)
    (hpositive : 0 < arena.capacity) {key : Key} (hnonzero : key ≠ .zero)
    (hfresh : ∀ index, (arena.slots.look index).key? ≠ some key) (value : V) :
    arena.Enlarges key value (arena.grown.file key value) := by
  obtain ⟨hgrown, hkept⟩ := hformed.entries_grown
  have hroom := hformed.hasRoom_grown hpositive
  have hsound := hgrown.place hroom hnonzero (hformed.fresh_grown hfresh) value
  have hentries := (hroom.entries_place key value).trans (hkept.cons _)
  have hcapacity : (arena.grown.file key value).capacity = 2 * arena.capacity :=
    (Slots.size_place _ _ _).trans arena.capacity_grown
  constructor
  case capacity => exact hcapacity
  case masked =>
    intro hpower other
    rw [hcapacity, Nat.mul_comm]
    exact Key.hash_and_mask (Nat.isPowerOfTwo_mul_two_of_isPowerOfTwo hpower) other
  case keys_length => exact (List.length_map _).trans hcapacity
  case values_length => exact (List.length_map _).trans hcapacity
  case growAt => rfl
  case filled => rfl
  case rest => rfl
  case entries => exact hentries
  case placed =>
    rintro ⟨other, held⟩ hentry
    obtain ⟨index, hfull⟩ := Slots.mem_entries_iff.1 (hentries.mem_iff.2 hentry)
    have hkey := Slot.key?_eq_some_iff.2 ⟨held, hfull⟩
    have hother : other ≠ .zero := by
      rintro rfl
      exact hsound.nonzero index hkey
    have hunbroken := hsound.unbroken hkey
    rw [show (arena.grown.slots.place key value).size = _ from hcapacity] at hunbroken
    refine ⟨index, ?_, ?_, ?_, hunbroken, hsound.locate?_eq_some_iff.2 hkey⟩
    · rw [Arena.rawKey_eq, Arena.file, hkey, Option.getD_some]
    · rw [Arena.rawValue_eq, Arena.file, hfull, Slot.value?_full]
    · intro again hagain
      have hused := Arena.key?_of_rawKey (by rw [hagain]; exact hother)
      rw [hagain] at hused
      exact hsound.distinct hused hkey

/-- When the slots can be doubled, an object is filed in doubled slots with all entries kept, and
filing the next object in a saturated arena comes to just that. -/
theorem Arena.WellFormed.grows_intact {arena : Arena V} (hformed : arena.WellFormed)
    (hpositive : 0 < arena.capacity) {memory : Memory}
    (hgrowth : arena.growthRefusal? memory = none) {key : Key} (hnonzero : key ≠ .zero)
    (hfresh : ∀ index, (arena.slots.look index).key? ≠ some key) (value : V) :
    arena.Enlarges key value (arena.grown.file key value) ∧
      (Key.ofInt? arena.nextKey = some key → arena.filled = arena.growAt →
        (arena.add memory value).answer = .ok key ∧
          (arena.add memory value).arena = (arena.grown.file key value).issue) := by
  refine ⟨hformed.enlarges hpositive hnonzero hfresh value, ?_⟩
  intro hnext hfull
  rw [Arena.add, hnext]
  simp only [hnonzero, if_false, hfull, if_true, hgrowth, and_self]

/-- The chain from key 15 to key 34 runs over the end of the circle and fills it to the threshold.
In the doubled slots the entries come to lie in quite another order. -/
theorem Arena.WellFormed.grows_intact_wrapped :
    let arena := (Session.wrapped.run [.add 330, .add 340]).1.arena
    arena.slotKeys = [⟨16⟩, ⟨4⟩, ⟨32⟩, ⟨33⟩, ⟨34⟩, .zero, .zero, ⟨15⟩] ∧
      (arena.add {} 350).arena.slotKeys =
        [⟨33⟩, .zero, .zero, .zero, .zero, .zero, .zero, ⟨16⟩, ⟨15⟩, ⟨4⟩, .zero, .zero, ⟨34⟩, .zero,
          ⟨35⟩, ⟨32⟩] ∧
      arena.Enlarges ⟨35⟩ 350 (arena.grown.file ⟨35⟩ 350) ∧
        (arena.add {} 350).answer = .ok ⟨35⟩ ∧
          (arena.add {} 350).arena = (arena.grown.file ⟨35⟩ 350).issue := by
  intro arena
  have hsound : arena.Sound := (Session.reachable_wrapped.run (by decide +kernel)).sound
  have hnext : Key.ofInt? arena.nextKey = some ⟨35⟩ := by decide +kernel
  obtain ⟨henlarges, hadds⟩ := Arena.WellFormed.grows_intact hsound.wellFormed (by decide +kernel)
    (Option.isNone_iff_eq_none.1 (show (arena.growthRefusal? {}).isNone by decide +kernel))
    (show (⟨35⟩ : Key) ≠ .zero by decide)
    (hsound.next_fresh (Key.toInt_of_ofInt? hnext)) 350
  exact ⟨by decide +kernel, by decide +kernel, henlarges, hadds hnext (by decide +kernel)⟩

end KeyedArena
