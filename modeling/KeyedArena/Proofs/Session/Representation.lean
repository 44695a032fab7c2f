import KeyedArena.Proofs.Session.Runs
/-!
How an arena is kept: what its two columns, of keys and of objects, look like in every state.

A slot is read through the raw key in it, zero marking a free one, and through the object in it.
In these terms the invariant speaks of two arrays of one length, a count, the keys issued so far,
and the run of used slots that leads from the home of a key to the slot where it is found.
-/

namespace KeyedArena

universe u v

variable {V : Type u}

def Arena.slotValues (arena : Arena V) : List (Option V) := arena.slots.toList.map Slot.value?

/-- The raw key in a slot, which is zero if there is none. -/
def Arena.rawKey (arena : Arena V) (index : Nat) : Key := arena.slotKeys.getD index .zero

def Arena.rawValue (arena : Arena V) (index : Nat) : Option V :=
  arena.slotValues.getD index none

/-- What holds of the columns and counters of an arena between any two requests. -/
structure Arena.WellKept (arena : Arena V) : Prop where
  power : ∃ exponent, arena.capacity = 2 ^ exponent
  least : 4 ≤ arena.capacity
  /-- The mask is one less than the number of slots, and cutting a hash by it gives the home. -/
  masked : ∀ key : Key, key.hash.toNat &&& (arena.capacity - 1) = key.home arena.capacity
  keys_length : arena.slotKeys.length = arena.capacity
  values_length : arena.slotValues.length = arena.capacity
  paired : ∀ index, (arena.rawValue index).isSome = true ↔ arena.rawKey index ≠ .zero
  distinct : ∀ first second, arena.rawKey first ≠ .zero →
    arena.rawKey first = arena.rawKey second → first = second
  counted : arena.filled = (arena.slotKeys.filter (· ≠ .zero)).length
  issued : ∀ key ∈ arena.slotKeys, key ≠ .zero → 0 < key.toInt ∧ key.toInt < arena.nextKey
  zeroIssued : arena.zero.isSome = true → 0 < arena.nextKey
  /-- No slot on the way from the home of a key to its slot is free, that slot included. -/
  reached : ∀ index, arena.rawKey index ≠ .zero →
    ∀ steps ≤ distance arena.capacity ((arena.rawKey index).home arena.capacity) index,
      arena.rawKey (((arena.rawKey index).home arena.capacity + steps) % arena.capacity) ≠ .zero
  located : ∀ index, arena.rawKey index ≠ .zero →
    arena.slots.locate? (arena.rawKey index) = some index

theorem Slots.getD_column {β : Type v} (slots : Slots V) (column : Slot V → β) (index : Nat) :
    (slots.toList.map column).getD index (column .free) = column (slots.look index) := by
  rw [List.getD_eq_getElem?_getD, List.getElem?_map]
  by_cases hindex : index < slots.size
  · rw [Array.getElem?_toList, Array.getElem?_eq_getElem hindex, Slots.look_eq_getElem hindex]
    rfl
  · rw [Slots.look_of_size_le (Nat.le_of_not_lt hindex),
      List.getElem?_eq_none (Nat.le_of_not_lt hindex)]
    rfl

theorem Arena.rawKey_eq (arena : Arena V) (index : Nat) :
    arena.rawKey index = (arena.slots.look index).key?.getD .zero :=
  arena.slots.getD_column (fun slot => slot.key?.getD .zero) index

theorem Arena.rawValue_eq (arena : Arena V) (index : Nat) :
    arena.rawValue index = (arena.slots.look index).value? :=
  arena.slots.getD_column Slot.value? index

theorem Arena.key?_of_rawKey {arena : Arena V} {index : Nat}
    (hused : arena.rawKey index ≠ .zero) :
    (arena.slots.look index).key? = some (arena.rawKey index) := by
  rw [Arena.rawKey_eq] at hused ⊢
  cases hkey : (arena.slots.look index).key? with
  | none => simp [hkey] at hused
  | some key => rfl

theorem Arena.Sound.rawKey_ne_zero {arena : Arena V} (hsound : arena.Sound) {index : Nat}
    (hfull : (arena.slots.look index).isFree = false) : arena.rawKey index ≠ .zero := by
  obtain ⟨key, value, hslot⟩ := Slot.isFree_eq_false_iff.1 hfull
  have hkey : (arena.slots.look index).key? = some key := by
    rw [hslot]
    rfl
  rw [Arena.rawKey_eq, hkey, Option.getD_some]
  intro hzero
  exact hsound.slots.nonzero index (hzero ▸ hkey)

/-- The keys of the entries are the raw keys other than zero. -/
theorem Slots.keys_eq_filter {slots : List (Slot V)}
    (hnonzero : ∀ slot ∈ slots, slot.key? ≠ some .zero) :
    (slots.filterMap Slot.entry?).map Prod.fst =
      (slots.map fun slot => slot.key?.getD .zero).filter (· ≠ .zero) := by
  induction slots with
  | nil => rfl
  | cons slot rest ih =>
      have hrest := ih fun other hother => hnonzero other (List.mem_cons_of_mem _ hother)
      cases slot with
      | free =>
          rw [List.filterMap_cons_none Slot.entry?_free, List.map_cons,
            List.filter_cons_of_neg (by simp)]
          exact hrest
      | full key value =>
          have hkey : key ≠ .zero := by
            intro hzero
            apply hnonzero _ List.mem_cons_self
            rw [hzero]
            rfl
          rw [List.filterMap_cons_some (Slot.entry?_full key value), List.map_cons,
            List.map_cons, hrest]
          simp [hkey]

theorem Arena.Sound.rawValue_isSome_iff {arena : Arena V} (hsound : arena.Sound) (index : Nat) :
    (arena.rawValue index).isSome = true ↔ arena.rawKey index ≠ .zero := by
  rw [Arena.rawValue_eq]
  constructor
  · intro hsome
    apply hsound.rawKey_ne_zero
    cases hslot : arena.slots.look index with
    | free => simp [hslot] at hsome
    | full key value => rfl
  · intro hused
    obtain ⟨value, hfull⟩ := Slot.key?_eq_some_iff.1 (Arena.key?_of_rawKey hused)
    rw [hfull]
    rfl

theorem Arena.Sound.filled_eq_length_keys {arena : Arena V} (hsound : arena.Sound) :
    arena.filled = (arena.slotKeys.filter (· ≠ .zero)).length := by
  have hnonzero : ∀ slot ∈ arena.slots.toList, slot.key? ≠ some .zero := by
    intro slot hslot hzero
    obtain ⟨index, hindex, rfl⟩ := Array.mem_iff_getElem.1 (Array.mem_toList_iff.1 hslot)
    rw [← Slots.look_eq_getElem hindex] at hzero
    exact hsound.slots.nonzero index hzero
  rw [hsound.counted, Arena.slotKeys, ← Slots.keys_eq_filter hnonzero, List.length_map]
  rfl

/-- The probe run of a sound arena in terms of raw keys. -/
theorem Arena.Sound.rawKey_walk_ne_zero {arena : Arena V} (hsound : arena.Sound) {index : Nat}
    (hused : arena.rawKey index ≠ .zero) {steps : Nat}
    (hsteps :
      steps ≤ distance arena.capacity ((arena.rawKey index).home arena.capacity) index) :
    arena.rawKey (((arena.rawKey index).home arena.capacity + steps) % arena.capacity) ≠
      .zero := by
  have hkey := Arena.key?_of_rawKey hused
  apply hsound.rawKey_ne_zero
  rcases Nat.lt_or_eq_of_le hsteps with hbefore | hhere
  · exact hsound.slots.unbroken hkey steps hbefore
  · have hindex := Slots.lt_size_of_key? hkey
    obtain ⟨value, hfull⟩ := Slot.key?_eq_some_iff.1 hkey
    have harrived : ((arena.rawKey index).home arena.capacity + steps) % arena.capacity =
        index := by
      rw [hhere]
      exact walk_distance (Key.home_lt _ hsound.size_pos) hindex
    rw [harrived, hfull]
    rfl

theorem Arena.wellKept_of_sound {arena : Arena V} (hsound : arena.Sound) : arena.WellKept := by
  constructor
  case power => exact hsound.power
  case least => exact hsound.least
  case masked => exact Key.hash_and_mask hsound.power
  case keys_length => exact List.length_map _
  case values_length => exact List.length_map _
  case paired => exact hsound.rawValue_isSome_iff
  case distinct =>
    intro first second hused hsame
    have hfirst := Arena.key?_of_rawKey hused
    have hsecond := Arena.key?_of_rawKey (hsame ▸ hused)
    rw [← hsame] at hsecond
    exact hsound.slots.distinct hfirst hsecond
  case counted => exact hsound.filled_eq_length_keys
  case issued =>
    intro key hkey hnonzero
    obtain ⟨index, hindex, hhere⟩ := List.mem_iff_getElem.1 hkey
    have hraw : arena.rawKey index = key := by
      rw [Arena.rawKey, List.getD_eq_getElem?_getD, List.getElem?_eq_getElem hindex, hhere]
      rfl
    rw [← hraw] at hnonzero ⊢
    exact hsound.issued (Arena.key?_of_rawKey hnonzero)
  case zeroIssued => exact hsound.zeroIssued
  case reached =>
    intro index hused steps hsteps
    exact hsound.rawKey_walk_ne_zero hused hsteps
  case located =>
    intro index hused
    exact hsound.slots.locate?_eq_some_iff.2 (Arena.key?_of_rawKey hused)

/-- Whatever is asked of an arena, in any order, with any ceiling, any memory and any keys passed
over: as long as a slot is free before each request, its columns and counters agree. -/
theorem Session.Reachable.wellKept {session : Session V} (hreachable : session.Reachable) :
    session.arena.WellKept :=
  Arena.wellKept_of_sound hreachable.sound

/-- Removing key 15 moves key 16 home and key 32 to the first slot.  Key 33 joins the chain three
slots beyond its own home, with key 4 in between. -/
theorem Session.Reachable.wellKept_after_churn :
    let arena := (Session.wrapped.run [.remove ⟨15⟩, .add 330]).1.arena
    arena.slotKeys = [⟨32⟩, ⟨4⟩, ⟨33⟩, .zero, .zero, .zero, .zero, ⟨16⟩] ∧
      (⟨33⟩ : Key).home arena.capacity = 7 ∧ arena.WellKept ∧
      arena.slots.locate? ⟨33⟩ = some 2 := by
  intro arena
  have hkept : arena.WellKept :=
    Session.Reachable.wellKept (Session.reachable_wrapped.run (by decide +kernel))
  have hkey : arena.rawKey 2 = ⟨33⟩ := by decide +kernel
  have hlocated := hkept.located 2
  rw [hkey] at hlocated
  exact ⟨by decide +kernel, by decide +kernel, hkept, hlocated (by decide)⟩

end KeyedArena
