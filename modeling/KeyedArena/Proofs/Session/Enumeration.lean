import KeyedArena.Arena.Cursor
import KeyedArena.Proofs.Session.Runs
/-!
Going through all entries.

A cursor reads the two columns from end to end, looking a key up follows a walk, and the size is a
counter.  In every state of a session the three agree: a cursor hands out each entry that can be
looked up, once, and as many of them as are counted.
-/

namespace KeyedArena

universe u

variable {V : Type u}

def Cursor.live? (slot : Key × Option V) : Option (Key × V) :=
  if slot.1 = .zero then none else slot.2.map fun value => (slot.1, value)

/-- The entries that a cursor has still to hand out. -/
def Cursor.ahead (cursor : Cursor V) : List (Key × V) :=
  (cursor.zero.map fun value => (Key.zero, value)).toList ++ cursor.slots.filterMap live?

theorem Cursor.filterMap_live? (slots : List (Key × Option V)) :
    slots.filterMap live? =
      match nextSlot? slots with
      | none => []
      | some (entry, after) => entry :: after.ahead := by
  induction slots with
  | nil => rfl
  | cons slot rest ih =>
      obtain ⟨key, object⟩ := slot
      cases object with
      | none =>
          rw [nextSlot?, ← ih, List.filterMap_cons_none (by simp [live?])]
      | some value =>
          by_cases hzero : key = .zero
          · rw [nextSlot?, if_neg (by simpa using hzero), ← ih,
              List.filterMap_cons_none (by simp [live?, hzero])]
          · rw [nextSlot?, if_pos hzero,
              List.filterMap_cons_some (show live? (key, some value) = some (key, value) by
                simp [live?, hzero])]
            rfl

/-- One step hands out the first entry ahead and leaves the others. -/
theorem Cursor.ahead_eq (cursor : Cursor V) :
    cursor.ahead =
      match cursor.next? with
      | none => []
      | some (entry, after) => entry :: after.ahead := by
  obtain ⟨zero, slots⟩ := cursor
  cases zero with
  | none => exact Cursor.filterMap_live? slots
  | some value => rfl

/-- Run to its end, a cursor hands out all entries ahead, in order. -/
theorem Cursor.collect_eq (cursor : Cursor V) : cursor.collect = cursor.ahead := by
  fun_induction Cursor.collect cursor with
  | case1 cursor hnext => rw [Cursor.ahead_eq, hnext]
  | case2 cursor entry after hnext ih => rw [Cursor.ahead_eq, hnext, ih]

theorem Cursor.filterMap_columns {slots : List (Slot V)}
    (hnonzero : ∀ slot ∈ slots, slot.key? ≠ some .zero) :
    ((slots.map fun slot => slot.key?.getD .zero).zip (slots.map Slot.value?)).filterMap live? =
      slots.filterMap Slot.entry? := by
  induction slots with
  | nil => rfl
  | cons slot rest ih =>
      have hrest := ih fun other hother => hnonzero other (List.mem_cons_of_mem _ hother)
      have hhead := hnonzero slot List.mem_cons_self
      rw [List.map_cons, List.map_cons, List.zip_cons_cons]
      cases slot with
      | free =>
          rw [List.filterMap_cons_none Slot.entry?_free, List.filterMap_cons_none (by simp [live?])]
          exact hrest
      | full key value =>
          have hkey : key ≠ .zero := by simpa using hhead
          rw [List.filterMap_cons_some (Slot.entry?_full key value),
            List.filterMap_cons_some (by simp [live?, hkey]; rfl), hrest]

theorem Arena.Sound.collect_cursor {arena : Arena V} (hsound : arena.Sound) :
    arena.cursor.collect = arena.entries := by
  have hnonzero : ∀ slot ∈ arena.slots.toList, slot.key? ≠ some .zero := by
    intro slot hslot
    rw [Slots.toList_eq_map_look] at hslot
    obtain ⟨index, _, rfl⟩ := List.mem_map.1 hslot
    exact hsound.slots.nonzero index
  rw [Cursor.collect_eq, Arena.entries_eq]
  exact congrArg _ (Cursor.filterMap_columns hnonzero)

theorem Slots.forall₂_entries (slots : Slots V) (places : List Nat) :
    List.Forall₂ (fun index entry => slots.look index = .full entry.1 entry.2)
      (places.filter fun index => !(slots.look index).isFree)
      ((places.map slots.look).filterMap Slot.entry?) := by
  induction places with
  | nil => exact .nil
  | cons index rest ih =>
      cases hslot : slots.look index with
      | free =>
          rw [List.filter_cons_of_neg (by simp [hslot]), List.map_cons, hslot,
            List.filterMap_cons_none Slot.entry?_free]
          exact ih
      | full key value =>
          rw [List.filter_cons_of_pos (by simp [hslot]), List.map_cons, hslot,
            List.filterMap_cons_some (Slot.entry?_full key value)]
          exact .cons hslot ih

/-- What it is for a list to show what is in an arena: every entry, in order, and nothing twice. -/
structure Arena.Enumerates (arena : Arena V) (listed : List (Key × V)) : Prop where
  /-- The entry under key zero comes first, if there is one, and then those in the full slots,
  ascending. -/
  ordered : ∃ places others,
    listed = (arena.zero.map fun value => (Key.zero, value)).toList ++ others ∧
      places.Pairwise (· < ·) ∧
      (∀ index, index ∈ places ↔ arena.slots.look index ≠ .free) ∧
      List.Forall₂ (fun index entry => arena.slots.look index = .full entry.1 entry.2) places others
  distinct : (listed.map Prod.fst).Nodup
  counted : listed.length = arena.size
  get_iff : ∀ key value, (key, value) ∈ listed ↔ arena.get key = .ok value
  contains_iff : ∀ key, key ∈ listed.map Prod.fst ↔ arena.contains key = true
  isEmpty_iff : arena.isEmpty = true ↔ listed = []

theorem Arena.Sound.enumerates_entries {arena : Arena V} (hsound : arena.Sound) :
    arena.Enumerates arena.entries := by
  have hfound : ∀ key value, (key, value) ∈ arena.entries ↔ arena.get? key = some value :=
    fun _ _ => hsound.get?_eq_some_iff.symm
  constructor
  case ordered =>
    refine ⟨(List.range arena.capacity).filter fun index => !(arena.slots.look index).isFree,
      arena.slots.entries, arena.entries_eq, List.pairwise_lt_range.filter _, ?_, ?_⟩
    · intro index
      rw [List.mem_filter, List.mem_range, Bool.not_eq_true', Slot.isFree_eq_false_iff_ne]
      exact and_iff_right_of_imp Slots.lt_size_of_look_ne_free
    · have hlisted := arena.slots.forall₂_entries (List.range arena.capacity)
      rwa [Arena.capacity, ← Slots.toList_eq_map_look] at hlisted
  case distinct => exact hsound.keys_nodup
  case counted => exact hsound.size_eq.symm
  case get_iff =>
    intro key value
    rw [hfound, Arena.get]
    cases arena.get? key <;> simp
  case contains_iff =>
    intro key
    rw [Arena.contains_eq, Option.isSome_iff_exists, List.mem_map]
    constructor
    · rintro ⟨⟨stored, value⟩, hentry, rfl⟩
      exact ⟨value, (hfound stored value).1 hentry⟩
    · rintro ⟨value, hvalue⟩
      exact ⟨(key, value), (hfound key value).2 hvalue, rfl⟩
  case isEmpty_iff =>
    rw [Arena.isEmpty, hsound.size_eq, beq_iff_eq, List.length_eq_zero_iff]

/-- In every state that a session gets into, going through the entries shows just what is in the
arena, and so does the list of keys. -/
theorem Session.Reachable.enumerates {session : Session V} (hreachable : session.Reachable) :
    session.arena.Enumerates session.arena.cursor.collect ∧
      session.arena.keys = session.arena.cursor.collect.map Prod.fst ∧
      session.arena.keys.Nodup ∧
      (∀ key, key ∈ session.arena.keys ↔ session.arena.contains key = true) ∧
      session.arena.keys.length = session.arena.size ∧
      (session.arena.isEmpty = true ↔ session.arena.keys = []) := by
  have hsound := hreachable.sound
  have hlisted := hsound.enumerates_entries
  rw [hsound.collect_cursor]
  refine ⟨hlisted, rfl, hlisted.distinct, hlisted.contains_iff, ?_, ?_⟩
  · rw [Arena.keys, List.length_map, hlisted.counted]
  · rw [Arena.keys, List.map_eq_nil_iff, hlisted.isEmpty_iff]

/-- After growth the removal of key 16 moves key 15 to its home, and that of key 32 moves key 33 from
the first slot back to the last.  Six entries are left, and the cursor hands them out in slot order,
key zero first. -/
theorem Session.Reachable.enumerates_shifted :
    let session := ((⟨.plain, {}⟩ : Session Nat).run
      [.add 0, .advance 15, .add 150, .add 160, .advance 32, .add 320, .add 330, .add 340, .add 350,
        .add 360, .remove ⟨16⟩, .remove ⟨32⟩]).1
    session.arena.slotKeys =
        [.zero, .zero, .zero, .zero, .zero, .zero, .zero, ⟨15⟩, .zero, ⟨36⟩, .zero, .zero, ⟨34⟩, .zero,
          ⟨35⟩, ⟨33⟩] ∧
      session.arena.Enumerates session.arena.cursor.collect ∧
      session.arena.cursor.collect.map Prod.fst = [.zero, ⟨15⟩, ⟨36⟩, ⟨34⟩, ⟨35⟩, ⟨33⟩] ∧
      session.arena.size = 6 := by
  intro session
  have hreachable : session.Reachable := (Session.Reachable.plain {}).run (by decide +kernel)
  obtain ⟨henumerates, hkeys, _⟩ := Session.Reachable.enumerates hreachable
  refine ⟨by decide +kernel, henumerates, ?_, by decide +kernel⟩
  rw [← hkeys]
  decide +kernel

end KeyedArena
