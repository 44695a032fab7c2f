import KeyedArena.Proofs.Arena.Removal
import KeyedArena.Proofs.Session.Refusals
import KeyedArena.Proofs.Slots.Rebuilding
/-!
Removals in any order.

An arena with room is what filing its entries in some order made of it, and a removal strikes one
entry off that list.  So it does not matter in which order several are struck off: whatever the
chains of moves, what is left is the same slot for slot.
-/

namespace KeyedArena

universe u

variable {V : Type u}

/-- The arena after the objects under the given keys have been removed, one after another. -/
def Arena.without (arena : Arena V) (keys : List Key) : Arena V :=
  keys.foldl (fun arena key => (arena.remove key).arena) arena

/-- An arena whose slots are what filing the given entries, in their order, makes. -/
structure Arena.FiledAs (arena : Arena V) (filed : List (Key × V)) : Prop where
  slots : arena.slots = .ofEntries arena.capacity filed
  filled : arena.filled = filed.length
  nonzero : ∀ entry ∈ filed, entry.1 ≠ .zero
  distinct : (filed.map Prod.fst).Nodup
  room : filed.length < arena.capacity

/-- The arena as it would be if only the entries had been filed whose keys pass a test. -/
def Arena.keeping (arena : Arena V) (filed : List (Key × V)) (stays : Key → Bool) : Arena V :=
  let kept := filed.filter fun entry => stays entry.1
  { arena with
    slots := .ofEntries arena.capacity kept
    zero := if stays .zero then arena.zero else none
    filled := kept.length }

theorem Arena.capacity_keeping (arena : Arena V) (filed : List (Key × V)) (stays : Key → Bool) :
    (arena.keeping filed stays).capacity = arena.capacity := Slots.size_ofEntries _ _

theorem Arena.keeping_keeping (arena : Arena V) (filed : List (Key × V))
    (first second : Key → Bool) :
    (arena.keeping filed first).keeping (filed.filter fun entry => first entry.1) second =
      arena.keeping filed fun key => second key && first key := by
  have hcapacity := arena.capacity_keeping filed first
  have hzero : (if second .zero then (if first .zero then arena.zero else none) else none) =
      if (second .zero && first .zero) = true then arena.zero else none := by
    cases second .zero <;> cases first .zero <;> rfl
  simp only [Arena.keeping, List.filter_filter] at hcapacity ⊢
  rw [hcapacity, hzero]

/-- Every arena with room came about by filing its entries in some order, or might have. -/
theorem Arena.WellFormed.exists_filedAs {arena : Arena V} (hformed : arena.WellFormed)
    (hroom : arena.slots.HasRoom) : ∃ filed, arena.FiledAs filed := by
  obtain ⟨filed, hfiled, hperm⟩ := hformed.slots.exists_filing hroom
  refine ⟨filed, hfiled, ?_, ?_, ?_, ?_⟩
  · rw [hformed.counted, hperm.length_eq]
  · exact fun entry hentry => hformed.slots.entries_nonzero (hperm.mem_iff.1 hentry)
  · exact (hperm.map Prod.fst).nodup_iff.2 hformed.slots.keys_nodup
  · rw [hperm.length_eq]
    exact Slots.hasRoom_iff.1 hroom

section Filed

variable {arena : Arena V} {filed : List (Key × V)}

theorem Arena.FiledAs.sound (hfiled : arena.FiledAs filed) :
    arena.slots.Sound ∧ arena.slots.entries.Perm filed := by
  rw [hfiled.slots]
  exact Slots.sound_ofEntries hfiled.nonzero hfiled.distinct (Nat.le_of_lt hfiled.room)

theorem Arena.FiledAs.hasRoom (hfiled : arena.FiledAs filed) : arena.slots.HasRoom := by
  rw [hfiled.slots]
  exact Slots.hasRoom_ofEntries hfiled.nonzero hfiled.distinct hfiled.room

theorem Arena.FiledAs.wellFormed (hfiled : arena.FiledAs filed) : arena.WellFormed :=
  ⟨hfiled.sound.1, by rw [hfiled.filled, hfiled.sound.2.length_eq]⟩

theorem Arena.FiledAs.keeping (hfiled : arena.FiledAs filed) (stays : Key → Bool) :
    (arena.keeping filed stays).FiledAs (filed.filter fun entry => stays entry.1) := by
  have hcapacity := arena.capacity_keeping filed stays
  refine ⟨?_, rfl, ?_, ?_, ?_⟩
  · rw [hcapacity]
    rfl
  · exact fun entry hentry => hfiled.nonzero entry (List.mem_of_mem_filter hentry)
  · exact (List.filter_sublist.map _).nodup hfiled.distinct
  · rw [hcapacity]
    exact Nat.lt_of_le_of_lt (List.length_filter_le _ _) hfiled.room

theorem Arena.FiledAs.keeping_of_forall (hfiled : arena.FiledAs filed) (stays : Key → Bool)
    (hall : ∀ entry ∈ filed, stays entry.1 = true) :
    arena.keeping filed stays =
      { arena with zero := if stays .zero then arena.zero else none } := by
  have hkept : (filed.filter fun entry => stays entry.1) = filed := List.filter_eq_self.2 hall
  unfold Arena.keeping
  dsimp only
  rw [hkept, ← hfiled.slots, ← hfiled.filled]

/-- A removal strikes the entry under its key off the list, if there is one. -/
theorem Arena.FiledAs.remove (hfiled : arena.FiledAs filed) (key : Key) :
    (arena.remove key).arena = arena.keeping filed (· ≠ key) := by
  obtain ⟨hsound, hentries⟩ := hfiled.sound
  by_cases hzero : key = .zero
  · rw [hzero, hfiled.keeping_of_forall (· ≠ .zero) fun entry hentry =>
      decide_eq_true (hfiled.nonzero entry hentry), Arena.remove, if_pos rfl]
    obtain ⟨slots, zero, filled, growAt, nextKey, loadFactor, ceiling⟩ := arena
    cases zero <;> simp [Arena.refuse]
  · have hplace : (if decide (Key.zero ≠ key) = true then arena.zero else none) = arena.zero :=
      if_pos (decide_eq_true (Ne.symm hzero))
    cases hlocated : arena.slots.locate? key with
    | none =>
        have hall : ∀ entry ∈ filed, decide (entry.1 ≠ key) = true := by
          intro entry hentry
          apply decide_eq_true
          rintro rfl
          obtain ⟨index, hkey⟩ := Slots.mem_keys_iff.1
            (List.mem_map_of_mem (hentries.mem_iff.2 hentry))
          rw [hsound.locate?_eq_some_iff.2 hkey] at hlocated
          contradiction
        rw [hfiled.keeping_of_forall (· ≠ key) hall, hplace, Arena.remove, if_neg hzero, hlocated]
        rfl
    | some index =>
        have hkey := Slots.key?_of_locate? hlocated
        obtain ⟨value, hfull⟩ := Slot.key?_eq_some_iff.1 hkey
        have hclosed : (arena.slots.close index).slots =
            .ofEntries arena.capacity (filed.filter (·.1 ≠ key)) := by
          rw [hfiled.slots] at hkey ⊢
          rw [Slots.close_ofEntries hfiled.nonzero hfiled.distinct hfiled.room hkey]
        have hstruck : (arena.slots.close index).slots.entries.Perm
            (filed.filter (·.1 ≠ key)) := by
          rw [hclosed]
          exact (hfiled.keeping (· ≠ key)).sound.2
        have hfewer : (filed.filter (·.1 ≠ key)).length = arena.filled - 1 := by
          have hlength := (hsound.close hfiled.hasRoom hfull).2.length_eq
          rw [List.length_cons, hstruck.length_eq, hentries.length_eq] at hlength
          rw [hfiled.filled]
          omega
        rw [hfiled.wellFormed.remove_eq hfull]
        simp only [Arena.free, Arena.keeping, hclosed, hfewer, hplace]

/-- What is left after several removals is what filing all the other entries would have made. -/
theorem Arena.FiledAs.without (hfiled : arena.FiledAs filed) (keys : List Key) :
    arena.without keys = arena.keeping filed (· ∉ keys) := by
  induction keys generalizing arena filed with
  | nil => exact (hfiled.keeping_of_forall (· ∉ []) (by simp)).symm
  | cons key rest ih =>
      have hremoved := hfiled.remove key
      have hstruck := ih (hfiled.keeping (· ≠ key))
      rw [Arena.without, List.foldl_cons, hremoved]
      refine hstruck.trans ((arena.keeping_keeping filed _ _).trans ?_)
      congr 1
      funext other
      simp [Bool.and_comm]

theorem Arena.FiledAs.mem_entries_keeping (hfiled : arena.FiledAs filed) {stays : Key → Bool}
    {key : Key} {value : V} (hstays : stays key = true) :
    (key, value) ∈ (arena.keeping filed stays).entries ↔ (key, value) ∈ arena.entries := by
  have hlisted := (hfiled.keeping stays).sound.2
  rw [Arena.entries_eq, Arena.entries_eq arena, List.mem_append, List.mem_append,
    hlisted.mem_iff, hfiled.sound.2.mem_iff, List.mem_filter]
  have hzero : (arena.keeping filed stays).zero = if stays .zero then arena.zero else none := rfl
  rw [hzero]
  by_cases hkey : key = .zero
  · rw [hkey] at hstays ⊢
    simp [hstays]
  · cases stays .zero <;> simp [hstays, Ne.symm hkey]

theorem Arena.FiledAs.answer_remove_remove (hfiled : arena.FiledAs filed) {first second : Key}
    (hne : second ≠ first) {value : V} (hvalue : arena.get? second = some value) :
    ((arena.remove first).arena.remove second).answer = .ok value := by
  have hstill : (arena.remove first).arena.get? second = some value := by
    rw [hfiled.remove, (hfiled.keeping _).wellFormed.get?_eq_some_iff,
      hfiled.mem_entries_keeping (decide_eq_true hne)]
    exact hfiled.wellFormed.get?_eq_some_iff.1 hvalue
  rw [Arena.answer_remove, Arena.get, hstill]

end Filed

/-- Two removals come to the same in either order: the same two objects are handed back, and the
same arena is left, slot for slot.  So several removals leave one and the same arena whatever their
order, and it lists its entries in one and the same order. -/
theorem Arena.WellFormed.removals_commute {arena : Arena V} (hformed : arena.WellFormed)
    (hroom : arena.slots.HasRoom) :
    (∀ (first second : Key) (one other : V), first ≠ second →
      arena.get? first = some one → arena.get? second = some other →
        ((arena.remove first).answer = .ok one ∧
          ((arena.remove first).arena.remove second).answer = .ok other) ∧
        ((arena.remove second).answer = .ok other ∧
          ((arena.remove second).arena.remove first).answer = .ok one) ∧
        ((arena.remove first).arena.remove second).arena =
          ((arena.remove second).arena.remove first).arena) ∧
      ∀ keys permuted : List Key, keys.Perm permuted →
        arena.without keys = arena.without permuted ∧
          (arena.without keys).entries = (arena.without permuted).entries := by
  obtain ⟨filed, hfiled⟩ := hformed.exists_filedAs hroom
  have hsame : ∀ keys permuted : List Key, keys.Perm permuted →
      arena.without keys = arena.without permuted := by
    intro keys permuted hperm
    rw [hfiled.without, hfiled.without]
    congr 1
    funext key
    exact decide_eq_decide.2 (not_congr hperm.mem_iff)
  constructor
  · intro first second one other hne hone hother
    refine ⟨⟨?_, hfiled.answer_remove_remove (Ne.symm hne) hother⟩,
      ⟨?_, hfiled.answer_remove_remove hne hone⟩, hsame [first, second] [second, first] ?_⟩
    · rw [Arena.answer_remove, Arena.get, hone]
    · rw [Arena.answer_remove, Arena.get, hother]
    · exact List.Perm.swap _ _ _
  · intro keys permuted hperm
    rw [hsame keys permuted hperm]
    exact ⟨rfl, rfl⟩

/-- Removing key 15 moves keys 16 and 32, and removing key 16 moves key 32 past key 4.  Together the
two removals come to the same in either order. -/
theorem Arena.WellFormed.removals_commute_wrapped :
    let arena := Session.wrapped.arena
    (arena.remove ⟨15⟩).arena.slotKeys =
        [⟨32⟩, ⟨4⟩, .zero, .zero, .zero, .zero, .zero, ⟨16⟩] ∧
      (arena.remove ⟨16⟩).arena.slotKeys =
        [⟨32⟩, ⟨4⟩, .zero, .zero, .zero, .zero, .zero, ⟨15⟩] ∧
      ((arena.remove ⟨15⟩).arena.remove ⟨16⟩).arena =
        ((arena.remove ⟨16⟩).arena.remove ⟨15⟩).arena ∧
      arena.without [⟨15⟩, ⟨4⟩, ⟨16⟩] = arena.without [⟨4⟩, ⟨16⟩, ⟨15⟩] := by
  intro arena
  have hformed : arena.WellFormed := Session.reachable_wrapped.sound.wellFormed
  obtain ⟨htwo, hmany⟩ := Arena.WellFormed.removals_commute hformed (by decide +kernel)
  obtain ⟨_, _, hsame⟩ := htwo ⟨15⟩ ⟨16⟩ 150 160 (by decide) (by decide +kernel) (by decide +kernel)
  exact ⟨by decide +kernel, by decide +kernel, hsame, (hmany _ _ (by decide)).1⟩

end KeyedArena
