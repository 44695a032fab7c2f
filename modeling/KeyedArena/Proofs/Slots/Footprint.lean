import KeyedArena.Proofs.Slots.Filing
import Mathlib.Combinatorics.Enumerative.DoubleCounting
/-!
Which slots are full, whatever the order in which they were filled.

The slot of an entry depends on the entries filed before it, but the set of full slots does not: it
is determined by the keys.  A stretch of full slots behind a free one holds only keys with homes in
that stretch.  In another sound circle that holds these keys too, they lie in the stretch as well,
unless a slot there is free; and then they would have to share the slots before it, which are too
few.
-/

namespace KeyedArena

universe u v

variable {V : Type u} {W : Type v}

/-- Seen from a free slot, the home of an entry comes first and then the entry, because the walk
from the one to the other does not lead past the free slot. -/
theorem Slots.Sound.distance_of_free {slots : Slots V} (hsound : slots.Sound) {free index : Nat}
    {key : Key} (hbound : free < slots.size) (hfree : slots.look free = .free)
    (hkey : (slots.look index).key? = some key) :
    0 < distance slots.size free (key.home slots.size) ∧
      distance slots.size free (key.home slots.size) +
          distance slots.size (key.home slots.size) index =
        distance slots.size free index := by
  have hsize : 0 < slots.size := by omega
  have hindex := Slots.lt_size_of_key? hkey
  have hhome := key.home_lt hsize
  have hbeyond : distance slots.size (key.home slots.size) index <
      distance slots.size (key.home slots.size) free := by
    by_contra hpassed
    have hne : distance slots.size (key.home slots.size) free ≠
        distance slots.size (key.home slots.size) index := by
      intro hsame
      rw [← distance_inj hhome hbound hindex hsame, hfree] at hkey
      simp at hkey
    have hfull := (Slots.unbroken_iff hhome).1 (hsound.unbroken hkey) free hbound (by omega)
    rw [hfree] at hfull
    simp at hfull
  have hround := distance_triangle hbound hhome hbound
  have hself := distance_self hbound
  have hahead := distance_triangle hbound hhome hindex
  have hlast := distance_lt (key.home slots.size) free hsize
  omega

/-- Behind every slot there is a free one with nothing but full slots in between. -/
theorem Slots.HasRoom.exists_stretch {slots : Slots V} (hroom : slots.HasRoom) {index : Nat}
    (hindex : index < slots.size) :
    ∃ free < slots.size, slots.look free = .free ∧
      ∀ passed < slots.size, 0 < distance slots.size free passed →
        distance slots.size free passed ≤ distance slots.size free index →
          (slots.look passed).isFree = false := by
  classical
  obtain ⟨some, hsome, hsomeFree⟩ := hroom
  -- the free slot from which the way to the given one is shortest
  have hreached : ∃ steps, ∃ free < slots.size, slots.look free = .free ∧
      distance slots.size free index = steps := ⟨_, some, hsome, hsomeFree, rfl⟩
  obtain ⟨free, hbound, hfree, hsteps⟩ := Nat.find_spec hreached
  refine ⟨free, hbound, hfree, ?_⟩
  intro passed hpassed hahead hbefore
  by_contra hpassedFree
  have hleast := Nat.find_min' hreached
    ⟨passed, hpassed, Slot.isFree_iff.1 (by simpa using hpassedFree), rfl⟩
  have hbetween := distance_triangle hbound hpassed hindex
  have hround := distance_lt passed index (by omega : 0 < slots.size)
  omega

/-- A key that one circle holds between a free slot and `index` lies before `index` in every other
circle of the same size in which that slot is free. -/
theorem Slots.Sound.place_before_free {first : Slots V} {second : Slots W} (hfirst : first.Sound)
    (hsecond : second.Sound) (hsize : first.size = second.size) {free index : Nat}
    (hbound : free < first.size) (hfree : first.look free = .free) (hindex : index < first.size)
    (hstop : second.look index = .free) {passed place : Nat} {key : Key}
    (hkey : (first.look passed).key? = some key)
    (hbefore : distance first.size free passed ≤ distance first.size free index)
    (hplace : (second.look place).key? = some key) :
    0 < distance first.size free place ∧
      distance first.size free place < distance first.size free index := by
  have hpositive : 0 < first.size := by omega
  have hplaceBound : place < first.size := hsize ▸ Slots.lt_size_of_key? hplace
  have hhome := key.home_lt hpositive
  obtain ⟨hhomeAhead, hhomeBefore⟩ := hfirst.distance_of_free hbound hfree hkey
  obtain ⟨hhomeBeyond, hplaceBefore⟩ := hsecond.distance_of_free (hsize ▸ hindex) hstop hplace
  rw [← hsize] at hhomeBeyond hplaceBefore
  -- the home lies in the stretch, and the walk from there ends before the slot that is free
  have honward := distance_triangle hbound hhome hindex
  have hround := distance_triangle hindex hhome hindex
  have hself := distance_self hindex
  have hto := distance_triangle hbound hhome hplaceBound
  have hlength := distance_lt free index hpositive
  have hplaceLast := distance_lt index place hpositive
  have hhomeLast := distance_lt (key.home first.size) index hpositive
  omega

/-- A slot that is full in a circle with room is full in every sound circle of the same size with at
least the same keys. -/
theorem Slots.Sound.isFree_eq_false_of_keys_subset {first : Slots V} {second : Slots W}
    (hfirst : first.Sound) (hsecond : second.Sound) (hsize : first.size = second.size)
    (hkeys : first.entries.map Prod.fst ⊆ second.entries.map Prod.fst) (hroom : first.HasRoom)
    {index : Nat} (hfull : (first.look index).isFree = false) :
    (second.look index).isFree = false := by
  by_contra hsecondFree
  have hfree : second.look index = .free := Slot.isFree_iff.1 (by simpa using hsecondFree)
  have hindex : index < first.size := by
    apply Slots.lt_size_of_look_ne_free
    intro hempty
    rw [hempty] at hfull
    simp at hfull
  have hpositive : 0 < first.size := by omega
  obtain ⟨start, hstart, hstartFree, hstretch⟩ := hroom.exists_stretch hindex
  have hlength := distance_lt start index hpositive
  have hwalk : ∀ steps ≤ distance first.size start index,
      distance first.size start ((start + steps) % first.size) = steps :=
    fun steps hsteps => distance_walk hstart (by omega)
  -- every key in the stretch has its slot in the other circle before the free one
  have hsent : ∀ near ∈ Finset.Icc 1 (distance first.size start index),
      ∃ far ∈ Finset.Ioo 0 (distance first.size start index), ∃ key,
        (first.look ((start + near) % first.size)).key? = some key ∧
          (second.look ((start + far) % first.size)).key? = some key := by
    intro near hnear
    rw [Finset.mem_Icc] at hnear
    have hpassed : (start + near) % first.size < first.size := Nat.mod_lt _ hpositive
    have hsteps := hwalk near hnear.2
    obtain ⟨key, value, hslot⟩ := Slot.isFree_eq_false_iff.1
      (hstretch _ hpassed (by omega) (by omega))
    have hkey : (first.look ((start + near) % first.size)).key? = some key := by
      rw [hslot]
      rfl
    obtain ⟨place, hplace⟩ := Slots.mem_keys_iff.1 (hkeys (Slots.mem_keys_iff.2 ⟨_, hkey⟩))
    have hbetween := hfirst.place_before_free hsecond hsize hstart hstartFree hindex hfree hkey
      (by omega) hplace
    refine ⟨distance first.size start place, Finset.mem_Ioo.2 hbetween, key, hkey, ?_⟩
    rw [walk_distance hstart (hsize ▸ Slots.lt_size_of_key? hplace)]
    exact hplace
  have hapart : ∀ far ∈ Finset.Ioo 0 (distance first.size start index),
      ({near ∈ Finset.Icc 1 (distance first.size start index) | ∃ key,
        (first.look ((start + near) % first.size)).key? = some key ∧
          (second.look ((start + far) % first.size)).key? = some key} : Set Nat).Subsingleton := by
    rintro far - near ⟨hnear, key, hkey, hplace⟩ other ⟨hother, otherKey, hotherKey, hotherPlace⟩
    rw [Finset.mem_Icc] at hnear hother
    have hsame : key = otherKey := Option.some.inj (hplace.symm.trans hotherPlace)
    rw [← hwalk near hnear.2, ← hwalk other hother.2,
      hfirst.distinct hkey (hsame ▸ hotherKey)]
  have hcount := Finset.card_le_card_of_forall_subsingleton _ hsent hapart
  have hsome : 0 < distance first.size start index := by
    apply distance_pos hstart hindex
    rintro rfl
    rw [hstartFree] at hfull
    simp at hfull
  rw [Nat.card_Icc, Nat.card_Ioo] at hcount
  omega

theorem Slots.Sound.occupied_subset {first : Slots V} {second : Slots W} (hfirst : first.Sound)
    (hsecond : second.Sound) (hsize : first.size = second.size)
    (hkeys : first.entries.map Prod.fst ⊆ second.entries.map Prod.fst) :
    first.occupied ⊆ second.occupied := by
  intro index hindex
  rw [Slots.occupied, Finset.mem_filter, Finset.mem_range] at hindex ⊢
  refine ⟨hsize ▸ hindex.1, ?_⟩
  by_cases hroom : first.HasRoom
  · exact hfirst.isFree_eq_false_of_keys_subset hsecond hsize hkeys hroom hindex.2
  · -- as many keys as slots fill every circle
    have hcount := hfirst.keys_nodup.length_le_of_subset hkeys
    rw [List.length_map, List.length_map] at hcount
    rw [Slots.hasRoom_iff] at hroom
    by_contra hfree
    have hsecondRoom : second.HasRoom :=
      ⟨index, hsize ▸ hindex.1, Slot.isFree_iff.1 (by simpa using hfree)⟩
    rw [Slots.hasRoom_iff] at hsecondRoom
    omega

/-- Sound circles of one size with the same keys have the same full slots. -/
theorem Slots.Sound.occupied_eq {first : Slots V} {second : Slots W} (hfirst : first.Sound)
    (hsecond : second.Sound) (hsize : first.size = second.size)
    (hkeys : ∀ key, key ∈ first.entries.map Prod.fst ↔ key ∈ second.entries.map Prod.fst) :
    first.occupied = second.occupied :=
  Finset.Subset.antisymm
    (hfirst.occupied_subset hsecond hsize fun key => (hkeys key).1)
    (hsecond.occupied_subset hfirst hsize.symm fun key => (hkeys key).2)

theorem Slots.Sound.awaits_vacant {slots : Slots V} (hsound : slots.Sound)
    {entries : List (Key × W)}
    (hkeys : (entries.map Prod.fst).Perm (slots.entries.map Prod.fst)) :
    (Slots.vacant slots.size).Awaits entries := by
  have hcount : entries.length ≤ slots.size := by
    have hlength := hkeys.length_eq
    rw [List.length_map, List.length_map] at hlength
    rw [hlength]
    exact slots.length_entries_le
  have hnonzero : ∀ entry ∈ entries, entry.1 ≠ .zero := by
    intro entry hentry
    obtain ⟨stored, hstored, hsame⟩ :=
      List.mem_map.1 (hkeys.mem_iff.1 (List.mem_map_of_mem hentry))
    rw [← hsame]
    exact hsound.entries_nonzero hstored
  exact Slots.awaits_vacant hnonzero (hkeys.nodup_iff.2 hsound.keys_nodup) hcount

/-- The full slots of a sound circle are those that its keys fill when they are filed in a fresh
circle of its size, in any order and with any objects. -/
theorem Slots.Sound.occupied_eq_ofEntries {slots : Slots V} (hsound : slots.Sound)
    {entries : List (Key × W)}
    (hkeys : (entries.map Prod.fst).Perm (slots.entries.map Prod.fst)) :
    slots.occupied = (Slots.ofEntries slots.size entries).occupied := by
  obtain ⟨hfiled, hentries⟩ := (hsound.awaits_vacant hkeys).ofEntries
  apply hsound.occupied_eq hfiled (Slots.size_ofEntries _ _).symm
  intro key
  rw [(hentries.map Prod.fst).mem_iff, hkeys.mem_iff]

end KeyedArena
