import KeyedArena.Proofs.Slots.Walk
import Mathlib.Data.List.Nodup
/-!
The entries of a circle, and what one write does to them.

Slots are compared by position and entries up to order, because growth and closing move entries.
Filling a free slot adds one entry, freeing a full one takes one away, and nothing else changes.
-/

namespace KeyedArena

universe u

variable {V : Type u}

theorem Slots.look_eq_getElem {slots : Slots V} {index : Nat} (h : index < slots.size) :
    slots.look index = slots[index] := by
  simp [Slots.look, Array.getD_eq_getD_getElem?, h]

theorem Slots.toList_eq_map_look (slots : Slots V) :
    slots.toList = (List.range slots.size).map slots.look := by
  apply List.ext_getElem
  · simp
  · intro index hindex _
    rw [Array.length_toList] at hindex
    simp [Slots.look_eq_getElem hindex]

theorem Slots.write_write (slots : Slots V) (index : Nat) (first second : Slot V) :
    (slots.write index first).write index second = slots.write index second := by
  simp [Slots.write]

theorem Slots.write_comm (slots : Slots V) {first second : Nat} (hne : first ≠ second)
    (one other : Slot V) :
    (slots.write first one).write second other = (slots.write second other).write first one :=
  Array.setIfInBounds_comm one other hne

theorem Slots.write_look {slots : Slots V} {index : Nat} (h : index < slots.size) :
    slots.write index (slots.look index) = slots := by
  rw [Slots.look_eq_getElem h, Slots.write, Array.setIfInBounds_def, dif_pos h,
    Array.set_getElem_self]

theorem Slots.write_of_look {slots : Slots V} {index : Nat} {slot : Slot V}
    (hindex : index < slots.size) (hlook : slots.look index = slot) :
    slots.write index slot = slots := by
  rw [← hlook, Slots.write_look hindex]

theorem Slots.look_write {slots : Slots V} {written : Nat} (hwritten : written < slots.size)
    (read : Nat) (slot : Slot V) :
    (slots.write written slot).look read = if read = written then slot else slots.look read := by
  split
  · rename_i hsame
    rw [hsame, Slots.look_write_self hwritten]
  · rename_i hother
    exact Slots.look_write_of_ne slots slot (Ne.symm hother)

theorem Slots.mem_entries_iff {slots : Slots V} {key : Key} {value : V} :
    (key, value) ∈ slots.entries ↔ ∃ index, slots.look index = .full key value := by
  rw [Slots.entries, List.mem_filterMap]
  constructor
  · rintro ⟨slot, hslot, hentry⟩
    obtain ⟨index, hindex, rfl⟩ := Array.mem_iff_getElem.1 (Array.mem_toList_iff.1 hslot)
    refine ⟨index, ?_⟩
    rw [Slots.look_eq_getElem hindex]
    cases hcase : slots[index] with
    | free => simp [hcase] at hentry
    | full stored held =>
        simp only [hcase, Slot.entry?_full, Option.some.injEq, Prod.mk.injEq] at hentry
        rw [hentry.1, hentry.2]
  · rintro ⟨index, hfull⟩
    have hindex := Slots.lt_size_of_full hfull
    refine ⟨slots[index], Array.mem_toList_iff.2 (Array.getElem_mem hindex), ?_⟩
    rw [← Slots.look_eq_getElem hindex, hfull, Slot.entry?_full]

theorem Slots.mem_keys_iff {slots : Slots V} {key : Key} :
    key ∈ slots.entries.map Prod.fst ↔ ∃ index, (slots.look index).key? = some key := by
  rw [List.mem_map]
  constructor
  · rintro ⟨⟨stored, value⟩, hentry, rfl⟩
    obtain ⟨index, hfull⟩ := Slots.mem_entries_iff.1 hentry
    exact ⟨index, Slot.key?_eq_some_iff.2 ⟨value, hfull⟩⟩
  · rintro ⟨index, hkey⟩
    obtain ⟨value, hfull⟩ := Slot.key?_eq_some_iff.1 hkey
    exact ⟨(key, value), Slots.mem_entries_iff.2 ⟨index, hfull⟩, rfl⟩

theorem Slots.entries_write_full {slots : Slots V} {index : Nat} (hindex : index < slots.size)
    (hfree : slots.look index = .free) (key : Key) (value : V) :
    (slots.write index (.full key value)).entries.Perm ((key, value) :: slots.entries) := by
  have hlength : index < slots.toList.length := hindex
  have hhere : slots.toList[index] = .free := by
    rw [← hfree, Slots.look_eq_getElem hindex, Array.getElem_toList]
  have hsplit : slots.toList =
      slots.toList.take index ++ .free :: slots.toList.drop (index + 1) := by
    rw [← hhere, List.getElem_cons_drop hlength, List.take_append_drop]
  have hwritten : (slots.write index (.full key value)).toList =
      slots.toList.take index ++ .full key value :: slots.toList.drop (index + 1) := by
    rw [Slots.write, Array.toList_setIfInBounds, List.set_eq_take_append_cons_drop,
      if_pos hlength]
  have hbefore : slots.entries = (slots.toList.take index).filterMap Slot.entry? ++
      (slots.toList.drop (index + 1)).filterMap Slot.entry? := by
    conv_lhs => rw [Slots.entries, hsplit, List.filterMap_append, List.filterMap_cons]
    rfl
  rw [hbefore, Slots.entries, hwritten, List.filterMap_append, List.filterMap_cons]
  exact List.perm_middle

theorem Slots.entries_write_free {slots : Slots V} {index : Nat} {key : Key} {value : V}
    (hfull : slots.look index = .full key value) :
    slots.entries.Perm ((key, value) :: (slots.write index .free).entries) := by
  have hindex := Slots.lt_size_of_full hfull
  have hbound : index < (slots.write index .free).size := by rwa [Slots.size_write]
  have hrefilled : (slots.write index .free).write index (.full key value) = slots := by
    rw [Slots.write_write, Slots.write_of_look hindex hfull]
  have hadded := Slots.entries_write_full hbound (Slots.look_write_self hindex _) key value
  rwa [hrefilled] at hadded

theorem Slots.entries_vacant (capacity : Nat) :
    (Slots.vacant capacity : Slots V).entries = [] := by
  simp [Slots.entries, Slots.vacant]

theorem Slots.Sound.keys_nodup {slots : Slots V} (hsound : slots.Sound) :
    (slots.entries.map Prod.fst).Nodup := by
  rw [Slots.entries, List.map_filterMap, List.Nodup, List.pairwise_filterMap,
    List.pairwise_iff_getElem]
  intro first second hfirst hsecond hlt key hkey other hother heq
  subst heq
  have hlook : ∀ index, (hindex : index < slots.toList.length) →
      slots.look index = slots.toList[index] := by
    intro index hindex
    rw [Slots.look_eq_getElem hindex, Array.getElem_toList]
  rw [← hlook first hfirst] at hkey
  rw [← hlook second hsecond] at hother
  have hsame : first = second := hsound.distinct hkey hother
  omega

theorem Slots.length_entries_le (slots : Slots V) : slots.entries.length ≤ slots.size := by
  rw [Slots.entries, ← Array.length_toList]
  exact List.length_filterMap_le _ _

/-- There is room exactly as long as there are fewer entries than slots. -/
theorem Slots.hasRoom_iff {slots : Slots V} :
    slots.HasRoom ↔ slots.entries.length < slots.size := by
  rw [Slots.entries, ← Array.length_toList, List.length_filterMap_lt_length_iff_exists]
  constructor
  · rintro ⟨index, hindex, hfree⟩
    refine ⟨slots[index], Array.mem_toList_iff.2 (Array.getElem_mem hindex), ?_⟩
    rw [← Slots.look_eq_getElem hindex, hfree, Slot.entry?_free]
  · rintro ⟨slot, hslot, hnone⟩
    obtain ⟨index, hindex, rfl⟩ := Array.mem_iff_getElem.1 (Array.mem_toList_iff.1 hslot)
    refine ⟨index, hindex, ?_⟩
    rw [Slots.look_eq_getElem hindex]
    cases hcase : slots[index] with
    | free => rfl
    | full key value => simp [hcase] at hnone

end KeyedArena
