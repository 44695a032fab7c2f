import KeyedArena.Proofs.Columns.Views
/-!
Walks over the column of keys.

A free slot somewhere in the circle is all that a walk needs to end.  On a circle in which no entry
is filed under key zero, a walk over the keys then stops where the walk over the slots does, so it
finds what is located there, and an entry is filed in the same slot.
-/

namespace KeyedArena

open Checked

variable {V : Type}

/-- A walk over the keys says whether the key is where the walk over the slots ends. -/
theorem Slots.findFrom_eq {slots : Slots V} (haddressable : Addressable slots.size)
    (hnonzero : ∀ index, (slots.look index).key? ≠ some .zero) {key : Key} (hkey : key ≠ .zero)
    {start : Nat} (hstart : start < slots.size) (steps : Nat) :
    findFrom slots.columns.keys (slots.size - 1) key start steps =
      match slots.firstFrom (fun slot => slot.isFree || slot.holds key) start steps with
      | none => .error .walkEndless
      | some index => .ok (if (slots.look index).holds key then some index else none) := by
  induction steps generalizing start with
  | zero => rfl
  | succ n ih =>
      have hzero := hnonzero start
      rw [Slots.firstFrom, findFrom, Slots.read_keys hstart, ok_bind]
      cases hslot : slots.look start with
      | free => simp [hslot, Slot.holds]
      | full other value =>
          have hother : other ≠ .zero := by simpa [hslot] using hzero
          by_cases hsame : other = key
          · simp [hslot, Slot.holds, hsame, hkey]
          · have hlater := ih (following_lt start haddressable.pos)
            simp only [Slot.key?_full, Option.getD_some, hother, hsame, if_false]
            rw [haddressable.ahead_one hstart, ok_bind, hlater]
            simp [Slot.holds, hsame]

/-- As long as a slot is free, a key is found where it is located. -/
theorem Slots.find_eq {slots : Slots V} (haddressable : Addressable slots.size)
    (hnonzero : ∀ index, (slots.look index).key? ≠ some .zero) (hroom : slots.HasRoom) {key : Key}
    (hkey : key ≠ .zero) :
    find slots.columns.keys (slots.size - 1) key = .ok (slots.locate? key) := by
  have hpositive := haddressable.pos
  obtain ⟨free, hbound, hfree⟩ := hroom
  obtain ⟨index, hindex⟩ := Slots.exists_probe (fun slot => slot.isFree || slot.holds key) hbound
    (by rw [hfree, Slot.isFree_free, Bool.true_or]) key
  have hround : slots.size - 1 + 1 = slots.size := by omega
  have hwalk := Slots.findFrom_eq haddressable hnonzero hkey (key.home_lt hpositive) slots.size
  rw [← Slots.probe, hindex] at hwalk
  rw [find, hash_eq hkey, ok_bind, Key.hash_and_mask haddressable.power, hround, hwalk,
    Slots.locate?, hindex, Option.filter_some]

/-- A walk over the keys to a free slot ends where the walk to the key or a free slot does, and
complains if the key is there. -/
theorem Slots.vacancyFrom_eq {slots : Slots V} (haddressable : Addressable slots.size)
    (hnonzero : ∀ index, (slots.look index).key? ≠ some .zero) (key : Key) {start : Nat}
    (hstart : start < slots.size) (steps : Nat) :
    vacancyFrom slots.columns.keys (slots.size - 1) key start steps =
      match slots.firstFrom (fun slot => slot.isFree || slot.holds key) start steps with
      | none => .error .walkEndless
      | some index => if (slots.look index).holds key then .error (.keyMet key) else .ok index := by
  induction steps generalizing start with
  | zero => rfl
  | succ n ih =>
      have hzero := hnonzero start
      rw [Slots.firstFrom, vacancyFrom, Slots.read_keys hstart, ok_bind]
      cases hslot : slots.look start with
      | free => simp [hslot, Slot.holds]
      | full other value =>
          have hother : other ≠ .zero := by simpa [hslot] using hzero
          simp only [Slot.key?_full, Option.getD_some, hother, if_false]
          by_cases hsame : other = key
          · simp only [require, hsame, ne_eq, not_true_eq_false, decide_false, Bool.false_eq_true,
              if_false]
            simp [hslot, Slot.holds, hsame]
            rfl
          · have hlater := ih (following_lt start haddressable.pos)
            simp only [require, ne_eq, hsame, not_false_eq_true, decide_true, if_true, ok_bind]
            rw [haddressable.ahead_one hstart, ok_bind, hlater]
            simp [Slot.holds, hsame]

theorem Slots.vacancy_eq {slots : Slots V} (haddressable : Addressable slots.size)
    (hnonzero : ∀ index, (slots.look index).key? ≠ some .zero) {key : Key} (hkey : key ≠ .zero)
    {index : Nat}
    (hindex : slots.probe (fun slot => slot.isFree || slot.holds key) key = some index) :
    vacancy slots.columns.keys (slots.size - 1) key =
      if (slots.look index).holds key then .error (.keyMet key) else .ok index := by
  have hpositive := haddressable.pos
  have hround : slots.size - 1 + 1 = slots.size := by omega
  have hwalk := Slots.vacancyFrom_eq haddressable hnonzero key (key.home_lt hpositive) slots.size
  rw [← Slots.probe, hindex] at hwalk
  rw [vacancy, hash_eq hkey, ok_bind, Key.hash_and_mask haddressable.power, hround, hwalk]

theorem Slots.HasRoom.place_columns {slots : Slots V} (hroom : slots.HasRoom)
    (haddressable : Addressable slots.size)
    (hnonzero : ∀ index, (slots.look index).key? ≠ some .zero) {key : Key} (hkey : key ≠ .zero)
    (hfresh : ∀ index, (slots.look index).key? ≠ some key) (value : V) :
    slots.columns.place (slots.size - 1) key (some value) =
      .ok (slots.place key value).columns := by
  have hpositive := haddressable.pos
  obtain ⟨index, hvacancy⟩ := hroom.exists_vacancy key
  obtain ⟨hindex, _, _⟩ := (Slots.vacancy?_eq_some_iff hpositive).1 hvacancy
  have hholds : ∀ place, (slots.look place).holds key = false := by
    intro place
    by_contra hheld
    exact hfresh place (Slot.holds_iff.1 (by simpa using hheld))
  -- the key is nowhere, so the walk to it or a free slot is the walk to a free slot
  have hwalk : slots.probe (fun slot => slot.isFree || slot.holds key) key = some index := by
    rw [← hvacancy]
    exact Slots.firstFrom_congr fun place => by rw [hholds place, Bool.or_false]
  have hvacant := Slots.vacancy_eq haddressable hnonzero hkey hwalk
  rw [hholds index, if_neg Bool.false_ne_true] at hvacant
  have hkeys := Slots.write_keys hindex (.full key value)
  have hobjects := Slots.write_objects hindex (.full key value)
  rw [Slot.key?_full, Option.getD_some] at hkeys
  rw [Slot.value?_full] at hobjects
  rw [Columns.place, hvacant, ok_bind, hkeys, ok_bind, hobjects, ok_bind, Slots.place, hvacancy]
  rfl

theorem Slots.zip_columns (slots : Slots V) :
    slots.columns.keys.toList.zip slots.columns.objects.toList =
      slots.toList.map fun slot => (slot.key?.getD .zero, slot.value?) := by
  rw [Slots.columns, Array.toList_map, Array.toList_map, List.zip_map']

/-- Filing the keys of old slots in columns is filing their entries in the circle. -/
theorem Slots.Awaits.foldlM_carry {filed : Slots V} (haddressable : Addressable filed.size)
    {old : List (Slot V)} (hawaits : filed.Awaits (old.filterMap Slot.entry?)) :
    (old.map fun slot => (slot.key?.getD .zero, slot.value?)).foldlM
        (Columns.carry (filed.size - 1)) filed.columns =
      .ok ((old.filterMap Slot.entry?).foldl
        (fun slots entry => slots.place entry.1 entry.2) filed).columns := by
  induction old generalizing filed with
  | nil => rfl
  | cons slot rest ih =>
      rw [List.map_cons, List.foldlM_cons]
      cases slot with
      | free => exact ih haddressable hawaits
      | full key value =>
          rw [List.filterMap_cons_some (Slot.entry?_full key value)] at hawaits ⊢
          have hkey : key ≠ .zero := hawaits.nonzero _ List.mem_cons_self
          have hplaced := hawaits.hasRoom.place_columns haddressable hawaits.sound.nonzero hkey
            hawaits.fresh value
          have hsize := filed.size_place key value
          have hlater := ih (hsize ▸ haddressable) hawaits.place
          rw [hsize] at hlater
          rw [Slot.key?_full, Option.getD_some, Slot.value?_full, Columns.carry, if_neg hkey,
            hplaced, ok_bind, hlater, List.foldl_cons]

/-- Filing the keys of a sound circle anew, in vacant columns with enough slots. -/
theorem Slots.Sound.placeAll_columns {slots : Slots V} (hsound : slots.Sound) {capacity : Nat}
    (haddressable : Addressable capacity) (hroom : slots.size ≤ capacity) :
    (Columns.vacant capacity).placeAll (capacity - 1) slots.columns =
      .ok (slots.rehash capacity).columns := by
  have hawaits : (Slots.vacant capacity).Awaits slots.entries :=
    Slots.awaits_vacant (fun _ hentry => hsound.entries_nonzero hentry) hsound.keys_nodup
      (slots.length_entries_le.trans hroom)
  have hsize : (Slots.vacant capacity : Slots V).size = capacity := Slots.size_vacant capacity
  have hfiled := Slots.Awaits.foldlM_carry (hsize.symm ▸ haddressable) hawaits
  rw [hsize, Slots.columns_vacant] at hfiled
  rw [Columns.placeAll, Slots.zip_columns]
  exact hfiled

end KeyedArena
