import KeyedArena.Proofs.Slots.Footprint
/-!
How far all entries together are from their homes.

Which of two keys comes nearer to its home depends on the order of filing, but what the one gains
the other loses.  There is always a slot that no walk for an entry leads past; a free slot is one.
Counted from the slot behind it, an entry is as far away as its home and its displacement come to
together.  So the displacements add up to the distances of the full slots less those of the homes,
and both depend on the keys alone.
-/

namespace KeyedArena

universe u v

variable {V : Type u} {W : Type v}

/-- A slot that ends every walk for an entry: from no home is the entry farther than the slot. -/
structure Slots.EndsWalks (slots : Slots V) (last : Nat) : Prop where
  lt_size : last < slots.size
  reached : ∀ {index : Nat} {key : Key}, (slots.look index).key? = some key →
    distance slots.size (key.home slots.size) index ≤
      distance slots.size (key.home slots.size) last

theorem Slots.Sound.endsWalks {slots : Slots V} (hsound : slots.Sound) {free : Nat}
    (hbound : free < slots.size) (hfree : slots.look free = .free) : slots.EndsWalks free := by
  refine ⟨hbound, ?_⟩
  intro index key hkey
  have hpositive : 0 < slots.size := by omega
  obtain ⟨hhome, hahead⟩ := hsound.distance_of_free hbound hfree hkey
  have hround := distance_triangle hbound (key.home_lt hpositive) hbound
  have hself := distance_self hbound
  have hlast := distance_lt free index hpositive
  omega

/-- A slot that was free still ends every walk when one more entry has been filed, even in it. -/
theorem Slots.Sound.endsWalks_place {slots : Slots V} (hsound : slots.Sound) {free : Nat}
    (hbound : free < slots.size) (hfree : slots.look free = .free) (key : Key) (value : V) :
    (slots.place key value).EndsWalks free := by
  have hroom : slots.HasRoom := ⟨free, hbound, hfree⟩
  obtain ⟨target, htarget, _, hwalk, hplace⟩ := hroom.place_eq key value
  have hsize := slots.size_place key value
  refine ⟨hsize ▸ hbound, ?_⟩
  intro index other hkey
  rw [hplace, Slots.look_write htarget] at hkey
  rw [hsize]
  by_cases hhere : index = target
  · rw [if_pos hhere, Slot.key?_full, Option.some.injEq] at hkey
    rw [← hkey, hhere]
    -- a walk that went on past the free slot would have been filed there
    by_contra hpassed
    have hfull := (Slots.unbroken_iff (key.home_lt (by omega))).1 hwalk free hbound (by omega)
    rw [hfree] at hfull
    simp at hfull
  · rw [if_neg hhere] at hkey
    exact (hsound.endsWalks hbound hfree).reached hkey

theorem Slots.Sound.exists_endsWalks {slots : Slots V} (hsound : slots.Sound)
    (hroom : slots.HasRoom) : ∃ last, slots.EndsWalks last := by
  obtain ⟨free, hbound, hfree⟩ := hroom
  exact ⟨free, hsound.endsWalks hbound hfree⟩

theorem Slots.Sound.exists_endsWalks_place {slots : Slots V} (hsound : slots.Sound)
    (hroom : slots.HasRoom) (key : Key) (value : V) :
    ∃ last, (slots.place key value).EndsWalks last := by
  obtain ⟨free, hbound, hfree⟩ := hroom
  exact ⟨free, hsound.endsWalks_place hbound hfree key value⟩

/-- Entries that a circle with room awaits leave a slot that ends every walk when they are filed,
even if they fill the circle. -/
theorem Slots.Awaits.exists_endsWalks {slots : Slots V} {entries : List (Key × V)}
    (hawaits : slots.Awaits entries) (hroom : slots.HasRoom) :
    ∃ last, (entries.foldl (fun slots entry => slots.place entry.1 entry.2) slots).EndsWalks
      last := by
  induction entries generalizing slots with
  | nil => exact hawaits.sound.exists_endsWalks hroom
  | cons entry rest ih =>
      obtain ⟨key, value⟩ := entry
      have hplaced := hawaits.place
      rw [List.foldl_cons]
      cases rest with
      | nil => exact hawaits.sound.exists_endsWalks_place hroom key value
      | cons next later => exact ih hplaced hplaced.hasRoom

/-- Counted from behind a slot that ends every walk, the way to an entry leads by its home. -/
theorem Slots.EndsWalks.distance_eq {slots : Slots V} {last : Nat} (hends : slots.EndsWalks last)
    {index : Nat} {key : Key} (hkey : (slots.look index).key? = some key) :
    distance slots.size (following slots.size last) (key.home slots.size) +
        distance slots.size (key.home slots.size) index =
      distance slots.size (following slots.size last) index := by
  have hbound := hends.lt_size
  have hpositive : 0 < slots.size := by omega
  have hstart := following_lt last hpositive
  have hhome := key.home_lt hpositive
  have hlength := distance_following_self hbound
  have hround := distance_triangle hstart hhome hbound
  have hway := distance_triangle hstart hhome (Slots.lt_size_of_key? hkey)
  have hreached := hends.reached hkey
  have hhomeLast := distance_lt (following slots.size last) (key.home slots.size) hpositive
  have hlast := distance_lt (key.home slots.size) last hpositive
  omega

/-- What the keys of the slots weigh, free slots weighing nothing, is what the listed keys weigh. -/
theorem Slots.sum_weight (slots : List (Slot V)) (weight : Key → Nat) :
    (slots.map fun slot => slot.key?.elim 0 weight).sum =
      (((slots.filterMap Slot.entry?).map Prod.fst).map weight).sum := by
  induction slots with
  | nil => rfl
  | cons slot rest ih =>
      cases slot with
      | free => simpa [List.filterMap_cons] using ih
      | full key value => simpa [List.filterMap_cons] using ih

theorem Slots.sum_occupied (slots : Slots V) (weight : Key → Nat) :
    ∑ index ∈ slots.occupied, (slots.look index).key?.elim 0 weight =
      ((slots.entries.map Prod.fst).map weight).sum := by
  have hall : ∑ index ∈ slots.occupied, (slots.look index).key?.elim 0 weight =
      ∑ index ∈ Finset.range slots.size, (slots.look index).key?.elim 0 weight := by
    apply Finset.sum_filter_of_ne
    intro index _ hweight
    rw [Slot.isFree_eq_false_iff_ne]
    intro hfree
    simp [hfree] at hweight
  rw [hall, Slots.entries, ← Slots.sum_weight, Slots.toList_eq_map_look, List.map_map]
  rfl

theorem Slots.displacement_of_key? {slots : Slots V} {index : Nat} {key : Key}
    (hkey : (slots.look index).key? = some key) :
    slots.displacement index = distance slots.size (key.home slots.size) index := by
  rw [Slots.displacement, hkey]

theorem Key.distance_home {capacity : Nat} (hpositive : 0 < capacity) (key : Key) (index : Nat) :
    (distance capacity (key.home capacity) index : Int) =
      ((index : Int) - key.hash.toNat) % capacity := by
  have hhome : key.hash.toNat % capacity < capacity := key.home_lt hpositive
  have hrounds := Nat.div_add_mod key.hash.toNat capacity
  -- turned back by the rounds of the hash and one more, the difference is not negative
  have hturned : ((index + (capacity - key.hash.toNat % capacity) : Nat) : Int) =
      (index : Int) - key.hash.toNat + (capacity * (key.hash.toNat / capacity + 1) : Nat) := by
    rw [Nat.mul_succ]
    omega
  rw [distance, Key.home, Int.natCast_emod, hturned, Int.natCast_mul, Int.add_mul_emod_self_left]

theorem Slots.exists_key_of_mem_occupied {slots : Slots V} {index : Nat}
    (hindex : index ∈ slots.occupied) : ∃ key, (slots.look index).key? = some key := by
  obtain ⟨key, value, hfull⟩ := Slot.isFree_eq_false_iff.1 (Finset.mem_filter.1 hindex).2
  exact ⟨key, Slots.key?_of_full hfull⟩

section Total

variable {first : Slots V} {second : Slots W}

/-- From any start, the full slots are no farther than the homes and the displacements together. -/
theorem Slots.sum_distance_le (slots : Slots V) {start : Nat} (hstart : start < slots.size) :
    ∑ index ∈ slots.occupied, distance slots.size start index ≤
      ((slots.entries.map Prod.fst).map fun key =>
          distance slots.size start (key.home slots.size)).sum +
        slots.totalDisplacement := by
  rw [← Slots.sum_occupied, Slots.totalDisplacement, ← Finset.sum_add_distrib]
  apply Finset.sum_le_sum
  intro index hindex
  obtain ⟨key, hkey⟩ := Slots.exists_key_of_mem_occupied hindex
  have hway := distance_triangle hstart (key.home_lt (by omega)) (Slots.lt_size_of_key? hkey)
  rw [Slots.displacement_of_key? hkey, hkey, Option.elim_some]
  omega

/-- From behind a slot that ends every walk, they are just as far. -/
theorem Slots.EndsWalks.sum_distance_eq {slots : Slots V} {last : Nat}
    (hends : slots.EndsWalks last) :
    ∑ index ∈ slots.occupied, distance slots.size (following slots.size last) index =
      ((slots.entries.map Prod.fst).map fun key =>
          distance slots.size (following slots.size last) (key.home slots.size)).sum +
        slots.totalDisplacement := by
  rw [← Slots.sum_occupied, Slots.totalDisplacement, ← Finset.sum_add_distrib]
  apply Finset.sum_congr rfl
  intro index hindex
  obtain ⟨key, hkey⟩ := Slots.exists_key_of_mem_occupied hindex
  rw [Slots.displacement_of_key? hkey, hkey, Option.elim_some, hends.distance_eq hkey]

/-- Where a slot ends every walk, the entries are no farther from their homes than in any circle
that is filled in the same slots with the same keys. -/
theorem Slots.EndsWalks.totalDisplacement_le {last : Nat} (hends : first.EndsWalks last)
    (hsize : first.size = second.size) (hoccupied : first.occupied = second.occupied)
    (hkeys : (first.entries.map Prod.fst).Perm (second.entries.map Prod.fst)) :
    first.totalDisplacement ≤ second.totalDisplacement := by
  have hstart := following_lt last (Nat.lt_of_le_of_lt (Nat.zero_le _) hends.lt_size)
  have hfirst := hends.sum_distance_eq
  have hsecond := second.sum_distance_le (hsize ▸ hstart)
  have hhomes := (hkeys.map fun key =>
    distance first.size (following first.size last) (key.home first.size)).sum_eq
  rw [← hsize, ← hoccupied] at hsecond
  omega

/-- Sound circles of one size with the same keys are equally far from the homes of all their
entries together, if each has a slot that ends every walk. -/
theorem Slots.Sound.totalDisplacement_congr (hfirst : first.Sound) (hsecond : second.Sound)
    (hsize : first.size = second.size)
    (hkeys : (first.entries.map Prod.fst).Perm (second.entries.map Prod.fst))
    (hfirstEnds : ∃ last, first.EndsWalks last) (hsecondEnds : ∃ last, second.EndsWalks last) :
    first.totalDisplacement = second.totalDisplacement := by
  have hoccupied := hfirst.occupied_eq hsecond hsize fun key => hkeys.mem_iff
  obtain ⟨last, hends⟩ := hfirstEnds
  obtain ⟨final, hfinal⟩ := hsecondEnds
  exact Nat.le_antisymm (hends.totalDisplacement_le hsize hoccupied hkeys)
    (hfinal.totalDisplacement_le hsize.symm hoccupied.symm hkeys.symm)

/-- They are as far from their homes as in a fresh circle in which the keys are filed in any order
and with any objects. -/
theorem Slots.Sound.totalDisplacement_refilled (hsound : first.Sound) (hpositive : 0 < first.size)
    (hends : ∃ last, first.EndsWalks last) {entries : List (Key × W)}
    (hkeys : (entries.map Prod.fst).Perm (first.entries.map Prod.fst)) :
    first.totalDisplacement = (Slots.ofEntries first.size entries).totalDisplacement := by
  have hawaits := hsound.awaits_vacant hkeys
  obtain ⟨hfiled, hentries⟩ := hawaits.ofEntries
  have hroom : (Slots.vacant first.size : Slots W).HasRoom :=
    ⟨0, by rwa [Slots.size_vacant], Slots.look_vacant _ 0⟩
  exact hsound.totalDisplacement_congr hfiled (Slots.size_ofEntries _ _).symm
    (hkeys.symm.trans (hentries.map Prod.fst).symm) hends (hawaits.exists_endsWalks hroom)

end Total

end KeyedArena
