import KeyedArena.Proofs.Slots.Sweep
/-!
What closing a gap moves, and where to.

A sweep passes the slots after the freed one in order.  The slots ahead of it are as they were, and
behind it every slot but the gap is full, so the slots that are full when it ends are those that
were full before, less the last gap.  An entry is moved once at most, when the sweep passes it, and
then to a slot that comes earlier on its own walk.
-/

namespace KeyedArena

universe u

variable {V : Type u}

/-- How an entry comes through a sweep: it keeps its slot, or it is moved once, to a slot that its
walk reaches sooner. -/
inductive Shifted (capacity : Nat) (moves : List Move) (key : Key) : Nat → Nat → Prop where
  | stayed {place : Nat} (hmoves : moves.filter (·.key = key) = []) :
      Shifted capacity moves key place place
  | moved {place now : Nat}
      (hsooner : distance capacity (key.home capacity) now <
        distance capacity (key.home capacity) place)
      (hmoves : moves.filter (·.key = key) = [⟨key, place, now⟩]) :
      Shifted capacity moves key place now

theorem Shifted.cons {capacity : Nat} {moves : List Move} {key : Key} {place now : Nat}
    (hshifted : Shifted capacity moves key place now) {move : Move} (hother : move.key ≠ key) :
    Shifted capacity (move :: moves) key place now := by
  have hskip : (move :: moves).filter (·.key = key) = moves.filter (·.key = key) :=
    List.filter_cons_of_neg (by simpa using hother)
  cases hshifted with
  | stayed hmoves => exact .stayed (hskip.trans hmoves)
  | moved hsooner hmoves => exact .moved hsooner (hskip.trans hmoves)

/-- A sweep that is about to look at `index`, seen from the slot that was freed in the circle it
began with. -/
structure Closing.Trailing (origin : Slots V) (freed : Nat) (closing : Closing V) (index : Nat) :
    Prop where
  size : closing.slots.size = origin.size
  freed_lt : freed < origin.size
  gap_behind : distance origin.size freed closing.gap < distance origin.size freed index
  /-- All slots that the sweep has passed were full. -/
  passed : ∀ place < origin.size,
    distance origin.size freed place < distance origin.size freed index →
      (origin.look place).isFree = false
  /-- They are full again, but for the gap. -/
  refilled : ∀ place < origin.size,
    distance origin.size freed place < distance origin.size freed index → place ≠ closing.gap →
      (closing.slots.look place).isFree = false
  untouched : ∀ place < origin.size,
    distance origin.size freed index ≤ distance origin.size freed place →
      closing.slots.look place = origin.look place
  survived : ∀ {place : Nat} {key : Key} {value : V}, origin.look place = .full key value →
    place ≠ freed → ∃ now, closing.slots.look now = .full key value ∧
      Shifted origin.size closing.moves key place now

/-- The slot freed first is the gap of a sweep that has passed no other slot. -/
theorem Slots.trailing {slots : Slots V} {index : Nat} (hindex : index < slots.size)
    (hround : 1 < slots.size) (hfull : slots.look index ≠ .free) :
    Closing.Trailing slots index ⟨slots.write index .free, index, []⟩
      (following slots.size index) := by
  have hlook := fun read => Slots.look_write hindex read .free
  have hself := distance_self hindex
  have hone : distance slots.size index (following slots.size index) = 1 := by
    exact distance_following_one hindex hround
  have hhere : ∀ place < slots.size, distance slots.size index place < 1 → place = index :=
    fun place hplace hnear => distance_inj hindex hplace hindex (by omega)
  constructor
  case size => exact slots.size_write _ _
  case freed_lt => exact hindex
  case gap_behind =>
    rw [hself, hone]
    exact Nat.one_pos
  case passed =>
    intro place hplace hnear
    rw [hone] at hnear
    rw [hhere place hplace hnear]
    exact Slot.isFree_eq_false_iff_ne.2 hfull
  case refilled =>
    intro place hplace hnear hne
    rw [hone] at hnear
    exact absurd (hhere place hplace hnear) hne
  case untouched =>
    intro place hplace hfar
    rw [hlook, if_neg]
    rintro rfl
    omega
  case survived =>
    intro place key value hplace hne
    exact ⟨place, by rw [hlook, if_neg hne, hplace], .stayed rfl⟩

section Step

variable {origin : Slots V} {freed : Nat} {closing : Closing V} {index stop : Nat}

theorem Closing.Trailing.ne_freed (htrailing : closing.Trailing origin freed index) :
    index ≠ freed := by
  rintro rfl
  have hbehind := htrailing.gap_behind
  rw [distance_self htrailing.freed_lt] at hbehind
  omega

theorem Closing.Trailing.look_eq (htrailing : closing.Trailing origin freed index)
    (hsweep : closing.Sweeping index stop) : closing.slots.look index = origin.look index :=
  htrailing.untouched index (htrailing.size ▸ hsweep.index_lt) (Nat.le_refl _)

theorem Closing.Trailing.next (htrailing : closing.Trailing origin freed index)
    (hsweep : closing.Sweeping index stop) (hfull : closing.slots.look index ≠ .free) :
    distance origin.size freed (following origin.size index) =
      distance origin.size freed index + 1 := by
  obtain ⟨hstopNe, _, hnearer⟩ := hsweep.next hfull
  have hsize := htrailing.size
  have hindex : index < origin.size := hsize ▸ hsweep.index_lt
  have hstop : stop < origin.size := hsize ▸ hsweep.stop_lt
  have hstopGap : stop ≠ closing.gap := by
    rintro rfl
    rw [distance_self hsweep.gap_lt] at hnearer
    omega
  have hahead : distance origin.size freed index ≤ distance origin.size freed stop := by
    by_contra hbehind
    have hstopFull := htrailing.refilled stop hstop (by omega) hstopGap
    rw [hsweep.stop_free] at hstopFull
    simp at hstopFull
  have hapart : distance origin.size freed index ≠ distance origin.size freed stop :=
    fun hsame => hstopNe (distance_inj htrailing.freed_lt hstop hindex hsame.symm)
  have hround := distance_lt freed stop (by omega : 0 < origin.size)
  exact distance_to_following htrailing.freed_lt hindex (by omega)

/-- Slots passed by the time the next one is looked at: those passed before, and the present one. -/
theorem Closing.Trailing.lt_next_iff (htrailing : closing.Trailing origin freed index)
    (hsweep : closing.Sweeping index stop) (hfull : closing.slots.look index ≠ .free)
    {place : Nat} (hplace : place < origin.size) :
    distance origin.size freed place < distance origin.size freed (following origin.size index) ↔
      distance origin.size freed place < distance origin.size freed index ∨ place = index := by
  have hindex : index < origin.size := htrailing.size ▸ hsweep.index_lt
  rw [htrailing.next hsweep hfull]
  constructor
  · intro hnear
    rcases Nat.lt_or_ge (distance origin.size freed place) (distance origin.size freed index)
      with hlt | hge
    · exact Or.inl hlt
    · exact Or.inr (distance_inj htrailing.freed_lt hplace hindex (by omega))
  · rintro (hlt | rfl) <;> omega

theorem Closing.Trailing.skip (htrailing : closing.Trailing origin freed index)
    (hsweep : closing.Sweeping index stop) (hfull : closing.slots.look index ≠ .free) :
    closing.Trailing origin freed (following origin.size index) := by
  have hnext := htrailing.next hsweep hfull
  have hbehind := htrailing.gap_behind
  constructor
  case size => exact htrailing.size
  case freed_lt => exact htrailing.freed_lt
  case gap_behind => omega
  case passed =>
    intro place hplace hnear
    rcases (htrailing.lt_next_iff hsweep hfull hplace).1 hnear with hlt | rfl
    · exact htrailing.passed place hplace hlt
    · rw [← htrailing.look_eq hsweep]
      exact Slot.isFree_eq_false_iff_ne.2 hfull
  case refilled =>
    intro place hplace hnear hne
    rcases (htrailing.lt_next_iff hsweep hfull hplace).1 hnear with hlt | rfl
    · exact htrailing.refilled place hplace hlt hne
    · exact Slot.isFree_eq_false_iff_ne.2 hfull
  case untouched =>
    intro place hplace hfar
    exact htrailing.untouched place hplace (by omega)
  case survived => exact htrailing.survived

/-- An entry that the sweep has yet to pass has not been moved. -/
theorem Closing.Trailing.moves_eq_nil (htrailing : closing.Trailing origin freed index)
    (hsweep : closing.Sweeping index stop) {key : Key} {value : V}
    (hfull : closing.slots.look index = .full key value) :
    closing.moves.filter (·.key = key) = [] := by
  have hhere : origin.look index = .full key value := by
    rw [← htrailing.look_eq hsweep, hfull]
  obtain ⟨now, hnow, hshifted⟩ := htrailing.survived hhere htrailing.ne_freed
  have hsame : now = index := hsweep.distinct (Slots.key?_of_full hnow)
    (Slots.key?_of_full hfull)
  rw [hsame] at hshifted
  cases hshifted with
  | stayed hmoves => exact hmoves
  | moved hsooner hmoves => exact absurd hsooner (Nat.lt_irrefl _)

section Move

variable {key : Key} {value : V}

/-- The entry that is moved into the gap is moved for the first time, and nearer to its home. -/
theorem Closing.Trailing.shifted_moved (htrailing : closing.Trailing origin freed index)
    (hsweep : closing.Sweeping index stop) (hfull : closing.slots.look index = .full key value)
    (hpasses : passesGap closing.slots.size closing.gap index key = true) :
    Shifted origin.size (closing.moved index key value).moves key index closing.gap := by
  have hsooner := (passesGap_iff hsweep.gap_lt hsweep.index_lt hsweep.left).1 hpasses
  rw [htrailing.size] at hsooner
  refine .moved hsooner ?_
  rw [Closing.moved, List.filter_cons_of_pos (by simp), htrailing.moves_eq_nil hsweep hfull]

/-- Every entry comes through a move, the one that is moved as well as the others. -/
theorem Closing.Trailing.survived_moved (htrailing : closing.Trailing origin freed index)
    (hsound : origin.Sound) (hsweep : closing.Sweeping index stop)
    (hfull : closing.slots.look index = .full key value)
    (hpasses : passesGap closing.slots.size closing.gap index key = true) {place : Nat}
    {other : Key} {held : V} (hplace : origin.look place = .full other held)
    (hne : place ≠ freed) :
    ∃ now, (closing.moved index key value).slots.look now = .full other held ∧
      Shifted origin.size (closing.moved index key value).moves other place now := by
  by_cases hmoving : key = other
  · have hhere : origin.look index = .full key value := by
      rw [← htrailing.look_eq hsweep, hfull]
    obtain rfl : place = index :=
      hsound.distinct (Slots.key?_of_full hplace) (hmoving ▸ Slots.key?_of_full hhere)
    obtain ⟨rfl, rfl⟩ : key = other ∧ value = held := by simpa [hhere] using hplace
    exact ⟨closing.gap, hsweep.look_moved_gap key value,
      htrailing.shifted_moved hsweep hfull hpasses⟩
  · obtain ⟨now, hnow, hshifted⟩ := htrailing.survived hplace hne
    exact ⟨now, hsweep.look_moved_of_ne hfull hnow hmoving, hshifted.cons hmoving⟩

theorem Closing.Trailing.move (htrailing : closing.Trailing origin freed index)
    (hsound : origin.Sound) (hsweep : closing.Sweeping index stop)
    (hfull : closing.slots.look index = .full key value)
    (hpasses : passesGap closing.slots.size closing.gap index key = true) :
    (closing.moved index key value).Trailing origin freed (following origin.size index) := by
  have hne := Slots.look_ne_free hfull
  have hnext := htrailing.next hsweep hne
  have hbehind := htrailing.gap_behind
  have hlook := Closing.look_moved hsweep.gap_lt hsweep.index_lt key value
  have hnew : (closing.moved index key value).gap = index := rfl
  constructor
  case size => exact (closing.size_moved index key value).trans htrailing.size
  case freed_lt => exact htrailing.freed_lt
  case gap_behind =>
    rw [hnew]
    omega
  case passed =>
    intro place hplace hnear
    rcases (htrailing.lt_next_iff hsweep hne hplace).1 hnear with hlt | rfl
    · exact htrailing.passed place hplace hlt
    · rw [← htrailing.look_eq hsweep, hfull]
      rfl
  case refilled =>
    intro place hplace hnear hplaceNe
    rw [hnew] at hplaceNe
    rw [hlook, if_neg hplaceNe]
    split
    · rfl
    · rename_i hgapNe
      rcases (htrailing.lt_next_iff hsweep hne hplace).1 hnear with hlt | rfl
      · exact htrailing.refilled place hplace hlt hgapNe
      · exact absurd rfl hplaceNe
  case untouched =>
    intro place hplace hfar
    rw [hlook, if_neg, if_neg]
    · exact htrailing.untouched place hplace (by omega)
    · rintro rfl
      omega
    · rintro rfl
      omega
  case survived =>
    intro place other held hplace hplaceNe
    exact htrailing.survived_moved hsound hsweep hfull hpasses hplace hplaceNe

end Move

theorem Closing.Trailing.visit (htrailing : closing.Trailing origin freed index)
    (hsound : origin.Sound) (hsweep : closing.Sweeping index stop)
    (hfull : closing.slots.look index ≠ .free) :
    (closing.visit index).Trailing origin freed (following closing.slots.size index) := by
  rw [htrailing.size]
  cases hslot : closing.slots.look index with
  | free => exact absurd hslot hfull
  | full key value =>
      cases hpasses : passesGap closing.slots.size closing.gap index key with
      | false =>
          rw [Closing.visit_of_full hslot, hpasses]
          exact htrailing.skip hsweep hfull
      | true =>
          rw [Closing.visit_of_full hslot, hpasses]
          exact htrailing.move hsound hsweep hslot hpasses

end Step

/-- The sweep of a closing ends at the first free slot after the freed one, having passed exactly
the slots before it. -/
theorem Slots.Sound.close_trailing {slots : Slots V} (hsound : slots.Sound)
    (hroom : slots.HasRoom) {index : Nat} (hfull : slots.look index ≠ .free) :
    ∃ last, slots.FirstWanted Slot.isFree (following slots.size index) last ∧
      (slots.close index).Trailing slots index last ∧
      (slots.close index).gap < slots.size ∧
      (slots.close index).slots.look (slots.close index).gap = .free := by
  have hindex := Slots.lt_size_of_look_ne_free hfull
  obtain ⟨last, stop, hsweep, htrailing, hlast⟩ := hsound.close_ends hroom hfull
    (fun closing place => closing.Trailing slots index place)
    (Slots.trailing hindex (hroom.one_lt_size hfull) hfull)
    (fun hsweep hvisited htrailing => htrailing.visit hsound hsweep hvisited)
  have hlastBound : last < slots.size := htrailing.size ▸ hsweep.index_lt
  have hlastFree : slots.look last = .free :=
    (htrailing.untouched last hlastBound (Nat.le_refl _)).symm.trans hlast
  have hlastNe : last ≠ index := by
    rintro rfl
    exact hfull hlastFree
  refine ⟨last, ⟨hlastBound, Slot.isFree_iff.2 hlastFree, ?_⟩, htrailing,
    htrailing.size ▸ hsweep.gap_lt, hsweep.gap_free⟩
  intro passed hpassed hsooner
  by_cases hhere : passed = index
  · rw [hhere]
    exact Slot.isFree_eq_false_iff_ne.2 hfull
  · apply htrailing.passed passed hpassed
    have hstepPassed := distance_following hindex hpassed hhere
    have hstepLast := distance_following hindex hlastBound hlastNe
    omega

/-- Closing a gap frees the last gap, which was full, and leaves all other slots as free or as full
as they were. -/
theorem Slots.Sound.isFree_close {slots : Slots V} (hsound : slots.Sound)
    (hroom : slots.HasRoom) {index : Nat} (hfull : slots.look index ≠ .free) :
    (slots.look (slots.close index).gap).isFree = false ∧
      (slots.close index).slots.look (slots.close index).gap = .free ∧
      ∀ place ≠ (slots.close index).gap,
        ((slots.close index).slots.look place).isFree = (slots.look place).isFree := by
  obtain ⟨last, hlast, htrailing, hgapBound, hgap⟩ := hsound.close_trailing hroom hfull
  refine ⟨htrailing.passed _ hgapBound htrailing.gap_behind, hgap, ?_⟩
  intro place hne
  by_cases hplace : place < slots.size
  · by_cases hpassed : distance slots.size index place < distance slots.size index last
    · rw [htrailing.refilled place hplace hpassed hne, htrailing.passed place hplace hpassed]
    · rw [htrailing.untouched place hplace (Nat.le_of_not_lt hpassed)]
  · have hout := Nat.le_of_not_lt hplace
    rw [Slots.look_of_size_le hout, Slots.look_of_size_le (by rwa [Slots.size_close])]

end KeyedArena
