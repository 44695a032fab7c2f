import KeyedArena.Proofs.Slots.Filing
import KeyedArena.Proofs.Slots.Overwriting
import KeyedArena.Proofs.Slots.Shifts
/-!
Filing one entry and closing the gap of another can be exchanged.

An entry that is filed beyond the free slot at which a sweep ends is out of the sweep's reach.  An
entry that is filed in that very slot is the last one that the sweep looks at, and it is moved into
the last gap exactly when it would have been filed there had the gap been closed before.  And an
entry that was filed last is in nobody's way: when it is removed, no other entry moves.
-/

namespace KeyedArena

universe u

variable {V : Type u}

theorem Slots.place_eq_write {slots : Slots V} {key : Key} {index : Nat}
    (hindex : index < slots.size) (hfree : slots.look index = .free)
    (hwalk : slots.Unbroken (key.home slots.size) index) (value : V) :
    slots.place key value = slots.write index (.full key value) := by
  have hvacancy := (Slots.vacancy?_eq_some_iff (by omega)).2 ⟨hindex, hfree, hwalk⟩
  rw [Slots.place, hvacancy]

/-- In a sound circle no walk leads through a free slot, so there is nothing to move into it. -/
theorem Closing.visit_of_sound {closing : Closing V} (hsound : closing.slots.Sound)
    (hgap : closing.gap < closing.slots.size) (hfree : closing.slots.look closing.gap = .free)
    (index : Nat) : closing.visit index = closing := by
  cases hslot : closing.slots.look index with
  | free => simp [Closing.visit, hslot]
  | full key value =>
      have hkey := Slots.key?_of_full hslot
      have hindex := Slots.lt_size_of_key? hkey
      have hsize : 0 < closing.slots.size := by omega
      have hne : index ≠ closing.gap := by
        rintro rfl
        rw [hfree] at hslot
        simp at hslot
      have hleft := distance_pos hgap hindex hne
      have hstays : passesGap closing.slots.size closing.gap index key = false := by
        by_contra hpasses
        have honward := (passesGap_iff hgap hindex hleft).1 (by simpa using hpasses)
        have hfull := (Slots.unbroken_iff (key.home_lt hsize)).1 (hsound.unbroken hkey)
          closing.gap hgap honward
        rw [hfree] at hfull
        simp at hfull
      simp [Closing.visit, hslot, hstays]

theorem Closing.sweep_of_sound {closing : Closing V} (hsound : closing.slots.Sound)
    (hgap : closing.gap < closing.slots.size) (hfree : closing.slots.look closing.gap = .free)
    (index steps : Nat) : closing.sweep index steps = closing := by
  induction steps generalizing index with
  | zero => rfl
  | succ n ih =>
      rw [Closing.sweep, Closing.visit_of_sound hsound hgap hfree]
      split
      · rfl
      · exact ih _

theorem Slots.Sound.unbroken_close {slots : Slots V} (hsound : slots.Sound)
    (hroom : slots.HasRoom) {index : Nat} (hfull : slots.look index ≠ .free) {start place : Nat}
    (hstart : start < slots.size) (hwalk : slots.Unbroken start place)
    (haround : distance slots.size start place ≤
      distance slots.size start (slots.close index).gap) :
    (slots.close index).slots.Unbroken start place := by
  obtain ⟨_, _, hothers⟩ := hsound.isFree_close hroom hfull
  have hsize := slots.size_close index
  rw [Slots.unbroken_iff hstart] at hwalk
  rw [Slots.unbroken_iff (by rwa [hsize]), hsize]
  intro passed hpassed hbefore
  have hne : passed ≠ (slots.close index).gap := by
    rintro rfl
    omega
  rw [hothers passed hne]
  exact hwalk passed hpassed hbefore

/-- Removing the entry that was filed last moves no other: the circle is the one before it was
filed. -/
theorem Slots.Sound.close_place_self {slots : Slots V} (hsound : slots.Sound) {index : Nat}
    (hindex : index < slots.size) (hfree : slots.look index = .free) (key : Key) (value : V) :
    (slots.write index (.full key value)).close index = ⟨slots, index, []⟩ := by
  have hemptied : (slots.write index (.full key value)).write index .free = slots := by
    rw [Slots.write_write, Slots.write_of_look hindex hfree]
  rw [Slots.close, hemptied]
  exact Closing.sweep_of_sound hsound hindex hfree _ _

theorem Slots.hasRoom_of_place {slots : Slots V} {key : Key} {value : V}
    (hroom : (slots.place key value).HasRoom) : slots.HasRoom := by
  obtain ⟨free, hbound, hfree⟩ := hroom
  rw [Slots.size_place] at hbound
  refine ⟨free, hbound, ?_⟩
  unfold Slots.place at hfree
  split at hfree
  · exact hfree
  · rename_i filed hvacancy
    by_cases hhere : free = filed
    · rw [hhere, Slots.look_write_self (hhere ▸ hbound)] at hfree
      simp at hfree
    · rwa [Slots.look_write_of_ne _ _ (Ne.symm hhere)] at hfree

theorem Slots.FirstWanted.distance_lt_of_ne {slots : Slots V} {index last place : Nat}
    (hlast : slots.FirstWanted Slot.isFree (following slots.size index) last)
    (hindex : index < slots.size) (hfull : slots.look index ≠ .free)
    (hplace : place < slots.size) (hfree : (slots.look place).isFree = true)
    (hne : place ≠ last) :
    distance slots.size index last < distance slots.size index place := by
  have hfreeNe : ∀ free, (slots.look free).isFree = true → free ≠ index := by
    rintro free hisFree rfl
    exact hfull (Slot.isFree_iff.1 hisFree)
  have hstepLast := distance_following hindex hlast.lt_size (hfreeNe last hlast.found)
  have hstepPlace := distance_following hindex hplace (hfreeNe place hfree)
  have hapart : distance slots.size index last ≠ distance slots.size index place :=
    fun hsame => hne (distance_inj hindex hplace hlast.lt_size hsame.symm)
  by_contra hnearer
  have hplaceFull := hlast.before place hplace (by omega)
  rw [hfree] at hplaceFull
  contradiction

section Exchange

variable {slots : Slots V} {index last : Nat}

/-- A walk that ends at a free slot beyond the next one after the freed slot does not lead through
the last gap, because it would lead through that next free slot as well. -/
theorem Slots.Sound.distance_le_gap (hsound : slots.Sound) (hroom : slots.HasRoom)
    (hfull : slots.look index ≠ .free) {start place : Nat} (hstart : start < slots.size)
    (hplace : place < slots.size) (hfree : slots.look place = .free)
    (hwalk : slots.Unbroken start place)
    (hlast : slots.FirstWanted Slot.isFree (following slots.size index) last)
    (hne : place ≠ last) :
    distance slots.size start place ≤ distance slots.size start (slots.close index).gap := by
  have hindex := Slots.lt_size_of_look_ne_free hfull
  have hsize : 0 < slots.size := by omega
  obtain ⟨stop, hstop, htrailing, hgap, _⟩ := hsound.close_trailing hroom hfull
  obtain rfl : last = stop := hlast.unique (following_lt index hsize) hstop
  have hbehind := htrailing.gap_behind
  have hbeyond := hlast.distance_lt_of_ne hindex hfull hplace (Slot.isFree_iff.2 hfree) hne
  by_contra hthrough
  -- on the walk from the start come the last gap, the next free slot and the end, in this order
  have hgapLast := distance_triangle hindex hgap hlast.lt_size
  have hgapPlace := distance_triangle hindex hgap hplace
  have hstartLast := distance_triangle hstart hgap hlast.lt_size
  have hstartPlace := distance_triangle hstart hgap hplace
  have hroundLast := distance_lt (slots.close index).gap last hsize
  have hroundPlace := distance_lt (slots.close index).gap place hsize
  have hroundStart := distance_lt start place hsize
  have hlastFull := (Slots.unbroken_iff hstart).1 hwalk last hlast.lt_size (by omega)
  rw [hlast.found] at hlastFull
  simp at hlastFull

theorem Slots.close_write_beyond (hfull : slots.look index ≠ .free) {place : Nat}
    (hplace : place < slots.size) (hfree : slots.look place = .free)
    (hlast : slots.FirstWanted Slot.isFree (following slots.size index) last)
    (hne : place ≠ last) (slot : Slot V) :
    (slots.write place slot).close index = (slots.close index).write place slot := by
  have hindex := Slots.lt_size_of_look_ne_free hfull
  have hlastFree : slots.look last = .free := Slot.isFree_iff.1 hlast.found
  have hsize : 0 < slots.size := by omega
  have hplaceNe : place ≠ index := by
    rintro rfl
    exact hfull hfree
  have hlastNe : last ≠ index := by
    rintro rfl
    exact hfull hlastFree
  have hfarther := hlast.distance_lt_of_ne hindex hfull hplace (Slot.isFree_iff.2 hfree) hne
  have hstepLast := distance_following hindex hlast.lt_size hlastNe
  have hstepPlace := distance_following hindex hplace hplaceNe
  have hbeyond : distance slots.size (following slots.size index) last <
      distance slots.size (following slots.size index) place := by
    omega
  have hemptied : (⟨slots.write index .free, index, []⟩ : Closing V).slots.size = slots.size :=
    Slots.size_write _ _ _
  have hstop : (slots.write index .free).look last = .free := by
    rw [Slots.look_write_of_ne _ _ (Ne.symm hlastNe), hlastFree]
  rw [Slots.close, Slots.size_write, Slots.write_comm _ hplaceNe]
  exact Closing.sweep_write_beyond hemptied (following_lt index hsize) hlast.lt_size hplace hstop
    hlastNe hplaceNe hbeyond slot

/-- If the next free slot after the freed one is filled, closing the gap comes as far as before and
goes on with that slot. -/
theorem Slots.close_write_last (hfull : slots.look index ≠ .free)
    (hlast : slots.FirstWanted Slot.isFree (following slots.size index) last) {slot : Slot V}
    (hslot : slot.isFree = false) :
    ∃ rest, (slots.write last slot).close index =
      (((slots.close index).write last slot).visit last).sweep
        (following slots.size last) rest := by
  have hindex := Slots.lt_size_of_look_ne_free hfull
  have hsize : 0 < slots.size := by omega
  have hlastFree : slots.look last = .free := Slot.isFree_iff.1 hlast.found
  have hlastNe : last ≠ index := by
    rintro rfl
    exact hfull hlastFree
  have hsteps := distance_following_lt hindex hlast.lt_size hlastNe
  have hemptied : (⟨slots.write index .free, index, []⟩ : Closing V).slots.size = slots.size :=
    Slots.size_write _ _ _
  rw [Slots.close, Slots.size_write, Slots.write_comm _ hlastNe]
  exact Closing.sweep_write_stop hemptied (following_lt index hsize) (hlast.freed hindex hlastNe)
    hlastNe hslot hsteps

theorem Slots.Sound.sound_close_place (hsound : slots.Sound) (hroom : slots.HasRoom)
    (hfull : slots.look index ≠ .free) {key : Key} (hnonzero : key ≠ .zero)
    (hfresh : ∀ place, (slots.look place).key? ≠ some key) (value : V) :
    ((slots.close index).slots.place key value).Sound := by
  obtain ⟨stored, held, hslot⟩ :=
    Slot.isFree_eq_false_iff.1 (Slot.isFree_eq_false_iff_ne.2 hfull)
  obtain ⟨hclosed, hentries⟩ := hsound.close hroom hslot
  obtain ⟨_, _, _, hgap, hgapFree⟩ := hsound.close_trailing hroom hfull
  apply hclosed.place ⟨_, by rwa [Slots.size_close], hgapFree⟩ hnonzero
  intro place hkey
  have hmem : key ∈ slots.entries.map Prod.fst := by
    rw [(hentries.map Prod.fst).mem_iff, List.map_cons]
    exact List.mem_cons_of_mem _ (Slots.mem_keys_iff.2 ⟨place, hkey⟩)
  obtain ⟨before, hbefore⟩ := Slots.mem_keys_iff.1 hmem
  exact hfresh before hbefore

/-- Where an entry is filed once a gap has been closed: in a free slot to which its walk leads and
does not lead through the last gap. -/
theorem Slots.Sound.place_close (hsound : slots.Sound) (hroom : slots.HasRoom)
    (hfull : slots.look index ≠ .free) {key : Key} {place : Nat} (hplace : place < slots.size)
    (hfree : (slots.close index).slots.look place = .free)
    (hwalk : slots.Unbroken (key.home slots.size) place)
    (haround : distance slots.size (key.home slots.size) place ≤
      distance slots.size (key.home slots.size) (slots.close index).gap) (value : V) :
    (slots.close index).slots.place key value =
      (slots.close index).slots.write place (.full key value) := by
  have hkept := slots.size_close index
  apply Slots.place_eq_write (by rwa [hkept]) hfree
  rw [hkept]
  exact hsound.unbroken_close hroom hfull (key.home_lt (by omega)) hwalk haround

/-- An entry filed in the next free slot after the freed one is the last that the sweep looks at. -/
theorem Slots.Sound.close_place_last (hsound : slots.Sound) (hroom : slots.HasRoom)
    (hfull : slots.look index ≠ .free) {key : Key} (hnonzero : key ≠ .zero)
    (hfresh : ∀ place, (slots.look place).key? ≠ some key)
    (hlast : slots.FirstWanted Slot.isFree (following slots.size index) last)
    (hstill : (slots.close index).slots.look last = .free)
    (hwalk : slots.Unbroken (key.home slots.size) last) (value : V) :
    ((slots.write last (.full key value)).close index).slots =
      (slots.close index).slots.place key value := by
  have hplace := hlast.lt_size
  have hkept := slots.size_close index
  have hsoundAfter := hsound.sound_close_place hroom hfull hnonzero hfresh value
  obtain ⟨_, _, _, hgap, hgapFree⟩ := hsound.close_trailing hroom hfull
  obtain ⟨hgapFull, _, _⟩ := hsound.isFree_close hroom hfull
  have hgapNe : last ≠ (slots.close index).gap := by
    intro hsame
    rw [← hsame, hlast.found] at hgapFull
    contradiction
  have hleft := distance_pos hgap hplace hgapNe
  have hfilled : (Slot.full key value).isFree = false := rfl
  obtain ⟨rest, hrest⟩ := Slots.close_write_last hfull hlast hfilled
  rw [hrest, Closing.visit_write_self (by rwa [hkept]) hstill hgapNe, hkept]
  split
  · rename_i hpasses
    have hsooner := (passesGap_iff hgap hplace hleft).1 hpasses
    rw [hsound.place_close hroom hfull hgap hgapFree
      (fun steps hsteps => hwalk steps (Nat.lt_trans hsteps hsooner)) (Nat.le_refl _)]
      at hsoundAfter ⊢
    rw [Closing.sweep_of_sound hsoundAfter]
    · show last < _
      rwa [Slots.size_write, hkept]
    · show Slots.look _ last = _
      rw [Slots.look_write_of_ne _ _ (Ne.symm hgapNe), hstill]
  · rename_i hstays
    have haround := Nat.le_of_not_lt fun h => hstays ((passesGap_iff hgap hplace hleft).2 h)
    rw [hsound.place_close hroom hfull hplace hstill hwalk haround] at hsoundAfter ⊢
    rw [Closing.sweep_of_sound hsoundAfter]
    · rfl
    · show (slots.close index).gap < _
      rwa [Closing.write, Slots.size_write, hkept]
    · show Slots.look _ (slots.close index).gap = _
      rw [Closing.write, Slots.look_write_of_ne _ _ hgapNe, hgapFree]

/-- A fresh entry may be filed before or after the gap of another one is closed. -/
theorem Slots.Sound.close_place (hsound : slots.Sound) {key : Key} (hnonzero : key ≠ .zero)
    (hfresh : ∀ place, (slots.look place).key? ≠ some key) {value : V}
    (hroom : (slots.place key value).HasRoom) (hfull : slots.look index ≠ .free) :
    ((slots.place key value).close index).slots = (slots.close index).slots.place key value := by
  have hbefore := Slots.hasRoom_of_place hroom
  have hindex := Slots.lt_size_of_look_ne_free hfull
  have hhome := key.home_lt (by omega : 0 < slots.size)
  obtain ⟨place, hplace, hfree, hwalk, hfiled⟩ := hbefore.place_eq key value
  obtain ⟨last, hlast, _⟩ := hsound.close_trailing hbefore hfull
  obtain ⟨hgapFull, _, hothers⟩ := hsound.isFree_close hbefore hfull
  have hgapNe : place ≠ (slots.close index).gap := by
    intro hsame
    rw [← hsame, hfree] at hgapFull
    simp at hgapFull
  have hstill : (slots.close index).slots.look place = .free := by
    rw [← Slot.isFree_iff, hothers place hgapNe, hfree]
    rfl
  rw [hfiled]
  by_cases hhere : place = last
  · rw [hhere] at hstill hwalk ⊢
    exact hsound.close_place_last hbefore hfull hnonzero hfresh hlast hstill hwalk value
  · have haround := hsound.distance_le_gap hbefore hfull hhome hplace hfree hwalk hlast hhere
    rw [Slots.close_write_beyond hfull hplace hfree hlast hhere,
      hsound.place_close hbefore hfull hplace hstill hwalk haround]
    rfl

end Exchange

end KeyedArena
