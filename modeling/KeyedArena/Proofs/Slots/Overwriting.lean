import KeyedArena.Proofs.Slots.Entries
/-!
Sweeps over a circle with one slot overwritten.

A sweep looks at no slot beyond the free one at which it ends, so what is written there stays out of
it.  If that free slot itself is filled, the sweep comes as far as before, looks at the slot, and
goes on from there.
-/

namespace KeyedArena

universe u

variable {V : Type u}

def Closing.write (closing : Closing V) (place : Nat) (slot : Slot V) : Closing V :=
  { closing with slots := closing.slots.write place slot }

/-- Freeing a slot puts no free slot on the way from the slot after it to another one. -/
theorem Slots.FirstWanted.freed {slots : Slots V} {index last : Nat}
    (hfirst : slots.FirstWanted Slot.isFree (following slots.size index) last)
    (hindex : index < slots.size) (hne : last ≠ index) :
    (slots.write index .free).FirstWanted Slot.isFree (following slots.size index) last := by
  have hsize := slots.size_write index .free
  refine ⟨hsize.symm ▸ hfirst.lt_size, ?_, ?_⟩
  · rw [Slots.look_write_of_ne _ _ (Ne.symm hne), hfirst.found]
  · rw [hsize]
    intro passed hpassed hsooner
    have hround := distance_following_lt hindex hfirst.lt_size hne
    have hself := distance_following_self hindex
    have hpassedNe : passed ≠ index := by
      rintro rfl
      omega
    rw [Slots.look_write_of_ne _ _ (Ne.symm hpassedNe)]
    exact hfirst.before passed hpassed hsooner

section Visit

variable {closing : Closing V} {index place : Nat}

/-- A visit has no business with slots other than the one visited and the gap. -/
theorem Closing.look_visit (hindex : place ≠ index) (hgap : place ≠ closing.gap) :
    (closing.visit index).slots.look place = closing.slots.look place := by
  unfold Closing.visit
  split
  · rfl
  · split
    · rw [Slots.look_write_of_ne _ _ (Ne.symm hindex), Slots.look_write_of_ne _ _ (Ne.symm hgap)]
    · rfl

theorem Closing.gap_visit_ne (hindex : place ≠ index) (hgap : place ≠ closing.gap) :
    place ≠ (closing.visit index).gap := by
  unfold Closing.visit
  split
  · exact hgap
  · split
    · exact hindex
    · exact hgap

theorem Closing.visit_write (hindex : place ≠ index) (hgap : place ≠ closing.gap)
    (slot : Slot V) :
    (closing.write place slot).visit index = (closing.visit index).write place slot := by
  have hlook : (closing.write place slot).slots.look index = closing.slots.look index :=
    Slots.look_write_of_ne _ _ hindex
  have hsize : (closing.write place slot).slots.size = closing.slots.size :=
    Slots.size_write _ _ _
  cases hslot : closing.slots.look index with
  | free => simp only [Closing.visit, hlook, hslot]
  | full key value =>
      simp only [Closing.visit, hlook, hslot, hsize]
      change (if passesGap closing.slots.size closing.gap index key = true then _ else _) = _
      split
      · simp only [Closing.write]
        rw [Slots.write_comm _ hgap, Slots.write_comm _ hindex]
      · rfl

theorem Closing.isFree_visit (hindex : place ≠ index)
    (hfull : (closing.slots.look place).isFree = false) :
    ((closing.visit index).slots.look place).isFree = false := by
  by_cases hgap : place = closing.gap
  · subst hgap
    have hbound := Slots.lt_size_of_look_ne_free (Slot.isFree_eq_false_iff_ne.1 hfull)
    unfold Closing.visit
    split
    · exact hfull
    · split
      · rw [Slots.look_write_of_ne _ _ (Ne.symm hindex), Slots.look_write_self hbound]
        rfl
      · exact hfull
  · rwa [Closing.look_visit hindex hgap]

/-- A visit to a full slot leaves the first free slot after it where it is. -/
theorem Closing.firstFree_visit {stop : Nat} (hindex : index < closing.slots.size)
    (hfirst : closing.slots.FirstWanted Slot.isFree index stop) (hgap : stop ≠ closing.gap)
    (hfull : (closing.slots.look index).isFree = false) :
    stop ≠ index ∧ (closing.visit index).slots.FirstWanted Slot.isFree
      (following closing.slots.size index) stop := by
  have hsize := closing.size_visit index
  have hne : stop ≠ index := by
    rintro rfl
    rw [hfirst.found] at hfull
    contradiction
  refine ⟨hne, hsize.symm ▸ hfirst.lt_size, ?_, ?_⟩
  · rw [Closing.look_visit hne hgap, hfirst.found]
  · rw [hsize]
    intro passed hpassed hsooner
    have hpassedNe : passed ≠ index := by
      rintro rfl
      have hround := distance_following_lt hindex hfirst.lt_size hne
      have hlast := distance_following_self hindex
      omega
    have hstepStop := distance_following hindex hfirst.lt_size hne
    have hstepPassed := distance_following hindex hpassed hpassedNe
    exact Closing.isFree_visit hpassedNe (hfirst.before passed hpassed (by omega))

/-- An entry that is filed in the slot about to be visited ends up in the gap or stays there. -/
theorem Closing.visit_write_self (hplace : place < closing.slots.size)
    (hfree : closing.slots.look place = .free) (hgap : place ≠ closing.gap) (key : Key)
    (value : V) :
    (closing.write place (.full key value)).visit place =
      if passesGap closing.slots.size closing.gap place key then
        ⟨closing.slots.write closing.gap (.full key value), place,
          ⟨key, place, closing.gap⟩ :: closing.moves⟩
      else closing.write place (.full key value) := by
  have hlook : (closing.write place (.full key value)).slots.look place = .full key value :=
    Slots.look_write_self hplace _
  have hsize : (closing.write place (.full key value)).slots.size = closing.slots.size :=
    Slots.size_write _ _ _
  have hstill : (closing.slots.write closing.gap (.full key value)).look place = .free := by
    rw [Slots.look_write_of_ne _ _ (Ne.symm hgap), hfree]
  have hbound : place < (closing.slots.write closing.gap (.full key value)).size := by
    rwa [Slots.size_write]
  have hemptied : ((closing.slots.write place (.full key value)).write closing.gap
      (.full key value)).write place .free = closing.slots.write closing.gap (.full key value) := by
    rw [Slots.write_comm _ hgap, Slots.write_write, Slots.write_of_look hbound hstill]
  simp only [Closing.visit, hlook, hsize]
  change (if passesGap closing.slots.size closing.gap place key = true then _ else _) = _
  split
  · simp only [Closing.write, hemptied]
  · rfl

end Visit

section Sweep

variable {closing : Closing V} {capacity index stop place steps : Nat}

theorem Closing.sweep_write_beyond (hsize : closing.slots.size = capacity)
    (hindex : index < capacity) (hstop : stop < capacity) (hplace : place < capacity)
    (hfree : closing.slots.look stop = .free) (hstopGap : stop ≠ closing.gap)
    (hplaceGap : place ≠ closing.gap)
    (hbeyond : distance capacity index stop < distance capacity index place) (slot : Slot V) :
    (closing.write place slot).sweep index steps = (closing.sweep index steps).write place slot := by
  induction steps generalizing closing index with
  | zero => rfl
  | succ n ih =>
      have hplaceNe : place ≠ index := by
        rintro rfl
        rw [distance_self hindex] at hbeyond
        omega
      have hlook : (closing.write place slot).slots.look index = closing.slots.look index :=
        Slots.look_write_of_ne _ _ hplaceNe
      have hwritten : (closing.write place slot).slots.size = closing.slots.size :=
        Slots.size_write _ _ _
      rw [Closing.sweep, Closing.sweep, hlook, hwritten, hsize]
      split
      · rfl
      · rename_i hfull
        have hstopNe : stop ≠ index := by
          rintro rfl
          exact hfull (Slot.isFree_iff.2 hfree)
        have hstepStop := distance_following hindex hstop hstopNe
        have hstepPlace := distance_following hindex hplace hplaceNe
        rw [Closing.visit_write hplaceNe hplaceGap]
        exact ih ((closing.size_visit index).trans hsize) (following_lt index (by omega))
          (by rw [Closing.look_visit hstopNe hstopGap, hfree])
          (Closing.gap_visit_ne hstopNe hstopGap) (Closing.gap_visit_ne hplaceNe hplaceGap)
          (by omega)

/-- If the slot at which a sweep ends is filled, the sweep comes as far, looks at that slot as well
and goes on from there. -/
theorem Closing.sweep_write_stop (hsize : closing.slots.size = capacity)
    (hindex : index < capacity) (hfirst : closing.slots.FirstWanted Slot.isFree index stop)
    (hgap : stop ≠ closing.gap) {slot : Slot V} (hslot : slot.isFree = false)
    (hsteps : distance capacity index stop < steps) :
    ∃ rest, (closing.write stop slot).sweep index steps =
      (((closing.sweep index steps).write stop slot).visit stop).sweep
        (following capacity stop) rest := by
  induction steps generalizing closing index with
  | zero => omega
  | succ n ih =>
      have hwritten : (closing.write stop slot).slots.size = closing.slots.size :=
        Slots.size_write _ _ _
      rw [Closing.sweep, Closing.sweep, hwritten, hsize]
      cases hhere : (closing.slots.look index).isFree with
      | true =>
          obtain rfl : index = stop :=
            (Slots.firstWanted_iff_eq (hsize.symm ▸ hindex) hhere).1 hfirst
          have hfilled : (closing.write index slot).slots.look index = slot :=
            Slots.look_write_self hfirst.lt_size slot
          rw [hfilled, hslot]
          exact ⟨n, rfl⟩
      | false =>
          obtain ⟨hne, hlater⟩ :=
            Closing.firstFree_visit (hsize.symm ▸ hindex) hfirst hgap hhere
          have hlook : (closing.write stop slot).slots.look index = closing.slots.look index :=
            Slots.look_write_of_ne _ _ hne
          have hnearer := distance_following hindex (hsize ▸ hfirst.lt_size) hne
          rw [hlook, hhere, Closing.visit_write hne hgap]
          simp only [Bool.false_eq_true, if_false]
          exact ih ((closing.size_visit index).trans hsize) (following_lt index (by omega))
            (hsize ▸ hlater) (Closing.gap_visit_ne hne hgap) (by omega)

end Sweep

end KeyedArena
