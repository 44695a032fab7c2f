import KeyedArena.Proofs.Slots.Entries
/-!
Closing a gap keeps a circle sound.

While a sweep is under way, a walk may be broken at the gap and nowhere else, and the walks of the
entries that the sweep has passed do not lead through the gap.  When the sweep meets a free slot,
every walk that leads through the gap would have to pass that slot too, so there is none.
-/

namespace KeyedArena

universe u

variable {V : Type u}

/-- A sweep that is about to look at `index` and will end at the free slot `stop` at the latest,
whatever the entries are. -/
structure Closing.Advancing (closing : Closing V) (index stop : Nat) : Prop where
  gap_lt : closing.gap < closing.slots.size
  index_lt : index < closing.slots.size
  stop_lt : stop < closing.slots.size
  gap_free : closing.slots.look closing.gap = .free
  stop_free : closing.slots.look stop = .free
  /-- The sweep has left the gap and has not come round to it again. -/
  left : 0 < distance closing.slots.size closing.gap index
  ahead : distance closing.slots.size closing.gap index ≤
    distance closing.slots.size closing.gap stop
  nonzero : ∀ place, (closing.slots.look place).key? ≠ some .zero

/-- A sweep over entries of which only those beyond the gap are out of reach. -/
structure Closing.Sweeping (closing : Closing V) (index stop : Nat) : Prop
    extends closing.Advancing index stop where
  distinct : ∀ {first second : Nat} {key : Key}, (closing.slots.look first).key? = some key →
    (closing.slots.look second).key? = some key → first = second
  /-- The gap is the only place where a walk may be broken. -/
  nearly : ∀ {place : Nat} {key : Key}, (closing.slots.look place).key? = some key →
    ∀ passed < closing.slots.size, passed ≠ closing.gap →
      distance closing.slots.size (key.home closing.slots.size) passed <
        distance closing.slots.size (key.home closing.slots.size) place →
      (closing.slots.look passed).isFree = false
  /-- Entries already looked at do not need the gap. -/
  settled : ∀ {place : Nat} {key : Key}, (closing.slots.look place).key? = some key →
    distance closing.slots.size closing.gap place <
      distance closing.slots.size closing.gap index →
    distance closing.slots.size (key.home closing.slots.size) place ≤
      distance closing.slots.size (key.home closing.slots.size) closing.gap

/-- A walk leads through the gap exactly when the home of the entry lies no nearer than the gap,
and then the gap is on the way. -/
theorem passesGap_iff {capacity gap index : Nat} {key : Key} (hgap : gap < capacity)
    (hindex : index < capacity) (hleft : 0 < distance capacity gap index) :
    passesGap capacity gap index key = true ↔
      distance capacity (key.home capacity) gap < distance capacity (key.home capacity) index := by
  have hpositive : 0 < capacity := by omega
  have hhome := key.home_lt hpositive
  have hround := distance_lt (key.home capacity) gap hpositive
  have hbound := distance_lt gap index hpositive
  rw [passesGap, decide_eq_true_iff]
  rcases distance_triangle hhome hgap hindex with hsum | hsum <;> omega

theorem Closing.Advancing.gap_ne {closing : Closing V} {index stop : Nat}
    (hadvancing : closing.Advancing index stop) : closing.gap ≠ index := by
  intro hsame
  have hleft := hadvancing.left
  rw [← hsame, distance_self hadvancing.gap_lt] at hleft
  omega

/-- As long as the slot looked at is full, the next one is not yet the gap. -/
theorem Closing.Advancing.next {closing : Closing V} {index stop : Nat}
    (hadvancing : closing.Advancing index stop) (hfull : closing.slots.look index ≠ .free) :
    stop ≠ index ∧
      distance closing.slots.size closing.gap (following closing.slots.size index) =
        distance closing.slots.size closing.gap index + 1 ∧
      distance closing.slots.size closing.gap index <
        distance closing.slots.size closing.gap stop := by
  have hsize : 0 < closing.slots.size := Nat.lt_of_le_of_lt (Nat.zero_le _) hadvancing.gap_lt
  have hne : stop ≠ index := by
    rintro rfl
    exact hfull hadvancing.stop_free
  have hnearer : distance closing.slots.size closing.gap index <
      distance closing.slots.size closing.gap stop := by
    apply Nat.lt_of_le_of_ne hadvancing.ahead
    intro hsame
    exact hne (distance_inj hadvancing.gap_lt hadvancing.stop_lt hadvancing.index_lt hsame.symm)
  have hround := distance_lt closing.gap stop hsize
  exact ⟨hne, distance_to_following hadvancing.gap_lt hadvancing.index_lt (by omega), hnearer⟩

/-- A free slot reached by a sweep lies on every walk that still leads through the gap. -/
theorem Closing.Sweeping.sound {closing : Closing V} {index stop : Nat}
    (hsweep : closing.Sweeping index stop) (hfree : closing.slots.look index = .free) :
    closing.slots.Sound := by
  have hsize : 0 < closing.slots.size := Nat.lt_of_le_of_lt (Nat.zero_le _) hsweep.gap_lt
  refine ⟨hsweep.nonzero, hsweep.distinct, ?_⟩
  intro place key hkey
  have hplace := Slots.lt_size_of_key? hkey
  have hhome := key.home_lt hsize
  rw [Slots.unbroken_iff hhome]
  intro passed hpassed hbefore
  by_cases hgap : passed = closing.gap
  · rw [hgap] at hbefore
    have hne : place ≠ index := by
      rintro rfl
      rw [hfree] at hkey
      simp at hkey
    -- the entry lies beyond the free slot, so that slot is on its walk as well
    have hbeyond : distance closing.slots.size closing.gap index <
        distance closing.slots.size closing.gap place := by
      by_contra hnear
      rcases Nat.lt_or_ge (distance closing.slots.size closing.gap place)
        (distance closing.slots.size closing.gap index) with hlt | hge
      · have hunpassed := hsweep.settled hkey hlt
        omega
      · exact hne (distance_inj hsweep.gap_lt hplace hsweep.index_lt (by omega))
    have hround := distance_lt (key.home closing.slots.size) index hsize
    have hroundPlace := distance_lt (key.home closing.slots.size) place hsize
    have hroundGap := distance_lt closing.gap place hsize
    have hpassesIndex : distance closing.slots.size (key.home closing.slots.size) index <
        distance closing.slots.size (key.home closing.slots.size) place := by
      have hindex := distance_triangle hhome hsweep.gap_lt hsweep.index_lt
      have hend := distance_triangle hhome hsweep.gap_lt hplace
      omega
    have hfull := hsweep.nearly hkey index hsweep.index_lt hsweep.gap_ne.symm hpassesIndex
    rw [hfree] at hfull
    simp at hfull
  · exact hsweep.nearly hkey passed hpassed hgap hbefore

theorem Closing.Advancing.skip {closing : Closing V} {index stop : Nat}
    (hadvancing : closing.Advancing index stop) (hfull : closing.slots.look index ≠ .free) :
    closing.Advancing (following closing.slots.size index) stop := by
  obtain ⟨_, hnext, hnearer⟩ := hadvancing.next hfull
  have hgap := hadvancing.gap_lt
  exact ⟨hgap, following_lt index (by omega), hadvancing.stop_lt, hadvancing.gap_free,
    hadvancing.stop_free, by omega, by omega, hadvancing.nonzero⟩

/-- An entry whose walk avoids the gap stays, and the sweep goes on to the next slot. -/
theorem Closing.Sweeping.skip {closing : Closing V} {index stop : Nat}
    (hsweep : closing.Sweeping index stop) {key : Key} {value : V}
    (hfull : closing.slots.look index = .full key value)
    (hstays : passesGap closing.slots.size closing.gap index key = false) :
    closing.Sweeping (following closing.slots.size index) stop := by
  have hfar := Slots.look_ne_free hfull
  obtain ⟨_, hnext, _⟩ := hsweep.next hfar
  refine ⟨hsweep.toAdvancing.skip hfar, hsweep.distinct, hsweep.nearly, ?_⟩
  intro place other hkey hnear
  rcases Nat.lt_or_ge (distance closing.slots.size closing.gap place)
    (distance closing.slots.size closing.gap index) with hlt | hge
  · exact hsweep.settled hkey hlt
  · have hplace := Slots.lt_size_of_key? hkey
    have hhere : place = index :=
      distance_inj hsweep.gap_lt hplace hsweep.index_lt (by omega)
    rw [hhere] at hkey ⊢
    have hsame : key = other := by
      rw [hfull] at hkey
      simpa using hkey
    rw [← hsame]
    by_contra hpasses
    rw [Nat.not_le, ← passesGap_iff hsweep.gap_lt hsweep.index_lt hsweep.left, hstays]
      at hpasses
    contradiction

/-- The circle after an entry has been moved back from `index` into the gap. -/
def Closing.moved (closing : Closing V) (index : Nat) (key : Key) (value : V) : Closing V where
  slots := (closing.slots.write closing.gap (.full key value)).write index .free
  gap := index
  moves := ⟨key, index, closing.gap⟩ :: closing.moves

theorem Closing.visit_of_full {closing : Closing V} {index : Nat} {key : Key} {value : V}
    (hfull : closing.slots.look index = .full key value) :
    closing.visit index =
      if passesGap closing.slots.size closing.gap index key then closing.moved index key value
      else closing := by
  simp only [Closing.visit, Closing.moved, hfull]

theorem Closing.size_moved (closing : Closing V) (index : Nat) (key : Key) (value : V) :
    (closing.moved index key value).slots.size = closing.slots.size := by
  simp [Closing.moved, Slots.size_write]

theorem Closing.look_moved {closing : Closing V} {index : Nat}
    (hgap : closing.gap < closing.slots.size) (hindex : index < closing.slots.size)
    (key : Key) (value : V) (place : Nat) :
    (closing.moved index key value).slots.look place =
      if place = index then .free
      else if place = closing.gap then .full key value else closing.slots.look place := by
  have hbound : index < (closing.slots.write closing.gap (.full key value)).size := by
    rwa [Slots.size_write]
  rw [Closing.moved, Slots.look_write hbound, Slots.look_write hgap]

theorem Closing.Advancing.key?_moved {closing : Closing V} {index stop : Nat}
    (hadvancing : closing.Advancing index stop) {key : Key} {value : V} {place : Nat} {other : Key}
    (hkey : ((closing.moved index key value).slots.look place).key? = some other) :
    (place = closing.gap ∧ other = key) ∨
      (place ≠ index ∧ place ≠ closing.gap ∧ (closing.slots.look place).key? = some other) := by
  rw [Closing.look_moved hadvancing.gap_lt hadvancing.index_lt] at hkey
  split at hkey
  · simp at hkey
  · rename_i hindex
    split at hkey
    · rename_i hgap
      exact Or.inl ⟨hgap, by simpa using hkey.symm⟩
    · rename_i hgap
      exact Or.inr ⟨hindex, hgap, hkey⟩

theorem Closing.Advancing.look_moved_gap {closing : Closing V} {index stop : Nat}
    (hadvancing : closing.Advancing index stop) (key : Key) (value : V) :
    (closing.moved index key value).slots.look closing.gap = .full key value := by
  rw [Closing.look_moved hadvancing.gap_lt hadvancing.index_lt, if_neg hadvancing.gap_ne,
    if_pos rfl]

/-- An entry under another key than the one moved stays in its slot. -/
theorem Closing.Advancing.look_moved_of_ne {closing : Closing V} {index stop : Nat}
    (hadvancing : closing.Advancing index stop) {key other : Key} {value held : V} {place : Nat}
    (hfull : closing.slots.look index = .full key value)
    (hplace : closing.slots.look place = .full other held) (hother : key ≠ other) :
    (closing.moved index key value).slots.look place = .full other held := by
  have hindex : place ≠ index := by
    rintro rfl
    rw [hfull, Slot.full.injEq] at hplace
    exact hother hplace.1
  have hgap : place ≠ closing.gap := by
    rintro rfl
    rw [hadvancing.gap_free] at hplace
    contradiction
  rw [Closing.look_moved hadvancing.gap_lt hadvancing.index_lt, if_neg hindex, if_neg hgap, hplace]

theorem Closing.Advancing.move {closing : Closing V} {index stop : Nat}
    (hadvancing : closing.Advancing index stop) {key : Key} {value : V}
    (hfull : closing.slots.look index = .full key value) :
    (closing.moved index key value).Advancing (following closing.slots.size index) stop := by
  have hlook := Closing.look_moved hadvancing.gap_lt hadvancing.index_lt key value
  obtain ⟨hstopNe, _, hnearer⟩ := hadvancing.next (Slots.look_ne_free hfull)
  have hstopGap : stop ≠ closing.gap := by
    intro hsame
    rw [hsame, distance_self hadvancing.gap_lt] at hnearer
    omega
  have hindex := hadvancing.index_lt
  have hstopPositive := distance_pos hindex hadvancing.stop_lt hstopNe
  have hround := distance_lt index stop (by omega : 0 < closing.slots.size)
  have honeStep := distance_following_one hindex (by omega)
  constructor <;> try rw [Closing.size_moved]
  case gap_lt => exact hindex
  case index_lt => exact following_lt index (by omega)
  case stop_lt => exact hadvancing.stop_lt
  case gap_free => exact (hlook index).trans (if_pos rfl)
  case stop_free => rw [hlook, if_neg hstopNe, if_neg hstopGap, hadvancing.stop_free]
  case left => exact honeStep ▸ Nat.one_pos
  case ahead => exact honeStep ▸ hstopPositive
  case nonzero =>
    intro place hzero
    rcases hadvancing.key?_moved hzero with ⟨_, hkey⟩ | ⟨_, _, hkey⟩
    · exact hadvancing.nonzero index (by rw [Slots.key?_of_full hfull, hkey])
    · exact hadvancing.nonzero place hkey

/-- An entry whose walk leads through the gap is moved into it, and its old slot is the gap from
then on. -/
theorem Closing.Sweeping.move {closing : Closing V} {index stop : Nat}
    (hsweep : closing.Sweeping index stop) {key : Key} {value : V}
    (hfull : closing.slots.look index = .full key value)
    (hpasses : passesGap closing.slots.size closing.gap index key = true) :
    (closing.moved index key value).Sweeping (following closing.slots.size index) stop := by
  have hlook := Closing.look_moved hsweep.gap_lt hsweep.index_lt key value
  have hkeyHere := Slots.key?_of_full hfull
  have hontoGap := (passesGap_iff hsweep.gap_lt hsweep.index_lt hsweep.left).1 hpasses
  have hsizeMoved := Closing.size_moved closing index key value
  constructor <;> try rw [hsizeMoved]
  case toAdvancing => exact hsweep.toAdvancing.move hfull
  case distinct =>
    intro first second other hfirst hsecond
    rcases hsweep.key?_moved hfirst with ⟨hf, hkeyf⟩ | ⟨hf, _, hkeyf⟩ <;>
      rcases hsweep.key?_moved hsecond with ⟨hs, hkeys⟩ | ⟨hs, _, hkeys⟩
    · rw [hf, hs]
    · exact absurd (hsweep.distinct hkeys (hkeyf ▸ hkeyHere)) hs
    · exact absurd (hsweep.distinct hkeyf (hkeys ▸ hkeyHere)) hf
    · exact hsweep.distinct hkeyf hkeys
  case nearly =>
    intro place other hkey passed hpassed hne hbefore
    have hpassedNe : passed ≠ index := hne
    rw [hlook, if_neg hpassedNe]
    split
    · rfl
    · rename_i hpassedGap
      rcases hsweep.key?_moved hkey with ⟨hplace, hother⟩ | ⟨_, _, hold⟩
      · rw [hplace, hother] at hbefore
        exact hsweep.nearly hkeyHere passed hpassed hpassedGap
          (Nat.lt_trans hbefore hontoGap)
      · exact hsweep.nearly hold passed hpassed hpassedGap hbefore
  case settled =>
    -- nothing lies between the new gap and the slot after it
    intro place other hkey hnear
    have hnearIndex : distance closing.slots.size index place <
        distance closing.slots.size index (following closing.slots.size index) := hnear
    have hplace := Slots.lt_size_of_key? hkey
    rw [hsizeMoved] at hplace
    have hindex := hsweep.index_lt
    have hstop := hsweep.stop_lt
    obtain ⟨hstopNe, _, _⟩ := hsweep.next (Slots.look_ne_free hfull)
    have hself := distance_self hindex
    have hone := distance_following_one hindex (by omega)
    have hhere : place = index :=
      distance_inj hindex hplace hindex (by omega)
    rw [hhere, hlook, if_pos rfl] at hkey
    simp at hkey

theorem Closing.Advancing.visit {closing : Closing V} {index stop : Nat}
    (hadvancing : closing.Advancing index stop) (hfull : closing.slots.look index ≠ .free) :
    (closing.visit index).Advancing (following closing.slots.size index) stop := by
  cases hslot : closing.slots.look index with
  | free => exact absurd hslot hfull
  | full key value =>
      rw [Closing.visit_of_full hslot]
      split
      · exact hadvancing.move hslot
      · exact hadvancing.skip hfull

theorem Closing.Sweeping.visit {closing : Closing V} {index stop : Nat}
    (hsweep : closing.Sweeping index stop) (hfull : closing.slots.look index ≠ .free) :
    (closing.visit index).Sweeping (following closing.slots.size index) stop ∧
      (closing.visit index).slots.entries.Perm closing.slots.entries := by
  cases hslot : closing.slots.look index with
  | free => exact absurd hslot hfull
  | full key value =>
      cases hpasses : passesGap closing.slots.size closing.gap index key with
      | false =>
          rw [Closing.visit_of_full hslot, hpasses]
          exact ⟨hsweep.skip hslot hpasses, List.Perm.refl _⟩
      | true =>
          have hadded := Slots.entries_write_full hsweep.gap_lt hsweep.gap_free key value
          have hne : index ≠ closing.gap := by
            rintro rfl
            exact hfull hsweep.gap_free
          have hstill : (closing.slots.write closing.gap (.full key value)).look index =
              .full key value := by
            rw [Slots.look_write_of_ne _ _ (Ne.symm hne), hslot]
          have hremoved := Slots.entries_write_free hstill
          rw [Closing.visit_of_full hslot, hpasses]
          exact ⟨hsweep.move hslot hpasses,
            (List.perm_cons (key, value)).1 (hremoved.symm.trans hadded)⟩

/-- A sweep ends at a free slot, and what every visit to a full slot keeps holds there. -/
theorem Closing.Sweeping.sweep_ends {closing : Closing V} {index stop steps : Nat}
    (hsweep : closing.Sweeping index stop) (Kept : Closing V → Nat → Prop)
    (hkept : Kept closing index)
    (hvisit : ∀ {closing : Closing V} {index : Nat}, closing.Sweeping index stop →
      closing.slots.look index ≠ .free → Kept closing index →
        Kept (closing.visit index) (following closing.slots.size index))
    (hsteps : distance closing.slots.size index stop < steps) :
    ∃ last, (closing.sweep index steps).Sweeping last stop ∧
      Kept (closing.sweep index steps) last ∧
        (closing.sweep index steps).slots.look last = .free := by
  induction steps generalizing closing index with
  | zero => omega
  | succ n ih =>
      rw [Closing.sweep]
      by_cases hfree : (closing.slots.look index).isFree = true
      · rw [if_pos hfree]
        exact ⟨index, hsweep, hkept, Slot.isFree_iff.1 hfree⟩
      · rw [if_neg hfree]
        have hfull : closing.slots.look index ≠ .free := fun h => hfree (Slot.isFree_iff.2 h)
        obtain ⟨hvisited, _⟩ := hsweep.visit hfull
        obtain ⟨hstopNe, _, _⟩ := hsweep.next hfull
        have hnearer := distance_following hsweep.index_lt hsweep.stop_lt hstopNe
        exact ih hvisited (hvisit hsweep hfull hkept) (by rw [Closing.size_visit]; omega)

theorem Slots.key?_write_free {slots : Slots V} {index place : Nat} {key : Key}
    (hindex : index < slots.size) (hkey : ((slots.write index .free).look place).key? = some key) :
    place ≠ index ∧ (slots.look place).key? = some key := by
  rw [Slots.look_write hindex] at hkey
  split at hkey
  · simp at hkey
  · rename_i hother
    exact ⟨hother, hkey⟩

theorem Slots.advancing {slots : Slots V} (hnonzero : ∀ index, (slots.look index).key? ≠ some .zero)
    {index stop : Nat} (hindex : index < slots.size) (hstop : stop < slots.size)
    (hne : stop ≠ index) (hfree : slots.look stop = .free) :
    Closing.Advancing ⟨slots.write index .free, index, []⟩ (following slots.size index) stop := by
  have hlook := fun read => Slots.look_write hindex read .free
  have hself := distance_self hindex
  have hapart := distance_pos hindex hstop hne
  have honeStep := distance_following_one hindex (by omega : 1 < slots.size)
  constructor <;> try simp only [Slots.size_write]
  case gap_lt => exact hindex
  case index_lt => exact following_lt index (by omega)
  case stop_lt => exact hstop
  case gap_free => rw [hlook, if_pos rfl]
  case stop_free => rw [hlook, if_neg hne, hfree]
  case left => omega
  case ahead => omega
  case nonzero => exact fun place hzero => hnonzero place (Slots.key?_write_free hindex hzero).2

/-- In a sound circle only the entries beyond the freed slot are out of reach. -/
theorem Slots.Sound.sweeping {slots : Slots V} (hsound : slots.Sound) {index stop : Nat}
    (hindex : index < slots.size) (hstop : stop < slots.size) (hne : stop ≠ index)
    (hfree : slots.look stop = .free) :
    Closing.Sweeping ⟨slots.write index .free, index, []⟩ (following slots.size index) stop := by
  have hself := distance_self hindex
  have honeStep := distance_following_one hindex (by omega : 1 < slots.size)
  have hkept : ∀ {place : Nat} {other : Key},
      ((slots.write index .free).look place).key? = some other →
        place ≠ index ∧ (slots.look place).key? = some other := Slots.key?_write_free hindex
  constructor <;> try simp only [Slots.size_write]
  case toAdvancing => exact Slots.advancing hsound.nonzero hindex hstop hne hfree
  case distinct =>
    exact fun hfirst hsecond => hsound.distinct (hkept hfirst).2 (hkept hsecond).2
  case nearly =>
    intro place other hkey passed hpassed hpassedNe hbefore
    rw [Slots.look_write_of_ne _ _ (Ne.symm hpassedNe)]
    exact (Slots.unbroken_iff (other.home_lt (by omega))).1 (hsound.unbroken (hkept hkey).2)
      passed hpassed hbefore
  case settled =>
    intro place other hkey hnear
    have hplace := Slots.lt_size_of_key? (hkept hkey).2
    exact absurd (distance_inj hindex hplace hindex (by omega)) (hkept hkey).1

/-- Closing a gap ends at a free slot, and what every visit to a full slot keeps holds there. -/
theorem Slots.Sound.close_ends {slots : Slots V} (hsound : slots.Sound) (hroom : slots.HasRoom)
    {index : Nat} (hfull : slots.look index ≠ .free) (Kept : Closing V → Nat → Prop)
    (hkept : Kept ⟨slots.write index .free, index, []⟩ (following slots.size index))
    (hvisit : ∀ {closing : Closing V} {index stop : Nat}, closing.Sweeping index stop →
      closing.slots.look index ≠ .free → Kept closing index →
        Kept (closing.visit index) (following closing.slots.size index)) :
    ∃ last stop, (slots.close index).Sweeping last stop ∧ Kept (slots.close index) last ∧
      (slots.close index).slots.look last = .free := by
  obtain ⟨stop, hstop, hfree⟩ := hroom
  have hindex := Slots.lt_size_of_look_ne_free hfull
  have hne : stop ≠ index := by
    rintro rfl
    exact hfull hfree
  have hsteps : distance (slots.write index .free).size (following slots.size index) stop <
      slots.size - 1 := by
    rw [Slots.size_write]
    exact distance_following_lt hindex hstop hne
  obtain ⟨last, hlast⟩ :=
    (hsound.sweeping hindex hstop hne hfree).sweep_ends Kept hkept hvisit hsteps
  exact ⟨last, stop, hlast⟩

/-- Freeing a full slot of a sound circle and closing the gap leaves a sound circle that lacks
exactly the entry of that slot. -/
theorem Slots.Sound.close {slots : Slots V} (hsound : slots.Sound) (hroom : slots.HasRoom)
    {index : Nat} {key : Key} {value : V} (hfull : slots.look index = .full key value) :
    (slots.close index).slots.Sound ∧
      slots.entries.Perm ((key, value) :: (slots.close index).slots.entries) := by
  obtain ⟨last, stop, hsweep, hentries, hfree⟩ := hsound.close_ends hroom
    (Slots.look_ne_free hfull)
    (fun closing _ => closing.slots.entries.Perm (slots.write index .free).entries)
    (List.Perm.refl _)
    (fun hsweep hvisited hentries => (hsweep.visit hvisited).2.trans hentries)
  exact ⟨hsweep.sound hfree, (Slots.entries_write_free hfull).trans (hentries.symm.cons _)⟩

end KeyedArena
