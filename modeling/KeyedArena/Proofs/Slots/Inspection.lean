import KeyedArena.Proofs.Slots.Overwriting
import Mathlib.Data.List.Iterate
/-!
Which slots walks and sweeps look at.

Nothing counts the slots that a walk passes, and a sweep empties and fills slots of the very circle
that it is on.  What both come nearer to with every step is the next slot at which they end: a walk
because it changes nothing, and a sweep because all that it changes is the gap, which is behind it,
and the slot that it has just looked at.
-/

namespace KeyedArena

universe u

variable {V : Type u}

section Stretch

variable {capacity first last : Nat}

theorem iterate_following (hfirst : first < capacity) (steps : Nat) :
    (following capacity)^[steps] first = (first + steps) % capacity := by
  induction steps generalizing first with
  | zero => exact (Nat.mod_eq_of_lt hfirst).symm
  | succ n ih =>
      rw [Function.iterate_succ_apply, ih (following_lt first (by omega)), following,
        Nat.mod_add_mod, Nat.add_assoc, Nat.add_comm 1]

theorem length_stretch (capacity first last : Nat) :
    (stretch capacity first last).length = distance capacity first last + 1 :=
  List.length_iterate _ _ _

theorem stretch_self (hfirst : first < capacity) : stretch capacity first first = [first] := by
  rw [stretch, distance_self hfirst]
  rfl

theorem stretch_of_ne (hfirst : first < capacity) (hlast : last < capacity) (hne : last ≠ first) :
    stretch capacity first last = first :: stretch capacity (following capacity first) last := by
  rw [stretch, ← distance_following hfirst hlast hne]
  rfl

theorem length_stretch_le (hlast : last < capacity) :
    (stretch capacity first last).length ≤ capacity := by
  rw [length_stretch]
  exact distance_lt first last (by omega)

/-- In a stretch are the slots that a walk does not come to later than to its last one. -/
theorem mem_stretch_iff (hfirst : first < capacity) (hlast : last < capacity) {place : Nat} :
    place ∈ stretch capacity first last ↔
      place < capacity ∧ distance capacity first place ≤ distance capacity first last := by
  have hpositive : 0 < capacity := by omega
  rw [stretch, List.mem_iterate]
  constructor
  · rintro ⟨steps, hbound, rfl⟩
    have hround := distance_lt first last hpositive
    rw [iterate_following hfirst, distance_walk hfirst (by omega)]
    exact ⟨Nat.mod_lt _ hpositive, by omega⟩
  · rintro ⟨hplace, hsooner⟩
    exact ⟨distance capacity first place, by omega,
      by rw [iterate_following hfirst, walk_distance hfirst hplace]⟩

theorem nodup_stretch (hfirst : first < capacity) (hlast : last < capacity) :
    (stretch capacity first last).Nodup := by
  induction hlength : distance capacity first last generalizing first with
  | zero =>
      obtain rfl : last = first :=
        distance_inj hfirst hlast hfirst (hlength.trans (distance_self hfirst).symm)
      rw [stretch_self hfirst]
      exact List.nodup_singleton _
  | succ n ih =>
      have hne : last ≠ first := by
        rintro rfl
        rw [distance_self hfirst] at hlength
        omega
      have hnearer := distance_following hfirst hlast hne
      have hnext := following_lt first (by omega : 0 < capacity)
      rw [stretch_of_ne hfirst hlast hne, List.nodup_cons, mem_stretch_iff hnext hlast]
      refine ⟨?_, ih hnext (by omega)⟩
      -- the walk would come to the first slot last of all
      rintro ⟨_, hsooner⟩
      have hself := distance_following_self hfirst
      have hround := distance_following_lt hfirst hlast hne
      omega

end Stretch

section Walk

variable {slots : Slots V} {wanted : Slot V → Bool} {start last : Nat}

/-- A walk finds the first of the slots that it looks at which is wanted. -/
theorem Slots.firstFrom_eq_find? (slots : Slots V) (wanted : Slot V → Bool) (start steps : Nat) :
    slots.firstFrom wanted start steps =
      (slots.inspected wanted start steps).find? fun index => wanted (slots.look index) := by
  induction steps generalizing start with
  | zero => rfl
  | succ n ih =>
      rw [Slots.firstFrom, Slots.inspected]
      cases hwanted : wanted (slots.look start) with
      | true => simp [hwanted]
      | false => simp [hwanted, ih]

theorem Slots.FirstWanted.next (hfirst : slots.FirstWanted wanted start last)
    (hstart : start < slots.size) (hunwanted : wanted (slots.look start) = false) :
    last ≠ start ∧ slots.FirstWanted wanted (following slots.size start) last := by
  refine ⟨?_, (Slots.firstWanted_following_iff hstart hunwanted).2 hfirst⟩
  rintro rfl
  rw [hfirst.found] at hunwanted
  contradiction

/-- A walk looks at the slots up to the first wanted one and no further. -/
theorem Slots.FirstWanted.inspected_eq (hfirst : slots.FirstWanted wanted start last)
    (hstart : start < slots.size) (steps : Nat) :
    slots.inspected wanted start steps = (stretch slots.size start last).take steps := by
  induction steps generalizing start with
  | zero => rfl
  | succ n ih =>
      rw [Slots.inspected]
      cases hwanted : wanted (slots.look start) with
      | true =>
          obtain rfl : start = last := (Slots.firstWanted_iff_eq hstart hwanted).1 hfirst
          simp [stretch_self hstart]
      | false =>
          obtain ⟨hne, hlater⟩ := hfirst.next hstart hwanted
          rw [stretch_of_ne hstart hfirst.lt_size hne, List.take_succ_cons,
            ih hlater (following_lt start (by omega))]
          simp

theorem Slots.FirstWanted.firstFrom_eq (hfirst : slots.FirstWanted wanted start last)
    (hstart : start < slots.size) (steps : Nat) :
    slots.firstFrom wanted start steps =
      if distance slots.size start last < steps then some last else none := by
  induction steps generalizing start with
  | zero => rfl
  | succ n ih =>
      rw [Slots.firstFrom]
      cases hwanted : wanted (slots.look start) with
      | true =>
          obtain rfl : start = last := (Slots.firstWanted_iff_eq hstart hwanted).1 hfirst
          simp [distance_self hstart]
      | false =>
          obtain ⟨hne, hlater⟩ := hfirst.next hstart hwanted
          rw [ih hlater (following_lt start (by omega)),
            ← distance_following hstart hfirst.lt_size hne]
          simp

/-- A walk that ends at `last`, the first slot that is wanted: it looks at the slots up to there and
no others, and with more steps it would do the same. -/
structure Slots.WalkEnds (slots : Slots V) (wanted : Slot V → Bool) (start last : Nat) :
    Prop where
  first : slots.FirstWanted wanted start last
  firstFrom_eq : ∀ steps, slots.firstFrom wanted start steps =
    if distance slots.size start last < steps then some last else none
  inspected_eq : ∀ steps,
    slots.inspected wanted start steps = (stretch slots.size start last).take steps
  /-- There are no more slots to look at than there are slots. -/
  bounded : (stretch slots.size start last).length ≤ slots.size

theorem Slots.exists_walkEnds (wanted : Slot V → Bool) {found : Nat} (hfound : found < slots.size)
    (hwanted : wanted (slots.look found) = true) (hstart : start < slots.size) :
    ∃ last, slots.WalkEnds wanted start last := by
  obtain ⟨last, hfirst⟩ := Slots.exists_firstWanted wanted hfound hwanted start
  exact ⟨last, hfirst, hfirst.firstFrom_eq hstart, hfirst.inspected_eq hstart,
    length_stretch_le hfirst.lt_size⟩

theorem Slots.WalkEnds.firstFrom_size (hends : slots.WalkEnds wanted start last) :
    slots.firstFrom wanted start slots.size = some last := by
  have hbound := hends.bounded
  rw [length_stretch] at hbound
  rw [hends.firstFrom_eq, if_pos (Nat.lt_of_succ_le hbound)]

/-- A walk for a key that does not end at the key ends at the first free slot. -/
theorem Slots.FirstWanted.isFree_of_not_holds {key : Key}
    (hfirst : slots.FirstWanted (fun slot => slot.isFree || slot.holds key) start last)
    (hholds : (slots.look last).holds key = false) :
    slots.FirstWanted Slot.isFree start last := by
  refine ⟨hfirst.lt_size, by simpa [hholds] using hfirst.found, ?_⟩
  intro passed hpassed hsooner
  have hunwanted := hfirst.before passed hpassed hsooner
  rw [Bool.or_eq_false_iff] at hunwanted
  exact hunwanted.1

end Walk

section Sweep

variable {closing : Closing V} {index stop : Nat}

/-- A sweep visits the slots that it looks at, one after another. -/
theorem Closing.sweep_eq_foldl (closing : Closing V) (index steps : Nat) :
    closing.sweep index steps = (closing.inspected index steps).foldl Closing.visit closing := by
  induction steps generalizing closing index with
  | zero => rfl
  | succ n ih =>
      rw [Closing.sweep, Closing.inspected]
      cases hslot : closing.slots.look index with
      | free => simp [Closing.visit, hslot]
      | full key value => simp [ih]

/-- A sweep looks at the slots up to the first free one and no further, although it fills the gap
and leaves another one behind whenever it moves an entry. -/
theorem Closing.inspected_eq (hindex : index < closing.slots.size)
    (hfirst : closing.slots.FirstWanted Slot.isFree index stop) (hgap : stop ≠ closing.gap)
    (steps : Nat) :
    closing.inspected index steps = (stretch closing.slots.size index stop).take steps := by
  induction steps generalizing closing index with
  | zero => rfl
  | succ n ih =>
      rw [Closing.inspected]
      cases hhere : (closing.slots.look index).isFree with
      | true =>
          obtain rfl : index = stop := (Slots.firstWanted_iff_eq hindex hhere).1 hfirst
          simp [stretch_self hindex]
      | false =>
          have hsize := closing.size_visit index
          obtain ⟨hne, hlater⟩ := Closing.firstFree_visit hindex hfirst hgap hhere
          have hrest := ih (hsize.symm ▸ following_lt index (by omega)) hlater
            (Closing.gap_visit_ne hne hgap)
          rw [stretch_of_ne hindex hfirst.lt_size hne, List.take_succ_cons, hrest, hsize]
          simp

end Sweep

section Freed

variable {slots : Slots V} {index stop : Nat}

theorem Slots.FirstWanted.inspected_freed
    (hfirst : slots.FirstWanted Slot.isFree (following slots.size index) stop)
    (hindex : index < slots.size) (hne : stop ≠ index) (steps : Nat) :
    Closing.inspected ⟨slots.write index .free, index, []⟩ (following slots.size index) steps =
      (stretch slots.size (following slots.size index) stop).take steps := by
  have hkept := slots.size_write index .free
  have hbegins : following slots.size index <
      (⟨slots.write index .free, index, []⟩ : Closing V).slots.size := by
    rw [hkept]
    exact following_lt index (by omega)
  have hinspected := Closing.inspected_eq hbegins (hfirst.freed hindex hne) hne steps
  rwa [hkept] at hinspected

/-- As soon as the sweep from a freed slot comes to the next free one, the gap is closed. -/
theorem Slots.FirstWanted.sweep_freed
    (hfirst : slots.FirstWanted Slot.isFree (following slots.size index) stop)
    (hindex : index < slots.size) (hne : stop ≠ index) {steps : Nat}
    (hsteps : distance slots.size (following slots.size index) stop < steps) :
    Closing.sweep ⟨slots.write index .free, index, []⟩ (following slots.size index) steps =
      slots.close index := by
  -- the sweep visits the slots of the stretch, whatever the number of steps
  have hvisits : ∀ count, distance slots.size (following slots.size index) stop < count →
      Closing.sweep ⟨slots.write index .free, index, []⟩ (following slots.size index) count =
        (stretch slots.size (following slots.size index) stop).foldl Closing.visit
          ⟨slots.write index .free, index, []⟩ := by
    intro count hcount
    rw [Closing.sweep_eq_foldl, hfirst.inspected_freed hindex hne, List.take_of_length_le]
    rwa [length_stretch]
  rw [hvisits steps hsteps, Slots.close, hvisits]
  exact distance_following_lt hindex hfirst.lt_size hne

end Freed

end KeyedArena
