import KeyedArena.Slots.Layout
/-!
Walks around the circle.

A walk is described by the slots that it passes: `passed` lies before `index` on the walk from
`start` exactly when its cyclic distance from `start` is smaller.  In these terms a walk stops at
the first wanted slot, an entry is filed at the first free slot from its home, and a key is located
exactly where it is filed.
-/

namespace KeyedArena

universe u

variable {V : Type u}

/-- Cyclic distance without remainders: a target behind its source is reached after a wrap. -/
theorem distance_eq_ite {capacity source target : Nat} (hsource : source < capacity)
    (htarget : target < capacity) :
    distance capacity source target =
      if source ≤ target then target - source else target + capacity - source := by
  unfold distance
  split
  · rename_i hle
    rw [show target + (capacity - source) = capacity + (target - source) by omega,
      Nat.add_mod_left, Nat.mod_eq_of_lt (by omega)]
  · rename_i hlt
    rw [Nat.mod_eq_of_lt (by omega)]
    omega

theorem following_eq_ite {capacity index : Nat} (hindex : index < capacity) :
    following capacity index = if index + 1 = capacity then 0 else index + 1 := by
  unfold following
  split
  · rename_i hlast
    rw [hlast, Nat.mod_self]
  · exact Nat.mod_eq_of_lt (by omega)

theorem walk_distance {capacity source target : Nat} (hsource : source < capacity)
    (htarget : target < capacity) :
    (source + distance capacity source target) % capacity = target := by
  rw [distance_eq_ite hsource htarget]
  split
  · rw [show source + (target - source) = target by omega, Nat.mod_eq_of_lt htarget]
  · rw [show source + (target + capacity - source) = target + capacity by omega,
      Nat.add_mod_right, Nat.mod_eq_of_lt htarget]

theorem distance_walk {capacity source steps : Nat} (hsource : source < capacity)
    (hsteps : steps < capacity) :
    distance capacity source ((source + steps) % capacity) = steps := by
  have hpositive : 0 < capacity := by omega
  rw [distance_eq_ite hsource (Nat.mod_lt _ hpositive)]
  by_cases hwrap : source + steps < capacity
  · rw [Nat.mod_eq_of_lt hwrap]
    split <;> omega
  · rw [Nat.mod_eq_sub_mod (by omega), Nat.mod_eq_of_lt (by omega)]
    split <;> omega

theorem distance_inj {capacity source first second : Nat} (hsource : source < capacity)
    (hfirst : first < capacity) (hsecond : second < capacity)
    (heq : distance capacity source first = distance capacity source second) :
    first = second := by
  rw [← walk_distance hsource hfirst, heq, walk_distance hsource hsecond]

/-- Going on to another slot adds up the distances, up to one round. -/
theorem distance_triangle {capacity source middle target : Nat} (hsource : source < capacity)
    (hmiddle : middle < capacity) (htarget : target < capacity) :
    distance capacity source middle + distance capacity middle target =
        distance capacity source target ∨
      distance capacity source middle + distance capacity middle target =
        distance capacity source target + capacity := by
  rw [distance_eq_ite hsource hmiddle, distance_eq_ite hmiddle htarget,
    distance_eq_ite hsource htarget]
  split <;> split <;> split <;> omega

/-- One step forward brings every slot but the one just left nearer. -/
theorem distance_following {capacity source target : Nat} (hsource : source < capacity)
    (htarget : target < capacity) (hne : target ≠ source) :
    distance capacity (following capacity source) target + 1 =
      distance capacity source target := by
  have hpositive : 0 < capacity := by omega
  rw [distance_eq_ite (following_lt source hpositive) htarget,
    distance_eq_ite hsource htarget, following_eq_ite hsource]
  split <;> split <;> split <;> omega

theorem distance_to_following {capacity source index : Nat} (hsource : source < capacity)
    (hindex : index < capacity) (hround : distance capacity source index + 1 < capacity) :
    distance capacity source (following capacity index) = distance capacity source index + 1 := by
  have hpositive : 0 < capacity := by omega
  have hnext := following_eq_ite hindex
  rw [distance_eq_ite hsource hindex] at hround ⊢
  rw [distance_eq_ite hsource (following_lt index hpositive)]
  by_cases hlast : index + 1 = capacity
  · rw [if_pos hlast] at hnext
    rw [hnext]
    split at hround <;> split <;> omega
  · rw [if_neg hlast] at hnext
    rw [hnext]
    split at hround <;> split <;> omega

theorem distance_following_self {capacity index : Nat} (hindex : index < capacity) :
    distance capacity (following capacity index) index + 1 = capacity := by
  have hpositive : 0 < capacity := by omega
  rw [distance_eq_ite (following_lt index hpositive) hindex, following_eq_ite hindex]
  split <;> split <;> omega

theorem distance_pos {capacity source target : Nat} (hsource : source < capacity)
    (htarget : target < capacity) (hne : target ≠ source) : 0 < distance capacity source target := by
  apply Nat.pos_of_ne_zero
  intro hzero
  exact hne (distance_inj hsource htarget hsource (hzero.trans (distance_self hsource).symm))

theorem distance_following_one {capacity index : Nat} (hindex : index < capacity)
    (hround : 1 < capacity) : distance capacity index (following capacity index) = 1 := by
  have hself := distance_self hindex
  rw [distance_to_following hindex hindex (by omega), hself]

/-- The way from the slot after one to another slot leaves out these two. -/
theorem distance_following_lt {capacity source target : Nat} (hsource : source < capacity)
    (htarget : target < capacity) (hne : target ≠ source) :
    distance capacity (following capacity source) target < capacity - 1 := by
  have hnearer := distance_following hsource htarget hne
  have hround := distance_lt source target (by omega : 0 < capacity)
  omega

theorem Slots.lt_size_of_look_ne_free {slots : Slots V} {index : Nat}
    (h : slots.look index ≠ .free) : index < slots.size := by
  by_contra hout
  exact h (Slots.look_of_size_le (Nat.le_of_not_lt hout))

theorem Slot.isFree_iff {slot : Slot V} : slot.isFree = true ↔ slot = .free := by
  cases slot <;> simp

theorem Slot.isFree_eq_false_iff_ne {slot : Slot V} : slot.isFree = false ↔ slot ≠ .free := by
  cases slot <;> simp

theorem Slot.isFree_eq_false_iff {slot : Slot V} :
    slot.isFree = false ↔ ∃ key value, slot = .full key value := by
  cases slot <;> simp

theorem Slot.key?_eq_some_iff {slot : Slot V} {key : Key} :
    slot.key? = some key ↔ ∃ value, slot = .full key value := by
  cases slot <;> simp

theorem Slot.holds_iff {slot : Slot V} {key : Key} :
    slot.holds key = true ↔ slot.key? = some key := by
  cases slot <;> simp [Slot.holds]

section Full

variable {slots : Slots V} {index : Nat} {key : Key} {value : V}

theorem Slots.look_ne_free (hfull : slots.look index = .full key value) :
    slots.look index ≠ .free := by
  rw [hfull]
  exact nofun

theorem Slots.lt_size_of_full (hfull : slots.look index = .full key value) : index < slots.size :=
  Slots.lt_size_of_look_ne_free (Slots.look_ne_free hfull)

theorem Slots.key?_of_full (hfull : slots.look index = .full key value) :
    (slots.look index).key? = some key := Slot.key?_eq_some_iff.2 ⟨value, hfull⟩

theorem Slots.lt_size_of_key? (hkey : (slots.look index).key? = some key) :
    index < slots.size := by
  obtain ⟨value, hfull⟩ := Slot.key?_eq_some_iff.1 hkey
  exact Slots.lt_size_of_full hfull

end Full

theorem Slots.unbroken_iff {slots : Slots V} {start index : Nat} (hstart : start < slots.size) :
    slots.Unbroken start index ↔
      ∀ passed < slots.size,
        distance slots.size start passed < distance slots.size start index →
          (slots.look passed).isFree = false := by
  constructor
  · intro hwalk passed hpassed hnearer
    have hfull := hwalk (distance slots.size start passed) hnearer
    rwa [walk_distance hstart hpassed] at hfull
  · intro hfull steps hsteps
    have hround : steps < slots.size :=
      Nat.lt_trans hsteps (distance_lt start index (by omega))
    apply hfull _ (Nat.mod_lt _ (by omega))
    rwa [distance_walk hstart hround]

/-- The first wanted slot from a start on: no slot that is wanted lies nearer to the start. -/
structure Slots.FirstWanted (slots : Slots V) (wanted : Slot V → Bool) (start index : Nat) :
    Prop where
  lt_size : index < slots.size
  found : wanted (slots.look index) = true
  before : ∀ passed < slots.size,
    distance slots.size start passed < distance slots.size start index →
      wanted (slots.look passed) = false

theorem Slots.FirstWanted.unique {slots : Slots V} {wanted : Slot V → Bool}
    {start first second : Nat} (hstart : start < slots.size)
    (hfirst : slots.FirstWanted wanted start first)
    (hsecond : slots.FirstWanted wanted start second) : first = second := by
  apply distance_inj hstart hfirst.lt_size hsecond.lt_size
  apply Nat.le_antisymm
  · by_contra hbehind
    have hunwanted := hfirst.before second hsecond.lt_size (by omega)
    rw [hsecond.found] at hunwanted
    contradiction
  · by_contra hbehind
    have hunwanted := hsecond.before first hfirst.lt_size (by omega)
    rw [hfirst.found] at hunwanted
    contradiction

theorem Slots.firstWanted_iff_eq {slots : Slots V} {wanted : Slot V → Bool} {start index : Nat}
    (hstart : start < slots.size) (hwanted : wanted (slots.look start) = true) :
    slots.FirstWanted wanted start index ↔ start = index := by
  have hself := distance_self hstart
  constructor
  · intro hfirst
    by_contra hne
    have hback : distance slots.size start index ≠ 0 := by
      intro hzero
      exact hne (distance_inj hstart hstart hfirst.lt_size (hself.trans hzero.symm))
    have hunwanted := hfirst.before start hstart (by omega)
    rw [hwanted] at hunwanted
    contradiction
  · rintro rfl
    exact ⟨hstart, hwanted, by intros; omega⟩

theorem Slots.firstWanted_following_iff {slots : Slots V} {wanted : Slot V → Bool}
    {start index : Nat} (hstart : start < slots.size)
    (hunwanted : wanted (slots.look start) = false) :
    slots.FirstWanted wanted (following slots.size start) index ↔
      slots.FirstWanted wanted start index := by
  -- the start is the only slot that the next slot is not nearer to
  have horder : ∀ {passed : Nat}, passed < slots.size → passed ≠ start →
      index < slots.size → index ≠ start →
        (distance slots.size (following slots.size start) passed <
            distance slots.size (following slots.size start) index ↔
          distance slots.size start passed < distance slots.size start index) := by
    intro passed hpassed hpassedNe hindex hindexNe
    have hpassedNearer := distance_following hstart hpassed hpassedNe
    have hindexNearer := distance_following hstart hindex hindexNe
    omega
  have hne : ∀ target, wanted (slots.look target) = true → target ≠ start := by
    rintro target hfound rfl
    rw [hunwanted] at hfound
    contradiction
  constructor
  · rintro ⟨hindex, hfound, hbefore⟩
    refine ⟨hindex, hfound, ?_⟩
    intro passed hpassed hcloser
    by_cases hleft : passed = start
    · rw [hleft, hunwanted]
    · exact hbefore passed hpassed
        ((horder hpassed hleft hindex (hne index hfound)).2 hcloser)
  · rintro ⟨hindex, hfound, hbefore⟩
    refine ⟨hindex, hfound, ?_⟩
    intro passed hpassed hcloser
    by_cases hleft : passed = start
    · rw [hleft, hunwanted]
    · exact hbefore passed hpassed
        ((horder hpassed hleft hindex (hne index hfound)).1 hcloser)

/-- A walk of at most one round finds the first wanted slot that lies within its steps. -/
theorem Slots.firstFrom_eq_some_iff {slots : Slots V} {wanted : Slot V → Bool}
    {start steps index : Nat} (hstart : start < slots.size) (hsteps : steps ≤ slots.size) :
    slots.firstFrom wanted start steps = some index ↔
      slots.FirstWanted wanted start index ∧ distance slots.size start index < steps := by
  induction steps generalizing start with
  | zero => simp [Slots.firstFrom]
  | succ n ih =>
      rw [Slots.firstFrom]
      by_cases hwanted : wanted (slots.look start) = true
      · rw [if_pos hwanted, Option.some.injEq, Slots.firstWanted_iff_eq hstart hwanted]
        constructor
        · rintro rfl
          exact ⟨rfl, by rw [distance_self hstart]; omega⟩
        · exact And.left
      · have hunwanted : wanted (slots.look start) = false := by simpa using hwanted
        rw [if_neg hwanted, ih (following_lt start (by omega)) (by omega),
          Slots.firstWanted_following_iff hstart hunwanted]
        apply and_congr_right
        intro hfirst
        have hne : index ≠ start := by
          rintro rfl
          exact hwanted hfirst.found
        have hnearer := distance_following hstart hfirst.lt_size hne
        omega

theorem Slots.firstFrom_congr {slots : Slots V} {wanted other : Slot V → Bool}
    (hsame : ∀ index, wanted (slots.look index) = other (slots.look index)) {start steps : Nat} :
    slots.firstFrom wanted start steps = slots.firstFrom other start steps := by
  induction steps generalizing start with
  | zero => rfl
  | succ n ih => rw [Slots.firstFrom, Slots.firstFrom, hsame, ih]

/-- An entry is filed in the one free slot that its walk reaches unbroken. -/
theorem Slots.vacancy?_eq_some_iff {slots : Slots V} {key : Key} {index : Nat}
    (hsize : 0 < slots.size) :
    slots.vacancy? key = some index ↔
      index < slots.size ∧ slots.look index = .free ∧
        slots.Unbroken (key.home slots.size) index := by
  have hhome := key.home_lt hsize
  rw [Slots.vacancy?, Slots.probe, Slots.firstFrom_eq_some_iff hhome (Nat.le_refl _),
    Slots.unbroken_iff hhome]
  constructor
  · rintro ⟨hfirst, _⟩
    exact ⟨hfirst.lt_size, Slot.isFree_iff.1 hfirst.found, hfirst.before⟩
  · rintro ⟨hindex, hfree, hbefore⟩
    exact ⟨⟨hindex, Slot.isFree_iff.2 hfree, hbefore⟩, distance_lt _ _ hsize⟩

theorem Slots.exists_firstWanted {slots : Slots V} (wanted : Slot V → Bool) {found : Nat}
    (hfound : found < slots.size) (hwanted : wanted (slots.look found) = true) (start : Nat) :
    ∃ index, slots.FirstWanted wanted start index := by
  classical
  -- the wanted slot nearest to the start
  have hsome : ∃ steps, ∃ index < slots.size, wanted (slots.look index) = true ∧
      distance slots.size start index = steps :=
    ⟨_, found, hfound, hwanted, rfl⟩
  obtain ⟨index, hindex, hindexWanted, hsteps⟩ := Nat.find_spec hsome
  refine ⟨index, hindex, hindexWanted, ?_⟩
  intro passed hpassed hbefore
  by_contra hpassedWanted
  have hleast := Nat.find_min' hsome ⟨passed, hpassed, by simpa using hpassedWanted, rfl⟩
  omega

theorem Slots.exists_probe {slots : Slots V} (wanted : Slot V → Bool) {found : Nat}
    (hfound : found < slots.size) (hwanted : wanted (slots.look found) = true) (key : Key) :
    ∃ index, slots.probe wanted key = some index := by
  have hsize : 0 < slots.size := by omega
  have hhome := key.home_lt hsize
  obtain ⟨index, hfirst⟩ := Slots.exists_firstWanted wanted hfound hwanted (key.home slots.size)
  exact ⟨index, (Slots.firstFrom_eq_some_iff hhome (Nat.le_refl _)).2
    ⟨hfirst, distance_lt _ _ hsize⟩⟩

theorem Slots.HasRoom.one_lt_size {slots : Slots V} (hroom : slots.HasRoom) {index : Nat}
    (hfull : slots.look index ≠ .free) : 1 < slots.size := by
  obtain ⟨free, hbound, hfree⟩ := hroom
  have hindex := Slots.lt_size_of_look_ne_free hfull
  have hne : free ≠ index := by
    rintro rfl
    exact hfull hfree
  omega

/-- As long as a slot is free, every key has a place to be filed. -/
theorem Slots.HasRoom.exists_vacancy {slots : Slots V} (hroom : slots.HasRoom) (key : Key) :
    ∃ index, slots.vacancy? key = some index := by
  obtain ⟨free, hbound, hfree⟩ := hroom
  exact Slots.exists_probe Slot.isFree hbound (Slot.isFree_iff.2 hfree) key

theorem Slots.key?_of_locate? {slots : Slots V} {key : Key} {index : Nat}
    (h : slots.locate? key = some index) : (slots.look index).key? = some key := by
  rw [Slots.locate?, Option.filter_eq_some_iff] at h
  exact Slot.holds_iff.1 h.2

/-- A key is located in the first slot in which it is filed, unless there is a free slot on the
way. -/
theorem Slots.locate?_eq_some_iff {slots : Slots V} (hsize : 0 < slots.size) {key : Key}
    {index : Nat} :
    slots.locate? key = some index ↔
      slots.FirstWanted (·.holds key) (key.home slots.size) index ∧
        slots.Unbroken (key.home slots.size) index := by
  have hhome := key.home_lt hsize
  rw [Slots.locate?, Option.filter_eq_some_iff, Slots.probe,
    Slots.firstFrom_eq_some_iff hhome (Nat.le_refl _), Slots.unbroken_iff hhome]
  constructor
  · rintro ⟨⟨hfirst, _⟩, hholds⟩
    have hbefore : ∀ passed < slots.size, distance slots.size (key.home slots.size) passed <
        distance slots.size (key.home slots.size) index →
          (slots.look passed).isFree = false ∧ (slots.look passed).holds key = false := by
      intro passed hpassed hsooner
      simpa using hfirst.before passed hpassed hsooner
    refine ⟨⟨hfirst.lt_size, hholds, ?_⟩, ?_⟩
    · exact fun passed hpassed hsooner => (hbefore passed hpassed hsooner).2
    · exact fun passed hpassed hsooner => (hbefore passed hpassed hsooner).1
  · rintro ⟨hfirst, hfull⟩
    refine ⟨⟨⟨hfirst.lt_size, by simp [hfirst.found], ?_⟩, distance_lt _ _ hsize⟩, hfirst.found⟩
    intro passed hpassed hsooner
    rw [hfull passed hpassed hsooner, hfirst.before passed hpassed hsooner, Bool.or_false]

/-- A key is not located exactly when a free slot comes before all slots in which it is filed. -/
theorem Slots.locate?_eq_none_iff {slots : Slots V} {key : Key} {free : Nat}
    (hfree : slots.FirstWanted Slot.isFree (key.home slots.size) free) :
    slots.locate? key = none ↔ ∀ index < slots.size, (slots.look index).holds key = true →
      distance slots.size (key.home slots.size) free <
        distance slots.size (key.home slots.size) index := by
  have hsize : 0 < slots.size := Nat.lt_of_le_of_lt (Nat.zero_le _) hfree.lt_size
  have hhome := key.home_lt hsize
  constructor
  · intro hmissing index hindex hholds
    by_contra hbehind
    obtain ⟨first, hfirst⟩ :=
      Slots.exists_firstWanted (·.holds key) hindex hholds (key.home slots.size)
    have hnearest : distance slots.size (key.home slots.size) first ≤
        distance slots.size (key.home slots.size) index := by
      by_contra hfarther
      have hunwanted := hfirst.before index hindex (by omega)
      rw [hholds] at hunwanted
      contradiction
    -- no slot before the first one with the key is free
    have hwalk : slots.Unbroken (key.home slots.size) first := by
      rw [Slots.unbroken_iff hhome]
      exact fun passed hpassed hsooner => hfree.before passed hpassed (by omega)
    rw [(Slots.locate?_eq_some_iff hsize).2 ⟨hfirst, hwalk⟩] at hmissing
    contradiction
  · intro hbehind
    rw [Option.eq_none_iff_forall_ne_some]
    intro index hlocated
    obtain ⟨hfirst, hwalk⟩ := (Slots.locate?_eq_some_iff hsize).1 hlocated
    have hsooner := hbehind index hfirst.lt_size hfirst.found
    have hfull := (Slots.unbroken_iff hhome).1 hwalk free hfree.lt_size hsooner
    rw [hfree.found] at hfull
    contradiction

/-- In a sound circle a key is located exactly where it is filed. -/
theorem Slots.Sound.locate?_eq_some_iff {slots : Slots V} (hsound : slots.Sound) {key : Key}
    {index : Nat} : slots.locate? key = some index ↔ (slots.look index).key? = some key := by
  refine ⟨Slots.key?_of_locate?, fun hkey => ?_⟩
  have hindex := Slots.lt_size_of_key? hkey
  rw [Slots.locate?_eq_some_iff (by omega)]
  refine ⟨⟨hindex, Slot.holds_iff.2 hkey, ?_⟩, hsound.unbroken hkey⟩
  intro passed _ hsooner
  by_contra hsame
  have hpassedKey : (slots.look passed).key? = some key := Slot.holds_iff.1 (by simpa using hsame)
  rw [hsound.distinct hpassedKey hkey] at hsooner
  exact Nat.lt_irrefl _ hsooner

end KeyedArena
