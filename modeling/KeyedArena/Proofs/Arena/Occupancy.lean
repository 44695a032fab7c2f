import KeyedArena.Proofs.Arena.Soundness
import KeyedArena.Proofs.Sizing
/-!
How full an arena gets, and how its slots follow.

When every doubling makes room for at least one more entry, the slots are always the first ones
doubled just as often as the greatest number of entries so far called for.  Growth happens at the
threshold and not below it, so no doubling comes too soon, and none comes too late.
-/

namespace KeyedArena

universe u

variable {V : Type u}

theorem Arena.capacity_file (arena : Arena V) (key : Key) (value : V) :
    (arena.file key value).issue.capacity = arena.capacity :=
  arena.slots.size_place key value

theorem Arena.capacity_free (arena : Arena V) (index : Nat) :
    (arena.free index).1.capacity = arena.capacity :=
  arena.slots.size_close index

/-- The number of nonzero keys in use. -/
def Arena.occupancy (arena : Arena V) : Nat := (arena.keys.filter (· ≠ .zero)).length

/-- The counter of a sound arena is the number of nonzero keys in use. -/
theorem Arena.Sound.occupancy_eq {arena : Arena V} (hsound : arena.Sound) :
    arena.occupancy = arena.filled := by
  rw [Arena.occupancy, hsound.nonzero_keys, List.length_map, ← hsound.counted]

/-- There are only so many keys above zero. -/
theorem Arena.Sound.filled_lt {arena : Arena V} (hsound : arena.Sound) :
    arena.filled < 2147483648 := by
  have hdistinct : ((arena.slots.entries.map Prod.fst).map fun key => key.toInt.toNat).Nodup := by
    apply List.Nodup.map_on _ hsound.slots.keys_nodup
    intro left hleft right hright hsame
    have hleftIssued := hsound.issued_of_mem hleft
    have hrightIssued := hsound.issued_of_mem hright
    exact Key.toInt_inj.1 (by omega)
  have hrange : ((arena.slots.entries.map Prod.fst).map fun key => key.toInt.toNat) ⊆
      List.range' 1 2147483647 := by
    intro n hn
    obtain ⟨key, hkey, rfl⟩ := List.mem_map.1 hn
    have hissued := hsound.issued_of_mem hkey
    have hgreatest := key.raw.toInt_lt
    rw [List.mem_range'_1]
    unfold Key.toInt at hissued ⊢
    omega
  have hcount := hdistinct.length_le_of_subset hrange
  rw [List.length_map, List.length_map, List.length_range', ← hsound.counted] at hcount
  omega

/-- What neither resizes an arena nor fills it beyond its threshold. -/
structure Arena.Unresized (before after : Arena V) : Prop where
  load : after.loadFactor = before.loadFactor
  growAt : after.growAt = before.growAt
  capacity : after.capacity = before.capacity
  filled : before.filled ≤ before.growAt → after.filled ≤ before.growAt

/-- Whatever is asked of an arena, it is not resized, unless it has as many entries as its threshold
says, may grow, and grows to file one entry more. -/
theorem Arena.Step.unresized_or_grown {arena after : Arena V} {memory : Memory}
    (hstep : arena.Step memory after) :
    arena.Unresized after ∨
      ∃ key value, arena.filled = arena.growAt ∧ arena.growthRefusal? memory = none ∧
        after = (arena.grown.file key value).issue := by
  cases hstep with
  | stay => exact .inl ⟨rfl, rfl, rfl, id⟩
  | file hfiling =>
      cases hfiling with
      | refused failure => exact .inl ⟨rfl, rfl, rfl, id⟩
      | zero hnext => exact .inl ⟨rfl, rfl, rfl, id⟩
      | filed hkey hnonzero hslack =>
          exact .inl ⟨rfl, rfl, arena.capacity_file _ _,
            fun hfilled => Nat.lt_of_le_of_ne hfilled hslack⟩
      | grown hkey hnonzero hfull hgrowth => exact .inr ⟨_, _, hfull, hgrowth, rfl⟩
  | remove hremoval =>
      cases hremoval with
      | absent hnone => exact .inl ⟨rfl, rfl, rfl, id⟩
      | zero hkey hvalue => exact .inl ⟨rfl, rfl, rfl, id⟩
      | freed hnonzero hfull =>
          exact .inl ⟨rfl, rfl, arena.capacity_free _,
            fun hfilled => Nat.le_trans (Nat.sub_le _ _) hfilled⟩
  | advance key => exact .inl ⟨rfl, rfl, rfl, id⟩
  | withCeiling ceiling => exact .inl ⟨rfl, rfl, rfl, id⟩

/-- A load factor, and a number of slots from which on every doubling raises the threshold. -/
def Paced (loadFactor : Float) (first : Nat) : Prop :=
  ∃ r, Extended.ofFloat loadFactor = .real r ∧ 1 / 100 ≤ r ∧ r ≤ 99 / 100 ∧ 1 / 2 < first * r

theorem Paced.threshold_lt {loadFactor : Float} {first : Nat} (hpaced : Paced loadFactor first)
    {slots : Nat} (hpower : slots.isPowerOfTwo) (hfirst : first ≤ slots)
    (hbound : slots ≤ 549755813888) :
    threshold slots loadFactor < threshold (2 * slots) loadFactor := by
  obtain ⟨r, hload, hleast, hgreatest, hhalf⟩ := hpaced
  have hpositive : 0 < r := by linarith
  have hcast : (first : Rat) ≤ slots := by exact_mod_cast hfirst
  apply threshold_lt_threshold_double hload hpositive (by linarith) hpower (by omega)
  calc 1 / 2 < first * r := hhalf
    _ ≤ slots * r := mul_le_mul_of_nonneg_right hcast (le_of_lt hpositive)

/-- So many slots that they are never all needed have a threshold that is never met. -/
theorem Paced.slots_lt {loadFactor : Float} {first : Nat} (hpaced : Paced loadFactor first)
    {slots : Nat} (hpower : slots.isPowerOfTwo) (hbound : slots ≤ 549755813888)
    (hmet : threshold slots loadFactor < 2147483648) : slots < 274877906944 := by
  obtain ⟨r, hload, hleast, hgreatest, _⟩ := hpaced
  by_contra hmany
  have hcast : (274877906944 : Rat) ≤ slots := by exact_mod_cast Nat.le_of_not_lt hmany
  have hreached : 2147483647 < threshold slots loadFactor := by
    rw [lt_threshold_iff hload (by linarith) (by linarith) hpower (by omega)]
    refine ⟨?_, by omega⟩
    calc ((2147483647 : Nat) : Rat) < 274877906944 * (1 / 100) := by norm_num
      _ ≤ slots * r := by gcongr
  omega

/-- Slots that are filled to the threshold are few, as there are only so many keys. -/
theorem Arena.Sound.capacity_lt {arena : Arena V} (hsound : arena.Sound) {loadFactor : Float}
    {first : Nat} (hpaced : Paced loadFactor first) (hbounded : arena.capacity ≤ 549755813888)
    (hmet : arena.filled = threshold arena.capacity loadFactor) :
    arena.capacity < 274877906944 := by
  apply hpaced.slots_lt hsound.power hbounded
  rw [← hmet]
  exact hsound.filled_lt

/-- As many slots as a peak calls for: the first ones, doubled until the threshold reaches the
peak, and no further. -/
def LeastFor (loadFactor : Float) (first peak slots : Nat) : Prop :=
  ∃ doublings, slots = first * 2 ^ doublings ∧ peak ≤ threshold slots loadFactor ∧
    ∀ fewer < doublings, threshold (first * 2 ^ fewer) loadFactor < peak

theorem LeastFor.start (loadFactor : Float) (first : Nat) : LeastFor loadFactor first 0 first :=
  ⟨0, by rw [pow_zero, Nat.mul_one], Nat.zero_le _, nofun⟩

theorem LeastFor.first_le {loadFactor : Float} {first peak slots : Nat}
    (hleast : LeastFor loadFactor first peak slots) : first ≤ slots := by
  obtain ⟨doublings, rfl, _, _⟩ := hleast
  exact Nat.le_mul_of_pos_right _ (Nat.two_pow_pos _)

theorem LeastFor.mono {loadFactor : Float} {first peak higher slots : Nat}
    (hleast : LeastFor loadFactor first peak slots) (hhigher : peak ≤ higher)
    (hunder : higher ≤ threshold slots loadFactor) : LeastFor loadFactor first higher slots := by
  obtain ⟨doublings, hslots, _, hfewer⟩ := hleast
  refine ⟨doublings, hslots, hunder, ?_⟩
  intro fewer hless
  exact Nat.lt_of_lt_of_le (hfewer fewer hless) hhigher

/-- A peak just above the threshold calls for one doubling more. -/
theorem LeastFor.double {loadFactor : Float} {first peak slots : Nat}
    (hleast : LeastFor loadFactor first peak slots) (hmet : peak = threshold slots loadFactor)
    (hrises : threshold slots loadFactor < threshold (2 * slots) loadFactor) :
    LeastFor loadFactor first (peak + 1) (2 * slots) := by
  obtain ⟨doublings, hslots, _, hfewer⟩ := hleast
  refine ⟨doublings + 1, ?_, ?_, ?_⟩
  · rw [hslots, pow_succ]
    ring
  · rw [hmet]
    exact hrises
  · intro fewer hless
    rcases Nat.lt_or_eq_of_le (Nat.le_of_lt_succ hless) with hbefore | hlast
    · exact Nat.lt_succ_of_lt (hfewer fewer hbefore)
    · rw [hlast, ← hslots, ← hmet]
      exact Nat.lt_succ_self _

/-- A sound arena whose slots, from `first` on, are just as many as the peak of its occupancy
called for. -/
structure Arena.Fitted (loadFactor : Float) (first peak : Nat) (arena : Arena V) : Prop where
  sound : arena.Sound
  load : arena.loadFactor = loadFactor
  growAt : arena.growAt = threshold arena.capacity loadFactor
  filled : arena.filled ≤ peak
  least : LeastFor loadFactor first peak arena.capacity
  bounded : arena.capacity ≤ 549755813888

theorem Arena.Fitted.peak_le_growAt {loadFactor : Float} {first peak : Nat} {arena : Arena V}
    (hfitted : arena.Fitted loadFactor first peak) : peak ≤ arena.growAt := by
  obtain ⟨_, _, hpeak, _⟩ := hfitted.least
  rw [hfitted.growAt]
  exact hpeak

theorem Arena.Fitted.growAt_le {loadFactor : Float} {first peak : Nat} {arena : Arena V}
    (hfitted : arena.Fitted loadFactor first peak) : arena.growAt ≤ arena.capacity - 1 := by
  rw [hfitted.growAt]
  exact threshold_le _ _

theorem Arena.Fitted.hasRoom {loadFactor : Float} {first peak : Nat} {arena : Arena V}
    (hfitted : arena.Fitted loadFactor first peak) : arena.slots.HasRoom :=
  hfitted.sound.hasRoom (Nat.le_trans hfitted.filled hfitted.peak_le_growAt) hfitted.growAt_le

/-- What neither resizes an arena nor fills it beyond its threshold keeps it fitted. -/
theorem Arena.Fitted.of_unresized {loadFactor : Float} {first peak : Nat}
    {before after : Arena V} (hfitted : before.Fitted loadFactor first peak)
    (hsound : after.Sound) (hsame : before.Unresized after) :
    after.Fitted loadFactor first (max peak after.filled) := by
  have hpeak := hfitted.peak_le_growAt
  have hfilled := hsame.filled (Nat.le_trans hfitted.filled hpeak)
  have hunder : max peak after.filled ≤ threshold before.capacity loadFactor := by
    rw [← hfitted.growAt]
    exact Nat.max_le.2 ⟨hpeak, hfilled⟩
  constructor
  case sound => exact hsound
  case load => exact hsame.load.trans hfitted.load
  case growAt => rw [hsame.growAt, hsame.capacity, hfitted.growAt]
  case filled => exact Nat.le_max_right _ _
  case least =>
    rw [hsame.capacity]
    exact hfitted.least.mono (Nat.le_max_left _ _) hunder
  case bounded =>
    rw [hsame.capacity]
    exact hfitted.bounded

/-- Growing at the threshold, and only there, keeps an arena fitted. -/
theorem Arena.Fitted.grown {loadFactor : Float} {first peak : Nat} {arena : Arena V}
    (hfitted : arena.Fitted loadFactor first peak) (hpaced : Paced loadFactor first)
    (hfull : arena.filled = arena.growAt) (key : Key) (value : V)
    (hsound : (arena.grown.file key value).issue.Sound) :
    (arena.grown.file key value).issue.Fitted loadFactor first (max peak (arena.filled + 1)) := by
  have hcapacity : (arena.grown.file key value).issue.capacity = 2 * arena.capacity :=
    (arena.grown.capacity_file key value).trans arena.capacity_grown
  have hmet : peak = arena.filled :=
    Nat.le_antisymm (hfull ▸ hfitted.peak_le_growAt) hfitted.filled
  have hthreshold : peak = threshold arena.capacity loadFactor := by
    rw [hmet, hfull, hfitted.growAt]
  have hfew : arena.capacity < 274877906944 :=
    hfitted.sound.capacity_lt hpaced hfitted.bounded (hmet.symm.trans hthreshold)
  have hrises := hpaced.threshold_lt hfitted.sound.power hfitted.least.first_le hfitted.bounded
  have hpeak : max peak (arena.filled + 1) = peak + 1 := by omega
  rw [hpeak]
  constructor
  case sound => exact hsound
  case load => exact hfitted.load
  case growAt =>
    rw [hcapacity, ← hfitted.load]
    rfl
  case filled => exact Nat.succ_le_succ hfitted.filled
  case least =>
    rw [hcapacity]
    exact hfitted.least.double hthreshold hrises
  case bounded => omega

/-- Whatever is asked of a fitted arena, it stays fitted, to a peak that takes its new occupancy
into account. -/
theorem Arena.Fitted.step {loadFactor : Float} {first peak : Nat} {arena after : Arena V}
    (hfitted : arena.Fitted loadFactor first peak) (hpaced : Paced loadFactor first)
    {memory : Memory} (hstep : arena.Step memory after) :
    after.Fitted loadFactor first (max peak after.filled) := by
  have hsound := hfitted.sound.step hfitted.hasRoom hstep
  rcases hstep.unresized_or_grown with hsame | ⟨key, value, hfull, _, rfl⟩
  · exact hfitted.of_unresized hsound hsame
  · exact hfitted.grown hpaced hfull key value hsound

end KeyedArena
