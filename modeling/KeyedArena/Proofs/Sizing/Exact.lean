import KeyedArena.Proofs.Sizing
import Mathlib.Data.ENat.Lattice
import Mathlib.Order.Bounds.Basic
/-!
What sizing comes to when all rounding is accounted for.

A threshold is not rounded at all.  The number of slots to begin with depends on one rounded
quotient, and is the least power of two that covers it and leaves a slot free.  Of the two refusals
the second, by the power of two and not by the quotient, is met only at load factors next to one.
-/

namespace KeyedArena

/-- The least count that is not below a point of the extended line.  There is none at its upper
end; negative points and non-numbers give 0. -/
def Extended.ceiling : Extended → ℕ∞
  | nan => 0
  | infinite negative => if negative then 0 else ⊤
  | real r => (r.ceil.toNat : ℕ∞)

/-- Bringing a ceiling into the range of a word cuts it off at the greatest count. -/
theorem Extended.ceilCount_eq (x : Extended) :
    x.ceilCount = (min x.ceiling greatestCount).toNat := by
  cases x with
  | nan => rfl
  | infinite negative => cases negative <;> rfl
  | real r => rw [ceilCount, ceiling, ← Nat.mono_cast.map_min, ENat.toNat_natCast]

theorem Extended.ceiling_le_iff (x : Extended) {n : Nat} (hn : n < greatestCount) :
    x.ceiling ≤ n ↔ x.ceilCount ≤ n := by
  cases hceiling : x.ceiling with
  | top =>
      rw [x.ceilCount_eq, hceiling, min_eq_right le_top, ENat.toNat_natCast]
      exact iff_of_false (by simp) (Nat.not_le.2 hn)
  | coe count =>
      rw [x.ceilCount_eq, hceiling, ← Nat.mono_cast.map_min, ENat.toNat_natCast,
        ENat.natCast_le_natCast]
      omega

theorem Extended.ceiling_eq (x : Extended) (hx : x.ceilCount < greatestCount) :
    x.ceiling = x.ceilCount := by
  cases hceiling : x.ceiling with
  | top =>
      rw [x.ceilCount_eq, hceiling, min_eq_right le_top, ENat.toNat_natCast] at hx
      exact absurd hx (Nat.lt_irrefl _)
  | coe count =>
      rw [x.ceilCount_eq, hceiling, ← Nat.mono_cast.map_min, ENat.toNat_natCast] at hx ⊢
      rw [Nat.min_eq_left (by omega)]

/-- What becomes of the demand for slots for a number of entries whose quotient by the load factor,
rounded up, is `length`. -/
structure Sizes (length : ℕ∞) (elements : Nat) (outcome : Except Failure Nat) : Prop where
  refused : mostSlots < length →
    outcome = .error (.capacityExceeded (min length greatestCount).toNat mostSlots)
  sized : length ≤ mostSlots → ∃ slots,
    IsLeast { slots : Nat |
      slots.isPowerOfTwo ∧ leastSlots ≤ slots ∧ length ≤ slots ∧ elements < slots } slots ∧
    (slots ≤ mostSlots → outcome = .ok slots) ∧
    (mostSlots < slots → outcome = .error (.capacityExceeded slots mostSlots))

/-- The slots that cover a length and one more than the entries are the least power of two that
does. -/
theorem isLeast_powerFrom {length elements : Nat} (hle : elements ≤ length) :
    IsLeast { slots : Nat |
        slots.isPowerOfTwo ∧ leastSlots ≤ slots ∧ (length : ℕ∞) ≤ slots ∧ elements < slots }
      (max (powerFrom (if length = elements then length + 1 else length)) leastSlots) := by
  have hcovered :
      (if length = elements then length + 1 else length) = max length (elements + 1) := by
    split <;> omega
  rw [hcovered]
  have hcovers := le_powerFrom (max length (elements + 1))
  constructor
  · refine ⟨?_, Nat.le_max_right _ _, ENat.natCast_le_natCast.2 (by omega), by omega⟩
    rcases Nat.le_total (powerFrom (max length (elements + 1))) leastSlots with hless | hmore
    · rw [Nat.max_eq_right hless]
      exact ⟨2, rfl⟩
    · rw [Nat.max_eq_left hmore]
      exact powerFrom_isPowerOfTwo _
  · rintro slots ⟨hpower, hleast, hlength, hfree⟩
    have hreached : max length (elements + 1) ≤ slots :=
      Nat.max_le.2 ⟨ENat.natCast_le_natCast.1 hlength, hfree⟩
    exact Nat.max_le.2 ⟨powerFrom_le hpower hreached, hleast⟩

section Load

variable {loadFactor : Float} {r : Rat}

theorem sizes_slotsFor (hload : Extended.ofFloat loadFactor = .real r) (hpositive : 0 < r)
    (hle : r ≤ 1) (elements : Nat) :
    Sizes (quotient elements loadFactor).ceiling elements (slotsFor elements loadFactor) := by
  have hlimit := (quotient elements loadFactor).ceiling_le_iff
    (show mostSlots < greatestCount by decide)
  rw [slotsFor]
  dsimp only
  constructor
  case refused =>
    intro hlong
    have hover : mostSlots < (quotient elements loadFactor).ceilCount :=
      Nat.not_le.1 fun hshort => not_le.2 hlong (hlimit.2 hshort)
    rw [if_pos hover, ← Extended.ceilCount_eq]
  case sized =>
    intro hshort
    have hwithin := hlimit.1 hshort
    have hcovered := le_ceilCount_quotient hload hpositive hle hwithin
    have hlength := (quotient elements loadFactor).ceiling_eq
      (Nat.lt_of_le_of_lt hwithin (by decide))
    rw [if_neg (Nat.not_lt.2 hwithin), hlength]
    exact ⟨_, isLeast_powerFrom hcovered, fun hfew => if_neg (Nat.not_lt.2 hfew), fun hmany =>
      if_pos hmany⟩

/-- Where at most 99 slots in 100 are filled, the entries for which the quotient is within the limit
leave a slot free there. -/
theorem lt_mostSlots_of_quotient (hload : Extended.ofFloat loadFactor = .real r)
    (hpositive : 0 < r) (hle : r ≤ 99 / 100) {elements : Nat}
    (hwithin : (quotient elements loadFactor).ceilCount ≤ mostSlots) : elements < mostSlots := by
  have hcovered := le_ceilCount_quotient hload hpositive (by linarith) hwithin
  apply Nat.lt_of_le_of_ne (hcovered.trans hwithin)
  rintro rfl
  -- the quotient of the limit exceeds it by more than one
  have hreached : ((mostSlots + 1 : Nat) : Rat) ≤ mostSlots / r := by
    rw [le_div_iff₀ hpositive]
    calc ((mostSlots + 1 : Nat) : Rat) * r ≤ ((mostSlots + 1 : Nat) : Rat) * (99 / 100) := by gcongr
      _ ≤ mostSlots := by norm_num [mostSlots]
  have hover := le_ceilCount_of_le_div hload hpositive (by decide) (by decide) hreached
  omega

/-- The number of slots for any number of entries at a load factor up to one: it is settled by the
quotient, which is rounded once, and at load factors up to 99 hundredths by nothing else. -/
theorem slotsFor_exact (hload : Extended.ofFloat loadFactor = .real r) (hpositive : 0 < r)
    (hle : r ≤ 1) (elements : Nat) :
    quotient elements loadFactor = .rounded (nearest elements / r) ∧
      Sizes (quotient elements loadFactor).ceiling elements (slotsFor elements loadFactor) ∧
      (r ≤ 99 / 100 →
        ((∃ slots, slotsFor elements loadFactor = .ok slots) ↔
          (quotient elements loadFactor).ceiling ≤ mostSlots)) := by
  have hsizes := sizes_slotsFor hload hpositive hle elements
  refine ⟨quotient_eq hload hpositive elements, hsizes, ?_⟩
  intro hsparse
  constructor
  · rintro ⟨slots, hslots⟩
    by_contra hlong
    have hrefused := hsizes.refused (not_le.1 hlong)
    rw [hslots] at hrefused
    contradiction
  · intro hshort
    obtain ⟨slots, hleast, hfits, _⟩ := hsizes.sized hshort
    have hwithin := (Extended.ceiling_le_iff _ (by decide)).1 hshort
    have hfree := lt_mostSlots_of_quotient hload hpositive hsparse hwithin
    exact ⟨slots, hfits (hleast.2 ⟨⟨30, rfl⟩, by decide, hshort, hfree⟩)⟩

end Load

/-- Entries as many as there may be slots, which are all to be filled, would need the next power of
two.  At the least positive load factor the quotient of four entries is infinite. -/
theorem slotsFor_exact_limits :
    Extended.ofFloat 1 = .real 1 ∧ (quotient mostSlots 1).ceiling = mostSlots ∧
      Sizes (quotient mostSlots 1).ceiling mostSlots (slotsFor mostSlots 1) ∧
      slotsFor mostSlots 1 = .error (.capacityExceeded 2147483648 mostSlots) ∧
      (quotient 4 5e-324).ceiling = ⊤ ∧
      slotsFor 4 5e-324 = .error (.capacityExceeded 18446744073709551615 mostSlots) := by
  have hone : Extended.ofFloat 1 = .real 1 := by decide +kernel
  have htiny : Extended.ofFloat 5e-324 = .real ((2 : Rat) ^ (-1074 : Int)) := by decide +kernel
  have hlength : (quotient mostSlots 1).ceiling = mostSlots := by decide +kernel
  have hinfinite : (quotient 4 5e-324).ceiling = ⊤ := by decide +kernel
  obtain ⟨_, hsizes, _⟩ := slotsFor_exact hone one_pos (le_refl _) mostSlots
  obtain ⟨_, hrefuses, _⟩ := slotsFor_exact htiny (by positivity)
    (zpow_le_one_of_nonpos₀ (by norm_num) (by decide)) 4
  obtain ⟨slots, hleast, _, hmany⟩ := hsizes.sized (le_of_eq hlength)
  rw [hlength] at hleast
  obtain rfl : slots = 2147483648 :=
    (hleast.unique (isLeast_powerFrom (Nat.le_refl mostSlots))).trans (by decide +kernel)
  refine ⟨hone, hlength, hsizes, hmany (by decide), hinfinite, ?_⟩
  rw [hinfinite] at hrefuses
  exact hrefuses.refused (ENat.natCast_lt_top _)

section Load

variable {loadFactor : Float} {r : Rat}

/-- The threshold of a number of slots at a load factor that stands for `r`. -/
structure ExactThreshold (slots : Nat) (loadFactor : Float) (r : Rat) : Prop where
  /-- The product of the two is a double, so that it is not rounded. -/
  unrounded : product slots loadFactor = .real (slots * r)
  value : (threshold slots loadFactor : Int) = min ((slots : Int) - 1) (slots * r : Rat).ceil
  positive : 1 ≤ threshold slots loadFactor
  below : threshold slots loadFactor ≤ slots - 1
  /-- A greater load factor has no lower threshold. -/
  mono : ∀ {greater : Float} {s : Rat}, Extended.ofFloat greater = .real s → r ≤ s → s ≤ 1 →
    threshold slots loadFactor ≤ threshold slots greater
  /-- The threshold rises with the next doubling if and only if more than half a slot is to be
  filled. -/
  rises_iff : threshold slots loadFactor < threshold (2 * slots) loadFactor ↔ 1 / 2 < slots * r

/-- Up to 2^62 slots, thresholds are those of exact arithmetic. -/
theorem exactThreshold (hload : Extended.ofFloat loadFactor = .real r) (hpositive : 0 < r)
    (hle : r ≤ 1) {slots : Nat} (hpower : slots.isPowerOfTwo) (hleast : leastSlots ≤ slots)
    (hmost : slots ≤ 2 ^ 62) : ExactThreshold slots loadFactor r := by
  have hbound : 2 * slots ≤ 2 ^ 63 := by omega
  have hsome : 1 < slots := Nat.lt_of_lt_of_le (by decide) hleast
  have hpos := threshold_pos hload hpositive hle hpower (by omega) hsome
  constructor
  case unrounded =>
    exact product_eq_exact hload hpositive hle hpower
      (by exact_mod_cast (by omega : slots ≤ 2 ^ 63))
  case value =>
    have heq := threshold_eq hload hpositive hle hpower (by omega)
    omega
  case positive => exact hpos
  case below => exact threshold_le _ _
  case mono =>
    intro greater s hgreater hmore htop
    by_contra hless
    obtain ⟨hbelow, hlast⟩ := (lt_threshold_iff hload hpositive hle hpower (by omega) _).1
      (Nat.not_le.1 hless)
    have hshare : (slots : Rat) * r ≤ slots * s := by gcongr
    have hself := (lt_threshold_iff hgreater (hpositive.trans_le hmore) htop hpower (by omega) _).2
      ⟨hbelow.trans_le hshare, hlast⟩
    exact Nat.lt_irrefl _ hself
  case rises_iff =>
    constructor
    · intro hrises
      by_contra hhalf
      have hdouble : (2 * slots).isPowerOfTwo := by
        rw [Nat.mul_comm]
        exact Nat.isPowerOfTwo_mul_two_of_isPowerOfTwo hpower
      have hone := threshold_eq_one hload hpositive hle hdouble (by omega) hbound (by
        push_cast
        linarith)
      omega
    · exact threshold_lt_threshold_double hload hpositive hle hpower hbound

end Load

/-- At one eighth, half of one of four slots is to be filled, and eight slots have the same
threshold; it rises from there on.  At 2^62 slots the doubled ones still have an exact threshold. -/
theorem exactThreshold_eighth :
    Extended.ofFloat 0.125 = .real (1 / 8) ∧ ExactThreshold 4 0.125 (1 / 8) ∧
      ¬ threshold 4 0.125 < threshold 8 0.125 ∧ threshold 8 0.125 < threshold 16 0.125 ∧
      ExactThreshold (2 ^ 62) 0.125 (1 / 8) ∧
      threshold (2 ^ 62) 0.125 < threshold (2 * 2 ^ 62) 0.125 := by
  have hload : Extended.ofFloat 0.125 = .real (1 / 8) := by decide +kernel
  have hfour : ExactThreshold 4 0.125 (1 / 8) :=
    exactThreshold hload (by norm_num) (by norm_num) ⟨2, rfl⟩ (by decide) (by norm_num)
  have height : ExactThreshold 8 0.125 (1 / 8) :=
    exactThreshold hload (by norm_num) (by norm_num) ⟨3, rfl⟩ (by decide) (by norm_num)
  have hmost : ExactThreshold (2 ^ 62) 0.125 (1 / 8) :=
    exactThreshold hload (by norm_num) (by norm_num) ⟨62, rfl⟩ (by decide) (le_refl _)
  exact ⟨hload, hfour, fun hrises => absurd (hfour.rises_iff.1 hrises) (by norm_num),
    height.rises_iff.2 (by norm_num), hmost, hmost.rises_iff.2 (by norm_num)⟩

end KeyedArena
