import KeyedArena.Proofs.Binary64.Nearest
import KeyedArena.Sizing
/-!
Sizes and thresholds in exact arithmetic.

Up to 2^63 slots the threshold is the ceiling of the exact product of slots and load factor,
short of one slot.  It rises with every doubling exactly when more than half a slot is to be
filled, and that is so from the first size on unless an arena expects nothing and fills at most
one slot in eight.
-/

namespace KeyedArena

/-- A finite double that is not negative has at most 53 binary digits. -/
theorem Reading.ofBits_finite {bits : UInt64} {negative : Bool} {significand : Nat}
    {exponent : Int} (hfinite : Reading.ofBits bits = .finite negative significand exponent) :
    significand < 2 * hiddenBit ∧ -1074 ≤ exponent := by
  have hfraction : bits.toNat % hiddenBit < hiddenBit := Nat.mod_lt _ (by decide)
  unfold Reading.ofBits at hfinite
  dsimp only at hfinite
  split at hfinite
  · split at hfinite <;> simp at hfinite
  · split at hfinite
    · simp only [Reading.finite.injEq] at hfinite
      obtain ⟨_, hsignificand, hexponent⟩ := hfinite
      omega
    · simp only [Reading.finite.injEq] at hfinite
      obtain ⟨_, hsignificand, hexponent⟩ := hfinite
      omega

theorem Reading.finite_of_ofFloat {x : Float} {r : Rat} (hx : Extended.ofFloat x = .real r) :
    ∃ negative significand exponent,
      Reading.ofFloat x = .finite negative significand exponent ∧
        r = withSign negative (magnitude significand exponent) := by
  unfold Extended.ofFloat at hx
  cases hreading : Reading.ofFloat x with
  | nan => simp [hreading, Reading.extended] at hx
  | infinite negative => simp [hreading, Reading.extended] at hx
  | finite negative significand exponent =>
      simp only [hreading, Reading.extended, Extended.real.injEq] at hx
      exact ⟨negative, significand, exponent, rfl, hx.symm⟩

theorem magnitude_nonneg (significand : Nat) (exponent : Int) :
    0 ≤ magnitude significand exponent := by
  unfold magnitude
  positivity

theorem representable_of_ofFloat {x : Float} {r : Rat} (hx : Extended.ofFloat x = .real r)
    (hpositive : 0 < r) : Representable r := by
  obtain ⟨negative, significand, exponent, hreading, hvalue⟩ := Reading.finite_of_ofFloat hx
  have hbounds := Reading.ofBits_finite hreading
  refine ⟨significand, exponent, hbounds.1, hbounds.2, ?_⟩
  cases negative with
  | false => simpa [withSign] using hvalue
  | true =>
      have hmagnitude := magnitude_nonneg significand exponent
      simp only [withSign, if_true] at hvalue
      linarith

theorem product_eq {factor : Float} {r : Rat} (hfactor : Extended.ofFloat factor = .real r)
    (count : Nat) : product count factor = .rounded (nearest count * r) := by
  obtain ⟨negative, significand, exponent, hreading, hvalue⟩ := Reading.finite_of_ofFloat hfactor
  rw [product, hreading, hvalue]

/-- A quotient by a positive double is the exact quotient of a rounded count, rounded. -/
theorem quotient_eq {divisor : Float} {r : Rat} (hdivisor : Extended.ofFloat divisor = .real r)
    (hpositive : 0 < r) (count : Nat) : quotient count divisor = .rounded (nearest count / r) := by
  obtain ⟨negative, significand, exponent, hreading, hvalue⟩ :=
    Reading.finite_of_ofFloat hdivisor
  have hne : significand ≠ 0 := by
    intro hzero
    rw [hvalue, hzero, magnitude] at hpositive
    cases negative <;> simp [withSign] at hpositive
  rw [quotient, hreading, hvalue]
  simp only [hne, if_false]

theorem two_pow_lt_overflowBound : (2 : Rat) ^ 63 < overflowBound := by decide +kernel

theorem rounded_eq_real {x : Rat} (hnonneg : 0 ≤ nearest x) (hbound : nearest x < overflowBound) :
    Extended.rounded x = .real (nearest x) := by
  have hlow : ¬ nearest x ≤ -overflowBound := by linarith
  unfold Extended.rounded
  dsimp only
  rw [if_neg (not_le.2 hbound), if_neg hlow]

/-- The product of a power of two slots and a load factor is not rounded. -/
theorem product_eq_exact {loadFactor : Float} {r : Rat}
    (hload : Extended.ofFloat loadFactor = .real r) (hpositive : 0 < r) (hle : r ≤ 1)
    {slots : Nat} (hpower : slots.isPowerOfTwo) (hbound : (slots : Rat) ≤ 2 ^ 63) :
    product slots loadFactor = .real (slots * r) := by
  obtain ⟨digit, hslots⟩ := hpower
  have hcast : (slots : Rat) = (2 : Rat) ^ digit := by
    rw [hslots]
    push_cast
    rfl
  have hslotsPositive : (0 : Rat) < slots := by
    rw [hcast]
    positivity
  have hexactCount : nearest (slots : Rat) = slots := by
    apply Representable.nearest_eq _ (le_of_lt hslotsPositive)
    rw [hcast, ← zpow_natCast]
    exact representable_two_zpow (by omega)
  have hexact : nearest (slots * r) = slots * r := by
    apply Representable.nearest_eq _ (by positivity)
    rw [hcast]
    exact (representable_of_ofFloat hload hpositive).mul_two_pow digit
  have hsmall : nearest (slots * r) < overflowBound := by
    calc nearest (slots * r) = slots * r := hexact
      _ ≤ slots * 1 := by gcongr
      _ = slots := mul_one _
      _ ≤ 2 ^ 63 := hbound
      _ < overflowBound := two_pow_lt_overflowBound
  rw [product_eq hload, hexactCount, rounded_eq_real (by rw [hexact]; positivity) hsmall, hexact]

/-- The threshold is the exact share of the slots, rounded up, short of the last slot. -/
theorem threshold_eq {loadFactor : Float} {r : Rat}
    (hload : Extended.ofFloat loadFactor = .real r) (hpositive : 0 < r) (hle : r ≤ 1)
    {slots : Nat} (hpower : slots.isPowerOfTwo) (hbound : slots ≤ 2 ^ 63) :
    threshold slots loadFactor = min (slots * r).ceil.toNat (slots - 1) := by
  have hslotsBound : (slots : Rat) ≤ 2 ^ 63 := by exact_mod_cast hbound
  have hproduct := product_eq_exact hload hpositive hle hpower hslotsBound
  have hshare : slots * r ≤ 2 ^ 63 := by
    calc slots * r ≤ slots * 1 := by gcongr
      _ = slots := mul_one _
      _ ≤ 2 ^ 63 := hslotsBound
  have hsmall : (slots * r).ceil.toNat ≤ greatestCount := by
    rw [Int.toNat_le, Rat.ceil_le_iff]
    exact hshare.trans (by norm_num [greatestCount])
  rw [threshold, hproduct, Extended.ceilCount, Nat.min_eq_left hsmall]

/-- A threshold counts the numbers below the exact share of the slots, short of the last slot. -/
theorem lt_threshold_iff {loadFactor : Float} {r : Rat}
    (hload : Extended.ofFloat loadFactor = .real r) (hpositive : 0 < r) (hle : r ≤ 1)
    {slots : Nat} (hpower : slots.isPowerOfTwo) (hbound : slots ≤ 2 ^ 63) (n : Nat) :
    n < threshold slots loadFactor ↔ (n : Rat) < slots * r ∧ n + 1 < slots := by
  have hceil : n < (slots * r).ceil.toNat ↔ (n : Rat) < slots * r := by
    rw [Int.lt_toNat, Rat.lt_ceil_iff]
    norm_cast
  rw [threshold_eq hload hpositive hle hpower hbound, Nat.lt_min, hceil]
  constructor
  · rintro ⟨hbelow, hlast⟩
    exact ⟨hbelow, by omega⟩
  · rintro ⟨hbelow, hlast⟩
    exact ⟨hbelow, by omega⟩

theorem threshold_le (slots : Nat) (loadFactor : Float) :
    threshold slots loadFactor ≤ slots - 1 := Nat.min_le_right _ _

theorem threshold_pos {loadFactor : Float} {r : Rat}
    (hload : Extended.ofFloat loadFactor = .real r) (hpositive : 0 < r) (hle : r ≤ 1)
    {slots : Nat} (hpower : slots.isPowerOfTwo) (hbound : slots ≤ 2 ^ 63) (hslots : 1 < slots) :
    0 < threshold slots loadFactor := by
  have hcast : (0 : Rat) < slots := by exact_mod_cast (by omega : 0 < slots)
  rw [lt_threshold_iff hload hpositive hle hpower hbound, Nat.cast_zero]
  exact ⟨by positivity, by omega⟩

/-- The threshold rises when the slots are doubled, if more than half a slot is to be filled. -/
theorem threshold_lt_threshold_double {loadFactor : Float} {r : Rat}
    (hload : Extended.ofFloat loadFactor = .real r) (hpositive : 0 < r) (hle : r ≤ 1)
    {slots : Nat} (hpower : slots.isPowerOfTwo) (hbound : 2 * slots ≤ 2 ^ 63)
    (hhalf : 1 / 2 < slots * r) :
    threshold slots loadFactor < threshold (2 * slots) loadFactor := by
  have hdouble : (2 * slots).isPowerOfTwo := by
    rw [Nat.mul_comm]
    exact Nat.isPowerOfTwo_mul_two_of_isPowerOfTwo hpower
  have hslots := Nat.pos_of_isPowerOfTwo hpower
  have hshort := threshold_le slots loadFactor
  rw [lt_threshold_iff hload hpositive hle hdouble hbound]
  refine ⟨?_, by omega⟩
  push_cast
  rcases Nat.lt_or_ge (threshold slots loadFactor) 2 with hfew | hmany
  · have hone : (threshold slots loadFactor : Rat) ≤ 1 := by exact_mod_cast Nat.le_of_lt_succ hfew
    linarith
  · -- one less than the threshold is below the exact share
    have hbefore := (lt_threshold_iff hload hpositive hle hpower (by omega)
      (threshold slots loadFactor - 1)).1 (by omega)
    have hcast : ((threshold slots loadFactor - 1 : Nat) : Rat) =
        (threshold slots loadFactor : Rat) - 1 := by
      rw [Nat.cast_sub (by omega), Nat.cast_one]
    have htwo : (2 : Rat) ≤ threshold slots loadFactor := by exact_mod_cast hmany
    rw [hcast] at hbefore
    linarith [hbefore.1]

theorem threshold_eq_one {loadFactor : Float} {r : Rat}
    (hload : Extended.ofFloat loadFactor = .real r) (hpositive : 0 < r) (hle : r ≤ 1)
    {slots : Nat} (hpower : slots.isPowerOfTwo) (hleast : leastSlots ≤ slots)
    (hbound : slots ≤ 2 ^ 63) (hshare : slots * r ≤ 1) : threshold slots loadFactor = 1 := by
  have hiff := lt_threshold_iff hload hpositive hle hpower hbound
  unfold leastSlots at hleast
  have hsome := threshold_pos hload hpositive hle hpower hbound (by omega)
  have hmost : ¬ 1 < threshold slots loadFactor := by
    rw [hiff 1, Nat.cast_one]
    intro habove
    linarith [habove.1]
  omega

theorem powerFrom_isPowerOfTwo (count : Nat) : (powerFrom count).isPowerOfTwo := by
  unfold powerFrom
  split
  · exact Nat.isPowerOfTwo_one
  · exact ⟨_, Nat.one_shiftLeft _⟩

theorem le_powerFrom (count : Nat) : count ≤ powerFrom count := by
  unfold powerFrom
  split
  · assumption
  · have hbelow : count - 1 < 2 ^ ((count - 1).log2 + 1) := Nat.lt_log2_self
    rw [Nat.one_shiftLeft]
    omega

theorem powerFrom_le {count power : Nat} (hpower : power.isPowerOfTwo) (hle : count ≤ power) :
    powerFrom count ≤ power := by
  unfold powerFrom
  split
  · exact Nat.pos_of_isPowerOfTwo hpower
  · obtain ⟨digit, rfl⟩ := hpower
    have hdigit : (count - 1).log2 < digit := (Nat.log2_lt (by omega)).2 (by omega)
    rw [Nat.one_shiftLeft]
    exact Nat.pow_le_pow_right (by decide) hdigit

/-- How slots for a number of entries are found: they cover the rounded quotient, and one more where
it is no more than the entries, within the limits. -/
theorem slotsFor_eq_ok_iff {elements : Nat} {loadFactor : Float} {slots : Nat} :
    slotsFor elements loadFactor = .ok slots ↔
      slots = max (powerFrom (if (quotient elements loadFactor).ceilCount = elements
        then (quotient elements loadFactor).ceilCount + 1
        else (quotient elements loadFactor).ceilCount)) leastSlots ∧ slots ≤ mostSlots := by
  unfold slotsFor
  dsimp only
  generalize (quotient elements loadFactor).ceilCount = length
  have hlength : length ≤ if length = elements then length + 1 else length := by
    split <;> omega
  generalize (if length = elements then length + 1 else length) = covered at hlength ⊢
  have hcovers := le_powerFrom covered
  by_cases hlong : mostSlots < length
  · rw [if_pos hlong]
    constructor
    · nofun
    · omega
  · rw [if_neg hlong]
    by_cases hmany : mostSlots < max (powerFrom covered) leastSlots
    · rw [if_pos hmany]
      constructor
      · nofun
      · omega
    · rw [if_neg hmany, Except.ok.injEq]
      omega

/-- The slots for any number of entries are a power of two within the limits, and not fewer than
the rounded quotient says. -/
theorem slotsFor_bounds {elements : Nat} {loadFactor : Float} {slots : Nat}
    (hslots : slotsFor elements loadFactor = .ok slots) :
    slots.isPowerOfTwo ∧ leastSlots ≤ slots ∧ slots ≤ mostSlots ∧
      (quotient elements loadFactor).ceilCount ≤ slots := by
  obtain ⟨hmax, hmost⟩ := slotsFor_eq_ok_iff.1 hslots
  generalize (quotient elements loadFactor).ceilCount = length at hmax ⊢
  have hlength : length ≤ if length = elements then length + 1 else length := by
    split <;> omega
  generalize (if length = elements then length + 1 else length) = covered at hmax hlength
  have hcovers := le_powerFrom covered
  refine ⟨?_, by omega, hmost, by omega⟩
  rw [hmax]
  rcases Nat.le_total (powerFrom covered) leastSlots with hle | hle
  · rw [Nat.max_eq_right hle]
    exact ⟨2, rfl⟩
  · rw [Nat.max_eq_left hle]
    exact powerFrom_isPowerOfTwo covered

theorem Settings.check_eq_ok_iff {settings : Settings} :
    settings.check = .ok () ↔
      (Extended.ofFloat leastLoad).atMost (.ofFloat settings.loadFactor) = true ∧
        (Extended.ofFloat settings.loadFactor).atMost (.ofFloat greatestLoad) = true := by
  rw [← Bool.and_eq_true, Settings.check]
  split <;> simp_all

/-- Accepted load factors are finite and lie between a hundredth and 99 hundredths. -/
theorem Settings.load_of_check {settings : Settings} (hcheck : settings.check = .ok ()) :
    ∃ r, Extended.ofFloat settings.loadFactor = .real r ∧ 1 / 100 ≤ r ∧ r ≤ 99 / 100 := by
  have hleast : Extended.ofFloat leastLoad =
      .real (5764607523034235 / 576460752303423488) := by decide +kernel
  have hgreatest : Extended.ofFloat greatestLoad =
      .real (4458563631096791 / 4503599627370496) := by decide +kernel
  obtain ⟨hlow, hhigh⟩ := Settings.check_eq_ok_iff.1 hcheck
  rw [hleast] at hlow
  rw [hgreatest] at hhigh
  cases hload : Extended.ofFloat settings.loadFactor with
  | nan => simp [hload, Extended.atMost] at hlow
  | infinite negative => cases negative <;> simp [hload, Extended.atMost] at hlow hhigh
  | real r =>
      rw [hload] at hlow hhigh
      simp only [Extended.atMost, decide_eq_true_eq] at hlow hhigh
      refine ⟨r, rfl, le_trans ?_ hlow, hhigh.trans ?_⟩ <;> norm_num

/-- A count within the limit of slots is not cut off, and covers the number that it rounds up. -/
theorem nearest_le_of_ceilCount_le {x : Rat} {slots : Nat} (hnonneg : 0 ≤ nearest x)
    (hcovers : (Extended.rounded x).ceilCount ≤ slots) (hmost : slots ≤ mostSlots) :
    nearest x ≤ slots := by
  unfold mostSlots at hmost
  by_cases hfinite : nearest x < overflowBound
  · rw [rounded_eq_real hnonneg hfinite, Extended.ceilCount] at hcovers
    have hceil : (nearest x).ceil.toNat ≤ slots := by
      unfold greatestCount at hcovers
      omega
    rw [Int.toNat_le, Rat.ceil_le_iff] at hceil
    exact hceil
  · unfold Extended.rounded at hcovers
    dsimp only at hcovers
    rw [if_pos (not_lt.1 hfinite)] at hcovers
    simp only [Extended.ceilCount, Bool.false_eq_true, if_false] at hcovers
    unfold greatestCount at hcovers
    omega

/-- A count that the rounded number reaches is reached by the count that it is cut to. -/
theorem le_ceilCount_rounded {x : Rat} {n : Nat} (hreached : (n : Rat) ≤ nearest x)
    (hsmall : n ≤ greatestCount) : n ≤ (Extended.rounded x).ceilCount := by
  by_cases hfinite : nearest x < overflowBound
  · rw [rounded_eq_real ((Nat.cast_nonneg n).trans hreached) hfinite, Extended.ceilCount,
      Nat.le_min]
    refine ⟨?_, hsmall⟩
    have hceil : (n : Int) ≤ (nearest x).ceil := by exact_mod_cast hreached.trans Rat.le_ceil
    omega
  · unfold Extended.rounded
    dsimp only
    rw [if_pos (not_lt.1 hfinite)]
    exact hsmall

/-- Dividing at least one entry by a load factor leads, however it is rounded, no lower than to the
power of two at the foot of the inverse load factor. -/
theorem two_zpow_binade_le_nearest {elements : Nat} {r : Rat} (hpositive : 0 < r) (hle : r ≤ 1)
    (hsome : 1 ≤ elements) :
    (2 : Rat) ^ binade (1 / r) ≤ nearest (nearest (elements : Rat) / r) := by
  have hinverse : 1 ≤ 1 / r := by
    rw [le_div_iff₀ hpositive]
    linarith
  have hcount : 1 ≤ nearest (elements : Rat) := by
    have hone : Representable 1 := by
      have hpower := representable_two_zpow (show (-1074 : Int) ≤ 0 by omega)
      rwa [zpow_zero] at hpower
    exact hone.le_nearest zero_le_one (by exact_mod_cast hsome)
  have hexact : 1 / r ≤ nearest (elements : Rat) / r :=
    div_le_div_of_nonneg_right hcount (le_of_lt hpositive)
  obtain ⟨hfoot, htop⟩ := binade_bounds (lt_of_lt_of_le one_pos hinverse)
  -- powers of two are kept by rounding as long as they are not below the least double
  have hbinade : (-1074 : Int) ≤ binade (1 / r) := by
    by_contra hlow
    have hsmall : (2 : Rat) ^ (binade (1 / r) + 1) ≤ (2 : Rat) ^ (0 : Int) :=
      zpow_le_zpow_right₀ (by norm_num) (by omega)
    rw [zpow_zero] at hsmall
    linarith
  have hpower : (0 : Rat) < (2 : Rat) ^ binade (1 / r) := by positivity
  exact (representable_two_zpow hbinade).le_nearest (le_of_lt hpower) (hfoot.trans hexact)

/-- An arena for at least one entry begins with more than half a slot to be filled. -/
theorem slotsFor_half {elements : Nat} {loadFactor : Float} {slots : Nat} {r : Rat}
    (hslots : slotsFor elements loadFactor = .ok slots)
    (hload : Extended.ofFloat loadFactor = .real r) (hpositive : 0 < r) (hle : r ≤ 1)
    (hsome : 1 ≤ elements) : 1 / 2 < slots * r := by
  obtain ⟨_, _, hmost, hcovers⟩ := slotsFor_bounds hslots
  rw [quotient_eq hload hpositive] at hcovers
  have hpower : (0 : Rat) < (2 : Rat) ^ binade (1 / r) := by positivity
  have hrounded := two_zpow_binade_le_nearest hpositive hle hsome
  have hcovered := nearest_le_of_ceilCount_le (by linarith) hcovers hmost
  have htop := (binade_bounds (one_div_pos.2 hpositive)).2
  rw [zpow_add₀ (by norm_num), zpow_one, div_lt_iff₀ hpositive] at htop
  have hshare : (2 : Rat) ^ binade (1 / r) * r ≤ slots * r :=
    mul_le_mul_of_nonneg_right (hrounded.trans hcovered) (le_of_lt hpositive)
  linarith

/-- Dividing by a load factor leads, however it is rounded, no lower than to any count that is a
double and does not exceed the number divided. -/
theorem le_nearest_quotient {elements count : Nat} {r : Rat} (hpositive : 0 < r) (hle : r ≤ 1)
    (hdigits : count < 2 * hiddenBit) (hbelow : count ≤ elements) :
    (count : Rat) ≤ nearest (nearest (elements : Rat) / r) := by
  have hcount := representable_natCast hdigits
  have hnonneg : (0 : Rat) ≤ count := Nat.cast_nonneg count
  have hrounded : (count : Rat) ≤ nearest elements :=
    hcount.le_nearest hnonneg (by exact_mod_cast hbelow)
  apply hcount.le_nearest hnonneg
  rw [le_div_iff₀ hpositive]
  calc (count : Rat) * r ≤ count * 1 := mul_le_mul_of_nonneg_left hle hnonneg
    _ = count := mul_one _
    _ ≤ nearest elements := hrounded

theorem le_ceilCount_quotient {elements : Nat} {loadFactor : Float} {r : Rat}
    (hload : Extended.ofFloat loadFactor = .real r) (hpositive : 0 < r) (hle : r ≤ 1)
    (hwithin : (quotient elements loadFactor).ceilCount ≤ mostSlots) :
    elements ≤ (quotient elements loadFactor).ceilCount := by
  rw [quotient_eq hload hpositive] at hwithin ⊢
  -- for more entries than the limit the quotient, rounded or cut off, is too great as well
  have hfew : elements ≤ mostSlots := by
    by_contra hmany
    have hreached := le_nearest_quotient hpositive hle
      (show mostSlots + 1 < 2 * hiddenBit by decide) (Nat.not_le.1 hmany)
    have hover := le_ceilCount_rounded hreached (by decide)
    omega
  have hreached : (elements : Rat) ≤ nearest (nearest (elements : Rat) / r) :=
    le_nearest_quotient hpositive hle (Nat.lt_of_le_of_lt hfew (by decide)) (Nat.le_refl _)
  exact le_ceilCount_rounded hreached (Nat.le_trans hfew (by decide))

theorem lt_of_slotsFor {elements : Nat} {loadFactor : Float} {slots : Nat} {r : Rat}
    (hslots : slotsFor elements loadFactor = .ok slots)
    (hload : Extended.ofFloat loadFactor = .real r) (hpositive : 0 < r) (hle : r ≤ 1) :
    elements < slots := by
  obtain ⟨hmax, hmost⟩ := slotsFor_eq_ok_iff.1 hslots
  obtain ⟨_, _, _, hlength⟩ := slotsFor_bounds hslots
  have hcovered := le_ceilCount_quotient hload hpositive hle (hlength.trans hmost)
  generalize (quotient elements loadFactor).ceilCount = length at hmax hcovered
  have hbump : elements < if length = elements then length + 1 else length := by
    split <;> omega
  have hcovers := le_powerFrom (if length = elements then length + 1 else length)
  omega

theorem le_ceilCount_of_le_div {elements count : Nat} {loadFactor : Float} {r : Rat}
    (hload : Extended.ofFloat loadFactor = .real r) (hpositive : 0 < r)
    (hfew : elements < 2 * hiddenBit) (hdigits : count < 2 * hiddenBit)
    (hreached : (count : Rat) ≤ elements / r) :
    count ≤ (quotient elements loadFactor).ceilCount := by
  have hexact : nearest (elements : Rat) = elements :=
    (representable_natCast hfew).nearest_eq (Nat.cast_nonneg _)
  have hrounded := (representable_natCast hdigits).le_nearest (Nat.cast_nonneg _) hreached
  rw [quotient_eq hload hpositive, hexact]
  exact le_ceilCount_rounded hrounded (Nat.le_trans (Nat.le_of_lt hdigits) (by decide))

/-- The slots for a number of entries have a threshold that the entries do not pass: where the share
of the slots to be filled fell short of the entries by one, the quotient would exceed the slots by
one, and no rounding would make up for that. -/
theorem le_threshold_of_slotsFor {elements : Nat} {loadFactor : Float} {slots : Nat} {r : Rat}
    (hslots : slotsFor elements loadFactor = .ok slots)
    (hload : Extended.ofFloat loadFactor = .real r) (hpositive : 0 < r) (hle : r ≤ 1) :
    elements ≤ threshold slots loadFactor := by
  obtain ⟨hpower, _, hmost, hcovers⟩ := slotsFor_bounds hslots
  have hlast := lt_of_slotsFor hslots hload hpositive hle
  rcases Nat.eq_zero_or_pos elements with hnone | hsome
  · omega
  · have hbelow : elements - 1 < threshold slots loadFactor := by
      unfold mostSlots at hmost
      rw [lt_threshold_iff hload hpositive hle hpower (by omega)]
      refine ⟨?_, by omega⟩
      by_contra hshort
      have hcast : ((elements - 1 : Nat) : Rat) = (elements : Rat) - 1 := by
        rw [Nat.cast_sub hsome, Nat.cast_one]
      have hquotient : ((slots + 1 : Nat) : Rat) ≤ elements / r := by
        rw [le_div_iff₀ hpositive, Nat.cast_add_one, add_mul, one_mul]
        rw [hcast] at hshort
        linarith
      have hover := le_ceilCount_of_le_div hload hpositive (by unfold hiddenBit; omega)
        (by unfold hiddenBit; omega) hquotient
      omega
    omega

theorem slotsFor_zero {loadFactor : Float} {r : Rat}
    (hload : Extended.ofFloat loadFactor = .real r) (hpositive : 0 < r) :
    slotsFor 0 loadFactor = .ok leastSlots := by
  have hzero : nearest 0 = 0 := by
    rw [nearest, if_neg (lt_irrefl 0), nearestMagnitude, if_pos rfl]
  have hbound : nearest 0 < overflowBound := by
    rw [hzero]
    exact lt_trans (by positivity) two_pow_lt_overflowBound
  have hquotient : quotient 0 loadFactor = .real 0 := by
    rw [quotient_eq hload hpositive, Nat.cast_zero, hzero, zero_div,
      rounded_eq_real (le_of_eq hzero.symm) hbound, hzero]
  rw [slotsFor_eq_ok_iff, hquotient]
  decide +kernel

end KeyedArena
