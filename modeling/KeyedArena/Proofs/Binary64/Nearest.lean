import KeyedArena.Binary64.Rounding
import Mathlib.Algebra.Order.Field.Power
import Mathlib.Algebra.Order.Ring.Abs
import Mathlib.Data.Rat.Cast.Order
import Mathlib.Data.Rat.Floor
import Mathlib.Tactic.FieldSimp
import Mathlib.Tactic.Linarith
import Mathlib.Tactic.NormNum
import Mathlib.Tactic.Positivity
import Mathlib.Tactic.Ring
/-!
Rounding to the nearest double.

Two facts about rounding suffice for sizing: it does not move doubles, and it keeps the order.
Together they bound a rounded number by every double on either side of the exact one.  That it is
rounding at all, to the nearest double and to the even one of two, is shown at the end.
-/

namespace KeyedArena

/-- The rationals that are finite doubles, as if exponents had no upper end: at most 53 binary
digits, and none below the least double. -/
def Representable (x : Rat) : Prop :=
  ∃ (significand : Nat) (exponent : Int), significand < 2 * hiddenBit ∧ -1074 ≤ exponent ∧
    x = magnitude significand exponent

theorem roundEven_bounds (x : Rat) : x.floor ≤ roundEven x ∧ roundEven x ≤ x.floor + 1 := by
  unfold roundEven
  dsimp only
  split
  · omega
  · split <;> omega

theorem roundEven_mono {x y : Rat} (hle : x ≤ y) : roundEven x ≤ roundEven y := by
  have hfloor := Rat.floor_monotone hle
  rcases Int.lt_or_eq_of_le hfloor with hlt | heq
  · have hx := (roundEven_bounds x).2
    have hy := (roundEven_bounds y).1
    omega
  · have hrest : x - (x.floor : Rat) ≤ y - (y.floor : Rat) := by
      rw [heq]
      linarith
    unfold roundEven
    dsimp only
    rw [← heq] at hrest ⊢
    have hparity : 0 ≤ x.floor % 2 ∧ x.floor % 2 ≤ 1 := by omega
    by_cases hdown : x - (x.floor : Rat) < 1 / 2
    · rw [if_pos hdown]
      split
      · exact Int.le_refl _
      · split <;> omega
    · have hyNot : ¬ y - (x.floor : Rat) < 1 / 2 := by linarith
      rw [if_neg hdown, if_neg hyNot]
      by_cases hup : 1 / 2 < x - (x.floor : Rat)
      · have hyUp : 1 / 2 < y - (x.floor : Rat) := by linarith
        rw [if_pos hup, if_pos hyUp]
      · rw [if_neg hup]
        split <;> omega

/-- The binade of a positive rational is where its leading binary digit stands. -/
theorem binade_bounds {x : Rat} (hx : 0 < x) :
    (2 : Rat) ^ binade x ≤ x ∧ x < (2 : Rat) ^ (binade x + 1) := by
  have htwo : (2 : Rat) ≠ 0 := by norm_num
  have hnum : 0 < x.num := Rat.num_pos.2 hx
  have hvalue : x = (x.num.natAbs : Rat) / (x.den : Rat) := by
    have hcast : ((x.num.natAbs : Int) : Rat) = (x.num : Rat) := by
      rw [Int.natAbs_of_nonneg (Int.le_of_lt hnum)]
    rw [← Int.cast_natCast x.num.natAbs, hcast, Rat.num_div_den]
  have hden : (0 : Rat) < x.den := by exact_mod_cast x.den_pos
  have hnumLow : (2 : Rat) ^ (Nat.log2 x.num.natAbs : Int) ≤ (x.num.natAbs : Rat) := by
    rw [zpow_natCast]
    exact_mod_cast Nat.log2_self_le (by omega)
  have hnumHigh : (x.num.natAbs : Rat) < (2 : Rat) ^ ((Nat.log2 x.num.natAbs : Int) + 1) := by
    rw [← Nat.cast_add_one, zpow_natCast]
    exact_mod_cast Nat.lt_log2_self
  have hdenLow : (2 : Rat) ^ (Nat.log2 x.den : Int) ≤ (x.den : Rat) := by
    rw [zpow_natCast]
    exact_mod_cast Nat.log2_self_le x.den_ne_zero
  have hdenHigh : (x.den : Rat) < (2 : Rat) ^ ((Nat.log2 x.den : Int) + 1) := by
    rw [← Nat.cast_add_one, zpow_natCast]
    exact_mod_cast Nat.lt_log2_self
  -- the estimate is the binade or the one above it
  have hlow : (2 : Rat) ^ ((Nat.log2 x.num.natAbs : Int) - (Nat.log2 x.den : Int) - 1) ≤ x := by
    rw [sub_sub, zpow_sub₀ htwo]
    conv_rhs => rw [hvalue]
    exact div_le_div₀ (by positivity) hnumLow hden (le_of_lt hdenHigh)
  have hhigh : x < (2 : Rat) ^ ((Nat.log2 x.num.natAbs : Int) - (Nat.log2 x.den : Int) + 1) := by
    rw [sub_add_eq_add_sub, zpow_sub₀ htwo]
    conv_lhs => rw [hvalue]
    exact div_lt_div₀ hnumHigh hdenLow (by positivity) (by positivity)
  unfold binade
  dsimp only
  split
  · rename_i hestimate
    exact ⟨hestimate, hhigh⟩
  · rename_i hestimate
    rw [sub_add_cancel]
    exact ⟨hlow, lt_of_not_ge hestimate⟩

theorem binade_mono {x y : Rat} (hx : 0 < x) (hle : x ≤ y) : binade x ≤ binade y := by
  have hlow := (binade_bounds hx).1
  have hhigh := (binade_bounds (lt_of_lt_of_le hx hle)).2
  have hpower : (2 : Rat) ^ binade x < (2 : Rat) ^ (binade y + 1) :=
    lt_of_le_of_lt (hlow.trans hle) hhigh
  have hexponents := (zpow_lt_zpow_iff_right₀ (by norm_num : (1 : Rat) < 2)).1 hpower
  omega

/-- A power of two from the foot of the unit's grid on is a whole number of units. -/
theorem two_zpow_eq_mul {low high : Int} (hle : low ≤ high) :
    (2 : Rat) ^ high = (((2 : Int) ^ (high - low).toNat : Int) : Rat) * (2 : Rat) ^ low := by
  have hsplit : high = ((high - low).toNat : Int) + low := by omega
  conv_lhs => rw [hsplit, zpow_add₀ (by norm_num), zpow_natCast]
  push_cast
  rfl

theorem nearestMagnitude_of_representable {x : Rat} (hx : Representable x) :
    nearestMagnitude x = x := by
  obtain ⟨significand, exponent, hdigits, hleast, hvalue⟩ := hx
  unfold nearestMagnitude
  split
  · rename_i hzero
    exact hzero.symm
  · rename_i hne
    have hpower : (0 : Rat) < (2 : Rat) ^ exponent := by positivity
    have hsignificand : (0 : Rat) < significand := by
      rcases Nat.eq_zero_or_pos significand with hzero | hpos
      · rw [hzero] at hvalue
        exact absurd (by simpa [magnitude] using hvalue) hne
      · exact_mod_cast hpos
    have hpositive : 0 < x := by
      rw [hvalue, magnitude]
      positivity
    -- the unit at `x` divides the last digit of the significand
    have hunit : unitExponent x ≤ exponent := by
      have hbound : (significand : Rat) < (2 : Rat) ^ (53 : Int) := by
        have hcast : (significand : Rat) < ((2 * hiddenBit : Nat) : Rat) := by
          exact_mod_cast hdigits
        have hpow : ((2 * hiddenBit : Nat) : Rat) = (2 : Rat) ^ (53 : Int) := by
          norm_num [hiddenBit]
        rwa [hpow] at hcast
      have hbelow : (2 : Rat) ^ binade x < (2 : Rat) ^ (53 + exponent) := by
        rw [zpow_add₀ (by norm_num)]
        calc (2 : Rat) ^ binade x ≤ x := (binade_bounds hpositive).1
          _ = significand * (2 : Rat) ^ exponent := hvalue
          _ < (2 : Rat) ^ (53 : Int) * (2 : Rat) ^ exponent :=
            mul_lt_mul_of_pos_right hbound hpower
      have hbinade := (zpow_lt_zpow_iff_right₀ (by norm_num : (1 : Rat) < 2)).1 hbelow
      unfold unitExponent
      omega
    have hunitPower : (0 : Rat) < (2 : Rat) ^ unitExponent x := by positivity
    have hmultiple :
        x = (((significand : Int) * 2 ^ (exponent - unitExponent x).toNat : Int) : Rat) *
          (2 : Rat) ^ unitExponent x := by
      conv_lhs => rw [hvalue, magnitude, two_zpow_eq_mul hunit]
      push_cast
      ring
    have hwhole : x / (2 : Rat) ^ unitExponent x =
        (((significand : Int) * 2 ^ (exponent - unitExponent x).toNat : Int) : Rat) := by
      rw [div_eq_iff (ne_of_gt hunitPower)]
      exact hmultiple
    rw [hwhole, roundEven_intCast]
    exact hmultiple.symm

theorem nearestMagnitude_nonneg {x : Rat} (hx : 0 ≤ x) : 0 ≤ nearestMagnitude x := by
  unfold nearestMagnitude
  split
  · exact le_refl _
  · have hunitPower : (0 : Rat) < (2 : Rat) ^ unitExponent x := by positivity
    have hround := roundEven_mono (x := ((0 : Int) : Rat)) (div_nonneg hx (le_of_lt hunitPower))
    rw [roundEven_intCast] at hround
    have hcast : (0 : Rat) ≤ (roundEven (x / (2 : Rat) ^ unitExponent x) : Rat) := by
      exact_mod_cast hround
    positivity

/-- Rounding keeps the order: within one unit because rounding to integers does, and otherwise
because the power of two at the foot of the larger binade lies in between. -/
theorem nearestMagnitude_mono {x y : Rat} (hx : 0 ≤ x) (hle : x ≤ y) :
    nearestMagnitude x ≤ nearestMagnitude y := by
  rcases eq_or_lt_of_le hx with hzero | hpositive
  · rw [← hzero, nearestMagnitude, if_pos rfl]
    exact nearestMagnitude_nonneg (hx.trans hle)
  · have hy : 0 < y := lt_of_lt_of_le hpositive hle
    have hunits : unitExponent x ≤ unitExponent y := by
      have hbinades := binade_mono hpositive hle
      unfold unitExponent
      omega
    have hxPower : (0 : Rat) < (2 : Rat) ^ unitExponent x := by positivity
    have hyPower : (0 : Rat) < (2 : Rat) ^ unitExponent y := by positivity
    rw [nearestMagnitude, if_neg (ne_of_gt hpositive), nearestMagnitude, if_neg (ne_of_gt hy)]
    rcases Int.lt_or_eq_of_le hunits with hlt | heq
    · have hfoot : unitExponent y = binade y - 52 := by
        unfold unitExponent at hlt ⊢
        omega
      have hxFoot : unitExponent x ≤ binade y ∧ binade x + 1 ≤ binade y := by
        unfold unitExponent at hlt ⊢
        omega
      have hbelow : x ≤ (2 : Rat) ^ binade y := by
        have hnext := (binade_bounds hpositive).2
        have hpower : (2 : Rat) ^ (binade x + 1) ≤ (2 : Rat) ^ binade y :=
          zpow_le_zpow_right₀ (by norm_num) hxFoot.2
        exact le_of_lt (lt_of_lt_of_le hnext hpower)
      have habove := (binade_bounds hy).1
      have hlower : (roundEven (x / (2 : Rat) ^ unitExponent x) : Rat) *
          (2 : Rat) ^ unitExponent x ≤ (2 : Rat) ^ binade y := by
        rw [two_zpow_eq_mul hxFoot.1] at hbelow ⊢
        have hround := roundEven_mono ((div_le_iff₀ hxPower).2 hbelow)
        rw [roundEven_intCast] at hround
        exact mul_le_mul_of_nonneg_right (by exact_mod_cast hround) (le_of_lt hxPower)
      have hupper : (2 : Rat) ^ binade y ≤ (roundEven (y / (2 : Rat) ^ unitExponent y) : Rat) *
          (2 : Rat) ^ unitExponent y := by
        rw [two_zpow_eq_mul (show unitExponent y ≤ binade y by omega)] at habove ⊢
        have hround := roundEven_mono ((le_div_iff₀ hyPower).2 habove)
        rw [roundEven_intCast] at hround
        exact mul_le_mul_of_nonneg_right (by exact_mod_cast hround) (le_of_lt hyPower)
      exact hlower.trans hupper
    · rw [heq]
      have hround := roundEven_mono (div_le_div_of_nonneg_right hle (le_of_lt hyPower))
      exact mul_le_mul_of_nonneg_right (by exact_mod_cast hround) (le_of_lt hyPower)

theorem nearest_of_nonneg {x : Rat} (hx : 0 ≤ x) : nearest x = nearestMagnitude x := by
  rw [nearest, if_neg (not_lt.2 hx)]

theorem Representable.le_nearest {x y : Rat} (hx : Representable x) (hnonneg : 0 ≤ x)
    (hle : x ≤ y) : x ≤ nearest y := by
  rw [nearest_of_nonneg (hnonneg.trans hle), ← nearestMagnitude_of_representable hx]
  exact nearestMagnitude_mono hnonneg hle

theorem Representable.nearest_eq {x : Rat} (hx : Representable x) (hnonneg : 0 ≤ x) :
    nearest x = x := by
  rw [nearest_of_nonneg hnonneg, nearestMagnitude_of_representable hx]

theorem representable_two_zpow {exponent : Int} (hleast : -1074 ≤ exponent) :
    Representable ((2 : Rat) ^ exponent) :=
  ⟨1, exponent, by decide, hleast, by rw [magnitude, Nat.cast_one, one_mul]⟩

theorem representable_natCast {n : Nat} (hdigits : n < 2 * hiddenBit) : Representable (n : Rat) :=
  ⟨n, 0, hdigits, by decide, by rw [magnitude, zpow_zero, mul_one]⟩

theorem Representable.mul_two_pow {x : Rat} (hx : Representable x) (n : Nat) :
    Representable ((2 : Rat) ^ n * x) := by
  obtain ⟨significand, exponent, hdigits, hleast, hvalue⟩ := hx
  refine ⟨significand, n + exponent, hdigits, by omega, ?_⟩
  rw [hvalue, magnitude, magnitude, zpow_add₀ (by norm_num), zpow_natCast]
  ring

/-- Rounding to integers moves a number by half at most, and by half only to an even one. -/
theorem abs_roundEven_sub_le (x : Rat) : |(roundEven x : Rat) - x| ≤ 1 / 2 ∧
    (|(roundEven x : Rat) - x| = 1 / 2 → Even (roundEven x)) := by
  have hlow : (x.floor : Rat) ≤ x := Int.floor_le x
  have hhigh : x < x.floor + 1 := Int.lt_floor_add_one x
  have hparity : x.floor % 2 = 0 ∨ x.floor % 2 = 1 := by omega
  unfold roundEven
  dsimp only
  split
  · rename_i hdown
    rw [abs_sub_comm, abs_of_nonneg (by linarith)]
    exact ⟨by linarith, fun hhalf => absurd hhalf (by linarith)⟩
  · rename_i hdown
    split
    · rename_i hup
      push_cast
      rw [abs_of_nonneg (by linarith)]
      exact ⟨by linarith, fun hhalf => absurd hhalf (by linarith)⟩
    · rename_i hup
      refine ⟨?_, fun _ => ⟨(x.floor + x.floor % 2) / 2, by omega⟩⟩
      rcases hparity with heven | hodd
      · rw [heven, add_zero, abs_le]
        constructor <;> linarith
      · rw [hodd, abs_le]
        push_cast
        constructor <;> linarith

/-- No integer is nearer to a number than its rounding, and if another one is as near, the rounding
is even. -/
theorem roundEven_nearest (x : Rat) (k : Int) : |(roundEven x : Rat) - x| ≤ |(k : Rat) - x| ∧
    (|(roundEven x : Rat) - x| = |(k : Rat) - x| → k ≠ roundEven x → Even (roundEven x)) := by
  obtain ⟨hclose, heven⟩ := abs_roundEven_sub_le x
  by_cases hsame : k = roundEven x
  · exact ⟨hsame ▸ le_refl _, fun _ hne => absurd hsame hne⟩
  · have happart : (1 : Rat) ≤ |(k : Rat) - roundEven x| := by
      exact_mod_cast Int.one_le_abs (sub_ne_zero.2 hsame)
    have hsplit : |(k : Rat) - roundEven x| ≤ |(k : Rat) - x| + |(roundEven x : Rat) - x| := by
      rw [abs_sub_comm (roundEven x : Rat)]
      exact abs_sub_le _ _ _
    exact ⟨by linarith, fun hequal _ => heven (by linarith)⟩

/-- A double is a whole number of the units at `x`, unless it lies below the binade of `x`. -/
theorem Representable.units {y : Rat} (hy : Representable y) (x : Rat) :
    (∃ count : Int, y = count * (2 : Rat) ^ unitExponent x) ∨
      (y < (2 : Rat) ^ binade x ∧ unitExponent x ≤ binade x) := by
  obtain ⟨significand, exponent, hdigits, hleast, hvalue⟩ := hy
  rcases lt_or_ge exponent (unitExponent x) with hfine | hcoarse
  · have hunit : unitExponent x = binade x - 52 := by
      unfold unitExponent at hfine ⊢
      omega
    refine .inr ⟨?_, by omega⟩
    have hbound : (significand : Rat) < (2 : Rat) ^ (53 : Int) := by
      exact_mod_cast hdigits
    calc y = significand * (2 : Rat) ^ exponent := hvalue
      _ < (2 : Rat) ^ (53 : Int) * (2 : Rat) ^ exponent :=
        mul_lt_mul_of_pos_right hbound (by positivity)
      _ = (2 : Rat) ^ (53 + exponent) := (zpow_add₀ (by norm_num) _ _).symm
      _ ≤ (2 : Rat) ^ binade x := zpow_le_zpow_right₀ (by norm_num) (by omega)
  · refine .inl ⟨significand * 2 ^ (exponent - unitExponent x).toNat, ?_⟩
    rw [hvalue, magnitude, two_zpow_eq_mul hcoarse]
    push_cast
    ring

/-- A double that is nearest to `x`, and has an even significand if another one is as near. -/
structure NearestEven (x rounding : Rat) : Prop where
  representable : Representable rounding
  nearest : ∀ y, Representable y → |rounding - x| ≤ |y - x|
  even : ∀ y, Representable y → |rounding - x| = |y - x| → y ≠ rounding →
    ∃ significand : Int, Even significand ∧ rounding = significand * (2 : Rat) ^ unitExponent x

theorem representable_nearestMagnitude {x : Rat} (hx : 0 < x) :
    Representable (nearestMagnitude x) := by
  have hpower : (0 : Rat) < (2 : Rat) ^ unitExponent x := by positivity
  have hhigh := (binade_bounds hx).2
  have hleast : -1074 ≤ unitExponent x ∧ binade x + 1 ≤ 53 + unitExponent x := by
    unfold unitExponent
    omega
  -- the significand has 53 binary digits, or it is the next power of two
  have hbelow : x / (2 : Rat) ^ unitExponent x ≤ ((2 ^ 53 : Int) : Rat) := by
    rw [div_le_iff₀ hpower]
    calc x ≤ (2 : Rat) ^ (binade x + 1) := hhigh.le
      _ ≤ (2 : Rat) ^ (53 + unitExponent x) := zpow_le_zpow_right₀ (by norm_num) hleast.2
      _ = ((2 ^ 53 : Int) : Rat) * (2 : Rat) ^ unitExponent x := by
        rw [zpow_add₀ (by norm_num)]
        norm_num
  have hmost := roundEven_mono hbelow
  rw [roundEven_intCast] at hmost
  have habove := roundEven_mono (x := ((0 : Int) : Rat)) (div_nonneg hx.le hpower.le)
  rw [roundEven_intCast] at habove
  rw [nearestMagnitude, if_neg hx.ne']
  rcases Int.lt_or_eq_of_le hmost with hless | hcarry
  · refine ⟨(roundEven (x / (2 : Rat) ^ unitExponent x)).toNat, unitExponent x, ?_, hleast.1, ?_⟩
    · rw [hiddenBit]
      omega
    · rw [magnitude, ← Int.cast_natCast, Int.toNat_of_nonneg habove]
  · rw [hcarry]
    have hpowerOfTwo : ((2 ^ 53 : Int) : Rat) * (2 : Rat) ^ unitExponent x =
        (2 : Rat) ^ (53 + unitExponent x) := by
      rw [zpow_add₀ (by norm_num)]
      norm_num
    rw [hpowerOfTwo]
    exact representable_two_zpow (by omega)

/-- A positive number is rounded to the nearest double. -/
theorem nearestEven_nearest {x : Rat} (hx : 0 < x) : NearestEven x (nearest x) := by
  rw [nearest_of_nonneg hx.le]
  have hpower : (0 : Rat) < (2 : Rat) ^ unitExponent x := by positivity
  have hrounding : nearestMagnitude x =
      (roundEven (x / (2 : Rat) ^ unitExponent x) : Rat) * (2 : Rat) ^ unitExponent x := by
    rw [nearestMagnitude, if_neg hx.ne']
  -- distances from `x` in units
  have hscale : ∀ count : Int, |(count : Rat) * (2 : Rat) ^ unitExponent x - x| =
      |(count : Rat) - x / (2 : Rat) ^ unitExponent x| * (2 : Rat) ^ unitExponent x := by
    intro count
    conv_rhs => rw [← abs_of_pos hpower, ← abs_mul, abs_of_pos hpower, sub_mul,
      div_mul_cancel₀ _ hpower.ne']
  have hunits : ∀ count : Int, |nearestMagnitude x - x| ≤
      |(count : Rat) * (2 : Rat) ^ unitExponent x - x| := by
    intro count
    rw [hrounding, hscale, hscale]
    exact mul_le_mul_of_nonneg_right (roundEven_nearest _ count).1 hpower.le
  -- below the binade of `x` every double is farther from `x` than the foot of the binade
  have hbelow : ∀ y : Rat, y < (2 : Rat) ^ binade x → unitExponent x ≤ binade x →
      |nearestMagnitude x - x| < |y - x| := by
    intro y hy hunit
    have hfoot := (binade_bounds hx).1
    refine lt_of_le_of_lt (hunits (2 ^ (binade x - unitExponent x).toNat)) ?_
    rw [← two_zpow_eq_mul hunit, abs_of_nonpos (by linarith), abs_of_neg (by linarith)]
    linarith
  constructor
  case representable => exact representable_nearestMagnitude hx
  case nearest =>
    intro y hy
    rcases hy.units x with ⟨count, rfl⟩ | ⟨hlow, hunit⟩
    · exact hunits count
    · exact (hbelow y hlow hunit).le
  case even =>
    intro y hy hequal hne
    rcases hy.units x with ⟨count, rfl⟩ | ⟨hlow, hunit⟩
    · rw [hrounding, hscale, hscale] at hequal
      have hcount : count ≠ roundEven (x / (2 : Rat) ^ unitExponent x) := by
        rintro rfl
        exact hne hrounding.symm
      have heven := (roundEven_nearest _ count).2 (mul_right_cancel₀ hpower.ne' hequal) hcount
      exact ⟨_, heven, hrounding⟩
    · exact absurd hequal (hbelow y hlow hunit).ne

end KeyedArena
