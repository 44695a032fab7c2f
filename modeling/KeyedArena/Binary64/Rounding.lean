import KeyedArena.Binary64.Reading
/-!
Rounding to the nearest double, and the two operations on doubles that sizing needs.

A quotient or product of doubles is the exact one, rounded once.  Doubles near `x` are the
multiples of a unit that depends on the binade of `x`, so rounding is choosing the nearest
multiple, the even one of two that are equally near.
-/

namespace KeyedArena

/-- The nearest integer, and the even one of two that are equally near. -/
def roundEven (x : Rat) : Int :=
  let below := x.floor
  let rest := x - (below : Rat)
  if rest < 1 / 2 then below
  else if 1 / 2 < rest then below + 1
  else below + below % 2

/-- The binade of a positive rational: the greatest `k` for which `2 ^ k ≤ x`. -/
def binade (x : Rat) : Int :=
  let estimate : Int := (Nat.log2 x.num.natAbs : Int) - (Nat.log2 x.den : Int)
  if (2 : Rat) ^ estimate ≤ x then estimate else estimate - 1

/-- The distance of neighbouring doubles at a magnitude: 53 binary digits, but never finer than
the least double. -/
def unitExponent (x : Rat) : Int := max (-1074) (binade x - 52)

/-- The double nearest to a nonnegative rational, as if exponents had no upper end. -/
def nearestMagnitude (x : Rat) : Rat :=
  if x = 0 then 0
  else (roundEven (x / (2 : Rat) ^ unitExponent x) : Rat) * (2 : Rat) ^ unitExponent x

def nearest (x : Rat) : Rat :=
  if x < 0 then -nearestMagnitude (-x) else nearestMagnitude x

/-- Magnitudes from here on round to an infinity. -/
def overflowBound : Rat := (2 : Rat) ^ (1024 : Nat)

def Extended.rounded (x : Rat) : Extended :=
  let r := nearest x
  if overflowBound ≤ r then .infinite false
  else if r ≤ -overflowBound then .infinite true
  else .real r

/-- A count divided by a double.  The count is rounded to a double first.  Division by a zero gives
an infinity of its sign, except that zero by zero is no number. -/
def quotient (count : Nat) (divisor : Float) : Extended :=
  match Reading.ofFloat divisor with
  | .nan => .nan
  | .infinite _ => .real 0
  | .finite negative significand exponent =>
      if significand = 0 then
        if count = 0 then .nan else .infinite negative
      else .rounded (nearest count / withSign negative (magnitude significand exponent))

/-- A count times a double.  The count is rounded to a double first.  Zero times an infinity is no
number. -/
def product (count : Nat) (factor : Float) : Extended :=
  match Reading.ofFloat factor with
  | .nan => .nan
  | .infinite negative => if count = 0 then .nan else .infinite negative
  | .finite negative significand exponent =>
      .rounded (nearest count * withSign negative (magnitude significand exponent))

/-- The greatest count that a 64-bit word holds. -/
def greatestCount : Nat := 18446744073709551615

/-- The least count that is not below a point of the extended line, brought into the range of a
word: negative points and non-numbers give 0, those beyond the range its greatest count. -/
def Extended.ceilCount : Extended → Nat
  | nan => 0
  | infinite negative => if negative then 0 else greatestCount
  | real r => min r.ceil.toNat greatestCount

theorem roundEven_intCast (k : Int) : roundEven (k : Rat) = k := by
  have half : (0 : Rat) < 1 / 2 := by decide +kernel
  simp only [roundEven, Rat.floor_intCast, Rat.sub_self, if_pos half]

end KeyedArena
