/-!
Doubles read exactly.

A double is a sign with a rational magnitude, an infinity, or no number.  Everything that the
arena decides about load factors is decided on this reading, in rational arithmetic.
-/

namespace KeyedArena

/-- What a double stands for.  A finite one is its significand times a power of two; the sign is
kept apart because zero has one too. -/
inductive Reading where
  | nan
  | infinite (negative : Bool)
  | finite (negative : Bool) (significand : Nat) (exponent : Int)
deriving DecidableEq, Repr

/-- The weight of the bit above the fraction, 2^52.  Significands of the least exponent lack it. -/
def hiddenBit : Nat := 0x10000000000000

/-- Reads the fields of a bit pattern: one sign bit, eleven exponent bits, 52 fraction bits.  The
least exponent has no hidden bit, the greatest marks infinities and non-numbers. -/
def Reading.ofBits (bits : UInt64) : Reading :=
  let negative := decide (0x8000000000000000 ≤ bits.toNat)
  let exponent : Nat := bits.toNat / hiddenBit % 2048
  let fraction : Nat := bits.toNat % hiddenBit
  if exponent = 2047 then
    if fraction = 0 then .infinite negative else .nan
  else if exponent = 0 then .finite negative fraction (-1074)
  else .finite negative (hiddenBit + fraction) ((exponent : Int) - 1075)

def Reading.ofFloat (x : Float) : Reading := ofBits x.toBits

def magnitude (significand : Nat) (exponent : Int) : Rat :=
  (significand : Rat) * (2 : Rat) ^ exponent

def withSign (negative : Bool) (r : Rat) : Rat := if negative then -r else r

/-- The rational line with its two ends and a mark for results that are no number. -/
inductive Extended where
  | nan
  | infinite (negative : Bool)
  | real (r : Rat)
deriving DecidableEq, Repr

/-- The point of the extended line at a reading.  The sign of zero is lost. -/
def Reading.extended : Reading → Extended
  | nan => .nan
  | infinite negative => .infinite negative
  | finite negative significand exponent =>
      .real (withSign negative (magnitude significand exponent))

def Extended.ofFloat (x : Float) : Extended := (Reading.ofFloat x).extended

/-- The order of the extended line.  What is no number stands in no order to anything. -/
def Extended.atMost : Extended → Extended → Bool
  | nan, _ => false
  | _, nan => false
  | infinite true, _ => true
  | _, infinite false => true
  | real left, real right => decide (left ≤ right)
  | _, _ => false

end KeyedArena
