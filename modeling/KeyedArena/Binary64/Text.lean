import KeyedArena.Binary64.Rounding
/-!
Doubles as text.

There are two forms: the shortest decimal that reads back as the same double, and a decimal with
two places.  Neither ever has an exponent.
-/

namespace KeyedArena

/-- A decimal with finitely many digits: a whole number times a power of ten. -/
structure Decimal where
  digits : Nat
  exponent : Int
deriving DecidableEq, Repr

def Decimal.value (d : Decimal) : Rat := (d.digits : Rat) * (10 : Rat) ^ d.exponent

/-- Writes a decimal out in place notation: no exponent, no zeros at the end of a fraction, and no
point without a fraction. -/
def Decimal.text (d : Decimal) : String :=
  let written := Nat.toDigits 10 d.digits
  let places := (-d.exponent).toNat
  let padded := List.replicate (places + 1 - written.length) '0' ++ written
    ++ List.replicate d.exponent.toNat '0'
  let whole := padded.take (padded.length - places)
  let fraction := (padded.drop (padded.length - places)).reverse.dropWhile (· = '0') |>.reverse
  String.ofList (if fraction.isEmpty then whole else whole ++ '.' :: fraction)

/-- The rationals that round to one positive double: from half a unit below to half a unit above. -/
structure Basin where
  centre : Rat
  low : Rat
  high : Rat
  closed : Bool

/-- The basin of a positive double.  Its ends belong to it if the significand is even, because ties
go to the even neighbour.  At the foot of a binade the unit below is half as large. -/
def Basin.of (significand : Nat) (exponent : Int) : Basin :=
  let half := (2 : Rat) ^ (exponent - 1)
  let centre := magnitude significand exponent
  let foot := decide (significand = hiddenBit ∧ -1074 < exponent)
  { centre
    low := if foot then centre - half / 2 else centre - half
    high := centre + half
    closed := significand % 2 = 0 }

def Basin.holds (b : Basin) (r : Rat) : Bool :=
  if b.closed then decide (b.low ≤ r ∧ r ≤ b.high) else decide (b.low < r ∧ r < b.high)

/-- The multiple of `10 ^ exponent` in the basin that is nearest to its centre.  Of two that are
equally near it is the greater. -/
def Basin.onGrid? (b : Basin) (exponent : Int) : Option Decimal :=
  let below : Decimal := ⟨(b.centre / (10 : Rat) ^ exponent).floor.toNat, exponent⟩
  let above : Decimal := ⟨below.digits + 1, exponent⟩
  match b.holds below.value, b.holds above.value with
  | true, true =>
      some (if b.centre - below.value < above.value - b.centre then below else above)
  | true, false => some below
  | false, true => some above
  | false, false => none

/-- The decade of a positive rational: the least `k` for which `x < 10 ^ k`. -/
def decade (x : Rat) : Int :=
  let estimate : Int :=
    ((Nat.toDigits 10 x.num.natAbs).length : Int) - ((Nat.toDigits 10 x.den).length : Int)
  if x < (10 : Rat) ^ estimate then estimate else estimate + 1

/-- The decimal in the basin with the fewest digits.  Seventeen digits always suffice. -/
def Basin.shortest (b : Basin) : Decimal :=
  let top := decade b.centre
  ((List.range 17).findSome? fun n : Nat => b.onGrid? (top - 1 - (n : Int))).getD ⟨0, 0⟩

def signedText (negative : Bool) (text : String) : String :=
  if negative then "-" ++ text else text

/-- The text of a double whose finite magnitudes `write` writes.  Infinities and zeros show their
sign, non-numbers have none. -/
def Reading.text (write : Nat → Int → String) : Reading → String
  | nan => "NaN"
  | infinite negative => signedText negative "inf"
  | finite negative significand exponent => signedText negative (write significand exponent)

/-- The shortest decimal that reads back as the same double, the nearest one of those. -/
def shortestText (x : Float) : String :=
  (Reading.ofFloat x).text fun significand exponent =>
    if significand = 0 then "0" else (Basin.of significand exponent).shortest.text

/-- The exact value to two places, where a half goes to the even neighbour. -/
def twoPlaceText (x : Float) : String :=
  (Reading.ofFloat x).text fun significand exponent =>
    let hundredths := (roundEven (magnitude significand exponent * 100)).toNat
    Nat.repr (hundredths / 100) ++ "."
      ++ Nat.repr (hundredths / 10 % 10) ++ Nat.repr (hundredths % 10)

end KeyedArena
