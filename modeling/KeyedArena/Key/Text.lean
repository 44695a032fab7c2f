import KeyedArena.Key.Basic
/-!
Keys as text: decimal, and the four usual ways to set an integer in a column.
-/

namespace KeyedArena

def Key.digits (key : Key) : String := Nat.repr key.toInt.natAbs

/-- The decimal form: a minus sign for negative keys, no sign for the others. -/
def Key.text (key : Key) : String :=
  if key.toInt < 0 then "-" ++ key.digits else key.digits

/-- As many copies of a character as `text` is short of `width`. -/
def filler (fill : Char) (width : Nat) (text : String) : String :=
  String.ofList (List.replicate (width - text.length) fill)

/-- The decimal form at the right edge of a column. -/
def Key.flushRight (width : Nat) (key : Key) : String :=
  filler ' ' width key.text ++ key.text

/-- The decimal form at the left edge of a column. -/
def Key.flushLeft (width : Nat) (key : Key) : String :=
  key.text ++ filler ' ' width key.text

/-- The decimal form with a sign also for zero and above. -/
def Key.signed (key : Key) : String :=
  if key.toInt < 0 then key.text else "+" ++ key.text

/-- The decimal form filled up with zeros behind the sign, which counts for the width. -/
def Key.zeroFilled (width : Nat) (key : Key) : String :=
  let zeros := filler '0' width key.text
  if key.toInt < 0 then "-" ++ zeros ++ key.digits else zeros ++ key.digits

end KeyedArena
