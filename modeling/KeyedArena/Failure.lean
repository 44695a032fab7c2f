import KeyedArena.Key.Text
import KeyedArena.Binary64.Text
/-!
Why an arena refuses.
-/

namespace KeyedArena

/-- The causes of refusal.  Whatever the cause, the arena is left as it was. -/
inductive Failure where
  /-- Nothing is filed under the key. -/
  | unassigned (key : Key)
  /-- More slots would be needed than there may be, or than there is memory for. -/
  | capacityExceeded (requested most : Nat)
  /-- The load factor lies outside its range. -/
  | loadFactorOutOfRange (given least greatest : Float)
  /-- All keys have been issued. -/
  | keysExhausted
deriving BEq, Repr

def Failure.message : Failure → String
  | unassigned key => "key is not assigned: " ++ key.text
  | capacityExceeded requested most =>
      "maximum table size exceeded: requested " ++ Nat.repr requested ++ " slots, max "
        ++ Nat.repr most
  | loadFactorOutOfRange given least greatest =>
      "the load factor should be in range [" ++ twoPlaceText least ++ ", "
        ++ twoPlaceText greatest ++ "]: " ++ shortestText given
  | keysExhausted => "no more keys can be assigned"

end KeyedArena
