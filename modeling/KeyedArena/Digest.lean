/-!
Digests: short fingerprints of long lists of integers, for comparing what cannot be shown in full.
-/

namespace KeyedArena

/-- Mixes an integer, taken modulo 2^32, into a running hash. -/
def mix (hash : UInt32) (x : Int) : UInt32 := hash * 31 + (x % 4294967296).toNat.toUInt32

def hashSeed : UInt32 := 7

/-- The length, the sum and the hash of a list of integers. -/
structure Digest where
  count : Nat := 0
  sum : Int := 0
  hash : UInt32 := hashSeed
deriving DecidableEq, Repr

def Digest.absorb (d : Digest) (x : Int) : Digest := ⟨d.count + 1, d.sum + x, mix d.hash x⟩

def Digest.ofList (xs : List Int) : Digest := xs.foldl absorb {}

/-- What a row of look-ups found: how many keys had an object, how many had none, and the hash of
the objects. -/
structure Tally where
  found : Nat := 0
  missing : Nat := 0
  hash : UInt32 := hashSeed
deriving DecidableEq, Repr

def Tally.hit (t : Tally) (weight : Int) : Tally :=
  { t with found := t.found + 1, hash := mix t.hash weight }

def Tally.miss (t : Tally) : Tally := { t with missing := t.missing + 1 }

end KeyedArena
