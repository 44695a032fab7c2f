/-!
Keys: the signed 32-bit words under which an arena files its objects.

Keys are issued upwards from zero, so the negative ones are never issued; they can still be asked
for, and then name nothing.
-/

namespace KeyedArena

/-- The name of one stored object: any signed 32-bit word. -/
structure Key where
  raw : Int32
deriving DecidableEq, Repr

/-- The key issued first.  It is the one key that is kept outside the probe slots. -/
def Key.zero : Key := ⟨0⟩

instance : Inhabited Key := ⟨Key.zero⟩

def Key.toInt (key : Key) : Int := key.raw.toInt

def Key.least : Int := -2147483648

/-- The greatest integer that is a key, and so the last one to be issued. -/
def Key.greatest : Int := 2147483647

def Key.ofInt? (n : Int) : Option Key :=
  if least ≤ n ∧ n ≤ greatest then some ⟨Int32.ofInt n⟩ else none

instance : LE Key := ⟨fun left right => left.toInt ≤ right.toInt⟩

instance (left right : Key) : Decidable (left ≤ right) :=
  inferInstanceAs (Decidable (left.toInt ≤ right.toInt))

/-- Keys in ascending order; a repeated key stays repeated. -/
def Key.ascending (keys : List Key) : List Key :=
  keys.mergeSort fun left right => decide (left ≤ right)

/-- The set of the given keys, as an ascending list without repetition. -/
def Key.distinctAscending (keys : List Key) : List Key :=
  (ascending keys).foldr
    (fun key rest => if rest.head? = some key then rest else key :: rest) []

theorem Key.toInt_inj {left right : Key} : left.toInt = right.toInt ↔ left = right := by
  constructor
  · intro h
    cases left
    cases right
    simp only [Key.toInt, Int32.toInt_inj] at h
    rw [h]
  · intro h
    rw [h]

theorem Key.ofInt?_toInt (key : Key) : Key.ofInt? key.toInt = some key := by
  have low := key.raw.le_toInt
  have high := key.raw.toInt_lt
  unfold Key.ofInt?
  rw [if_pos (by unfold Key.toInt Key.least Key.greatest; omega)]
  simp [Key.toInt]

theorem Key.toInt_of_ofInt? {n : Int} {key : Key} (h : Key.ofInt? n = some key) :
    key.toInt = n := by
  unfold Key.ofInt? at h
  split at h
  · rename_i range
    simp only [Option.some.injEq] at h
    subst h
    exact Int32.toInt_ofInt_of_le (by simpa [Key.least] using range.1)
      (by simp [Key.greatest] at range; omega)
  · simp at h

theorem Key.ofInt?_eq_none_iff {n : Int} :
    Key.ofInt? n = none ↔ n < Key.least ∨ Key.greatest < n := by
  unfold Key.ofInt?
  split <;> simp <;> omega

end KeyedArena
