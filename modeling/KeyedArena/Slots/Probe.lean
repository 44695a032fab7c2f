import KeyedArena.Slots.Basic
/-!
Linear probing: the walk from a key's home slot to the next free one.

An entry is filed in the first free slot on that walk, so a key is found by following the walk
until it or a free slot turns up.
-/

namespace KeyedArena

universe u

variable {V : Type u}

/-- Walks forward from a slot, over at most the given number of slots, to the first one that is
wanted. -/
def Slots.firstFrom (slots : Slots V) (wanted : Slot V → Bool) : Nat → Nat → Option Nat
  | _, 0 => none
  | start, steps + 1 =>
      if wanted (slots.look start) then some start
      else slots.firstFrom wanted (following slots.size start) steps

/-- The first slot that is wanted on the walk from the home of `key`, once around the circle. -/
def Slots.probe (slots : Slots V) (wanted : Slot V → Bool) (key : Key) : Option Nat :=
  slots.firstFrom wanted (key.home slots.size) slots.size

def Slots.locate? (slots : Slots V) (key : Key) : Option Nat :=
  (slots.probe (fun slot => slot.isFree || slot.holds key) key).filter
    fun index => (slots.look index).holds key

def Slots.vacancy? (slots : Slots V) (key : Key) : Option Nat := slots.probe Slot.isFree key

/-- Files an entry.  A circle without a free slot stays as it is. -/
def Slots.place (slots : Slots V) (key : Key) (value : V) : Slots V :=
  match slots.vacancy? key with
  | none => slots
  | some index => slots.write index (.full key value)

def Slots.ofEntries (capacity : Nat) (entries : List (Key × V)) : Slots V :=
  entries.foldl (fun slots entry => slots.place entry.1 entry.2) (.vacant capacity)

/-- Files the same entries, in slot order, in a fresh circle of another size. -/
def Slots.rehash (slots : Slots V) (capacity : Nat) : Slots V :=
  .ofEntries capacity slots.entries

theorem Slots.size_place (slots : Slots V) (key : Key) (value : V) :
    (slots.place key value).size = slots.size := by
  unfold Slots.place
  split
  · rfl
  · exact slots.size_write _ _

theorem Slots.size_ofEntries (capacity : Nat) (entries : List (Key × V)) :
    (Slots.ofEntries capacity entries).size = capacity := by
  have general : ∀ slots : Slots V,
      (entries.foldl (fun slots entry => slots.place entry.1 entry.2) slots).size
        = slots.size := by
    induction entries with
    | nil => intro slots; rfl
    | cons head tail ih => intro slots; rw [List.foldl_cons, ih, slots.size_place]
  rw [Slots.ofEntries, general, Slots.size_vacant]

end KeyedArena
