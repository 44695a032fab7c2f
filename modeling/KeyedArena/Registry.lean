import KeyedArena.Session
/-!
What an arena is for, without slots: a finite map from keys to objects, and the key to issue next.

`Registry.Answers` says which answers the map allows and what it is afterwards.  A registry never
runs out of room, so it leaves open whether an object is accepted; it only says what follows.
-/

namespace KeyedArena

universe u

variable {V : Type u}

/-- A finite map from keys to objects with a counter.  No key has two entries. -/
structure Registry (V : Type u) where
  entries : List (Key × V) := []
  next : Nat := 0
  distinct : (entries.map Prod.fst).Nodup := by simp

def Registry.get? (registry : Registry V) (key : Key) : Option V := registry.entries.lookup key

def Registry.erase (registry : Registry V) (key : Key) : Registry V where
  entries := registry.entries.filter fun entry => entry.1 != key
  next := registry.next
  distinct := (List.filter_sublist.map _).nodup registry.distinct

/-- The map with an object under a key that is issued now. -/
def Registry.issue (registry : Registry V) (key : Key) (value : V) : Registry V where
  entries := (key, value) :: (registry.erase key).entries
  next := registry.next + 1
  distinct := by
    rw [List.map_cons, List.nodup_cons]
    exact ⟨by simp [Registry.erase], (registry.erase key).distinct⟩

/-- An object is either filed under the next key, or refused without a trace. -/
def Registry.Files (registry : Registry V) (value : V) (answer : Answer V)
    (after : Registry V) : Prop :=
  (∃ key, Key.ofInt? registry.next = some key ∧ answer = .key key
    ∧ after = registry.issue key value)
  ∨ (∃ failure, answer = .refused failure ∧ after = registry)

/-- The answers that a registry allows to a request, each with the registry afterwards. -/
def Registry.Answers (registry : Registry V) (request : Request V) (answer : Answer V)
    (after : Registry V) : Prop :=
  match request with
  | .add value => registry.Files value answer after
  | .get key =>
      after = registry ∧ answer =
        match registry.get? key with
        | none => .refused (.unassigned key)
        | some value => .value value
  | .remove key =>
      match registry.get? key with
      | none => after = registry ∧ answer = .refused (.unassigned key)
      | some value => after = registry.erase key ∧ answer = .value value
  | .duplicate key =>
      match registry.get? key with
      | none => after = registry ∧ answer = .refused (.unassigned key)
      | some value => registry.Files value answer after
  | .contains key => after = registry ∧ answer = .truth (registry.get? key).isSome
  | .size => after = registry ∧ answer = .count registry.entries.length
  | .isEmpty => after = registry ∧ answer = .truth registry.entries.isEmpty
  | .advance key => after = { registry with next := max registry.next key } ∧ answer = .done
  | .setCeiling _ => after = registry ∧ answer = .done
  | .setMemory _ => after = registry ∧ answer = .done

/-- Whether an arena holds exactly the objects of a registry and issues the same key next. -/
structure Registry.Describes (registry : Registry V) (arena : Arena V) : Prop where
  next : registry.next = arena.nextKey
  size : registry.entries.length = arena.size
  get : ∀ key, registry.get? key = arena.get? key

end KeyedArena
