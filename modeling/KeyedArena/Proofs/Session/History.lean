import KeyedArena.Proofs.Session.Ledger
import KeyedArena.Proofs.Session.Refusals
/-!
What the history of a session says about its keys.

Each key is issued once, upwards, and failures use none up.  It names the object that it was issued
for until that object is removed, and nothing before or after, whatever else happens; when the last
key has been passed no object is accepted any more, and all else goes on.
-/

namespace KeyedArena

universe u

variable {V : Type u}

def Session.ledger (session : Session V) (requests : List (Request V)) : Ledger V :=
  ({} : Ledger V).after requests (session.run requests).2

/-- Nothing is filed under the key, and whatever asks for it says so. -/
structure Arena.Lacks (arena : Arena V) (key : Key) : Prop where
  get : arena.get key = .error (.unassigned key)
  remove : (arena.remove key).answer = .error (.unassigned key)
  duplicate : ∀ memory, (arena.duplicate memory key).answer = .error (.unassigned key)
  contains : arena.contains key = false

/-- The object is filed under the key, and whatever asks for it gets it. -/
structure Arena.Yields (arena : Arena V) (key : Key) (value : V) : Prop where
  get : arena.get key = .ok value
  remove : (arena.remove key).answer = .ok value
  duplicate : ∀ memory, arena.duplicate memory key = arena.add memory value
  contains : arena.contains key = true

/-- No key is left: objects and duplicates of objects are refused for that reason. -/
structure Arena.Exhausted (arena : Arena V) : Prop where
  add : ∀ memory value, (arena.add memory value).answer = .error .keysExhausted
  duplicate : ∀ memory key value, arena.get key = .ok value →
    (arena.duplicate memory key).answer = .error .keysExhausted

/-- What holds of the keys in a session that has been asked `before` and then `later`. -/
structure Session.KeyHistory (session : Session V) (before later : List (Request V)) : Prop where
  /-- Every key is greater than those issued before it. -/
  increasing : (issuedKeys (session.run (before ++ later)).2).Pairwise
    fun left right => left.toInt < right.toInt
  /-- If no key was passed over, the keys count up from zero. -/
  consecutive : (∀ request ∈ before ++ later, ∀ key, request ≠ .advance key) →
    ∀ (i : Nat) (key : Key), (issuedKeys (session.run (before ++ later)).2)[i]? = some key →
      key.toInt = i
  /-- Once the keys have been used up, they remain so. -/
  exhausted : Key.greatest < (session.run before).1.arena.nextKey →
    (session.run (before ++ later)).1.arena.Exhausted
  /-- No issued key is missing in the ledger. -/
  noted : (session.ledger (before ++ later)).keys = issuedKeys (session.run (before ++ later)).2
  /-- Negative keys, keys that have not been issued and keys that were ever removed name nothing. -/
  dead : ∀ key : Key,
    key.toInt < 0 ∨ key ∉ issuedKeys (session.run (before ++ later)).2 ∨
        key ∈ (session.ledger before).removed →
      (session.run (before ++ later)).1.arena.Lacks key
  /-- Keys that have been issued and not removed name the object that they were issued for. -/
  alive : ∀ (key : Key) (value : V), (key, value) ∈ (session.ledger (before ++ later)).issued →
    key ∉ (session.ledger (before ++ later)).removed →
      (session.run (before ++ later)).1.arena.Yields key value

theorem Arena.lacks_of_get? {arena : Arena V} {key : Key} (hnone : arena.get? key = none) :
    arena.Lacks key := by
  have hget : arena.get key = .error (.unassigned key) := Arena.get_eq_error_iff.2 ⟨hnone, rfl⟩
  constructor
  case get => exact hget
  case remove => rw [Arena.answer_remove, hget]
  case duplicate =>
    intro memory
    exact Arena.answer_duplicate_eq_error_iff.2 (.inl ⟨hnone, rfl⟩)
  case contains => rw [Arena.contains_eq, hnone, Option.isSome_none]

theorem Arena.yields_of_get? {arena : Arena V} {key : Key} {value : V}
    (hfound : arena.get? key = some value) : arena.Yields key value := by
  have hget : arena.get key = .ok value := by rw [Arena.get, hfound]
  constructor
  case get => exact hget
  case remove => rw [Arena.answer_remove, hget]
  case duplicate =>
    intro memory
    rw [Arena.duplicate, hfound]
  case contains => rw [Arena.contains_eq, hfound, Option.isSome_some]

theorem Arena.exhausted_of_nextKey {arena : Arena V} (hpassed : Key.greatest < arena.nextKey) :
    arena.Exhausted := by
  constructor
  case add => exact fun memory => (Arena.CannotFile.keys hpassed).answer
  case duplicate =>
    intro memory key value hget
    rw [Arena.answer_duplicate_eq_error_iff]
    refine .inr ⟨?_, .keys hpassed⟩
    intro hnone
    rw [Arena.get, hnone] at hget
    contradiction

theorem Arena.Step.nextKey_le {memory : Memory} {arena after : Arena V}
    (hstep : arena.Step memory after) : arena.nextKey ≤ after.nextKey := by
  cases hstep with
  | stay => exact Nat.le_refl _
  | file hfiling =>
      cases hfiling with
      | refused failure => exact Nat.le_refl _
      | zero hnext => exact Nat.le_succ _
      | filed hkey hnonzero hslack => exact Nat.le_succ _
      | grown hkey hnonzero hfull hgrowth => exact Nat.le_succ _
  | remove hremoval => cases hremoval <;> exact Nat.le_refl _
  | advance key => exact Nat.le_max_left _ _
  | withCeiling ceiling => exact Nat.le_refl _

theorem Session.nextKey_le_run (session : Session V) (requests : List (Request V)) :
    session.arena.nextKey ≤ (session.run requests).1.arena.nextKey := by
  induction requests generalizing session with
  | nil => exact Nat.le_refl _
  | cons request rest ih => exact Nat.le_trans (session.step_handle request).nextKey_le (ih _)

theorem Session.removed_ledger_append (session : Session V) (before later : List (Request V)) :
    (session.ledger before).removed ⊆ (session.ledger (before ++ later)).removed := by
  rw [Session.ledger, Session.ledger, Ledger.after_run_append]
  exact Ledger.removed_subset_after _ _ _

/-- From a fresh arena, with a slot free before each request, keys are issued upwards and at most
once until they are used up; a key names the object it was issued for until that is removed, and
nothing before or after. -/
theorem Session.Fresh.keyHistory {settings : Settings} {session : Session V}
    (hfresh : session.Fresh settings) (before later : List (Request V))
    (hspacious : session.Spacious (before ++ later)) : session.KeyHistory before later := by
  obtain ⟨final, hfollows, hmirrors, hsound⟩ := hfresh.mirrors.run hfresh.sound hspacious
  have hreflects : (session.ledger (before ++ later)).Reflects final :=
    Ledger.reflects_empty.follows hfollows
  have hnoted : (session.ledger (before ++ later)).keys =
      issuedKeys (session.run (before ++ later)).2 := Ledger.reflects_empty.keys_after hfollows
  have hget := hmirrors.get?_eq hsound
  constructor
  case increasing => exact hnoted ▸ hreflects.increasing
  case consecutive =>
    intro hcalls i key hkey
    have hrange : (session.ledger (before ++ later)).keys.map Key.toInt =
        (List.range final.next).map Nat.cast :=
      Ledger.reflects_empty.consecutive hfollows hcalls rfl
    rw [hnoted] at hrange
    exact Key.toInt_eq_of_getElem? hrange hkey
  case exhausted =>
    intro hpassed
    apply Arena.exhausted_of_nextKey
    have hlater := (session.run before).1.nextKey_le_run later
    rw [Session.run_append]
    omega
  case noted => exact hnoted
  case dead =>
    intro key hdead
    apply Arena.lacks_of_get?
    rw [← hget]
    apply hreflects.get?_eq_none
    rw [hnoted]
    exact hdead.imp_right fun hgone =>
      hgone.imp_right fun hremoved => session.removed_ledger_append before later hremoved
  case alive =>
    intro key value hissued hunremoved
    apply Arena.yields_of_get?
    rw [← hget]
    exact hreflects.holds.2 ⟨hissued, hunremoved⟩

/-- A run that duplicates an object, removes the duplicate and passes over all keys left. -/
theorem Session.Fresh.keyHistory_churn :
    let session : Session Nat := ⟨.plain, {}⟩
    let before : List (Request Nat) :=
      [.add 7, .advance 15, .duplicate ⟨0⟩, .remove ⟨15⟩, .advance 2147483648]
    let reached := (session.run (before ++ [.add 9])).1.arena
    reached.Lacks ⟨15⟩ ∧ reached.Yields ⟨0⟩ 7 ∧ reached.Exhausted := by
  intro session before reached
  have hhistory : session.KeyHistory before [.add 9] :=
    Session.Fresh.keyHistory (.plain {}) before [.add 9] (by decide +kernel)
  refine ⟨hhistory.dead ⟨15⟩ (.inr (.inr ?_)), hhistory.alive ⟨0⟩ 7 ?_ ?_, hhistory.exhausted ?_⟩
  · decide +kernel
  · decide +kernel
  · decide +kernel
  · decide +kernel

end KeyedArena
