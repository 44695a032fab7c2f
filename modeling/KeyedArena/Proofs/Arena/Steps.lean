import KeyedArena.Proofs.Slots.Walk
import KeyedArena.Session
/-!
What a request can do to an arena.

Filing ends in one of four ways and removing in one of three; everything else leaves the slots
alone.  These are the only cases that an invariant of arenas has to be checked for.
-/

namespace KeyedArena

universe u v

variable {V : Type u} {α : Type v}

theorem Key.toInt_zero : Key.zero.toInt = 0 := by decide

theorem Key.toInt_eq_zero_iff {key : Key} : key.toInt = 0 ↔ key = .zero := by
  rw [← Key.toInt_zero, Key.toInt_inj]

theorem Key.exists_ofInt? {n : Nat} (hpositive : 0 < n) (hgreatest : n ≤ Key.greatest) :
    ∃ key, Key.ofInt? n = some key ∧ key.toInt = n ∧ key ≠ .zero := by
  cases hkey : Key.ofInt? n with
  | none =>
      rw [Key.ofInt?_eq_none_iff] at hkey
      unfold Key.least at hkey
      omega
  | some key =>
      have hvalue := Key.toInt_of_ofInt? hkey
      refine ⟨key, rfl, hvalue, ?_⟩
      intro hzero
      rw [hzero, Key.toInt_zero] at hvalue
      omega

theorem Arena.growthRefusal?_eq_none_iff {arena : Arena V} {memory : Memory} :
    arena.growthRefusal? memory = none ↔
      2 * arena.capacity ≤ arena.ceiling ∧ memory.permits (2 * arena.capacity) = true := by
  rw [Arena.growthRefusal?, ← Nat.not_lt]
  by_cases hceiling : arena.ceiling < 2 * arena.capacity
  · simp [hceiling]
  · simp [hceiling]

/-- How filing an object can end: with a refusal, in the place of key zero, in a slot, or in a slot
after growth. -/
inductive Arena.Filing (arena : Arena V) (memory : Memory) (value : V) :
    Except Failure Key → Arena V → Prop where
  | refused (failure : Failure) : Filing arena memory value (.error failure) arena
  | zero (hnext : arena.nextKey = 0) :
      Filing arena memory value (.ok .zero) { arena with zero := some value }.issue
  | filed {key : Key} (hkey : key.toInt = arena.nextKey) (hnonzero : key ≠ .zero)
      (hslack : arena.filled ≠ arena.growAt) :
      Filing arena memory value (.ok key) (arena.file key value).issue
  | grown {key : Key} (hkey : key.toInt = arena.nextKey) (hnonzero : key ≠ .zero)
      (hfull : arena.filled = arena.growAt) (hgrowth : arena.growthRefusal? memory = none) :
      Filing arena memory value (.ok key) (arena.grown.file key value).issue

/-- Filing ends in no other way. -/
theorem Arena.filing_add (arena : Arena V) (memory : Memory) (value : V) :
    arena.Filing memory value (arena.add memory value).answer (arena.add memory value).arena := by
  unfold Arena.add
  cases hnext : Key.ofInt? arena.nextKey with
  | none => exact .refused _
  | some key =>
      have hkey := Key.toInt_of_ofInt? hnext
      by_cases hzero : key = .zero
      · rw [hzero, Key.toInt_zero] at hkey
        simp only [hzero, if_true]
        exact .zero (by omega)
      · by_cases hfull : arena.filled = arena.growAt
        · simp only [hzero, hfull, if_true, if_false]
          cases hgrowth : arena.growthRefusal? memory with
          | none => exact .grown hkey hzero hfull hgrowth
          | some refusal => exact .refused _
        · simp only [hzero, hfull, if_false]
          exact .filed hkey hzero hfull

/-- An object gets the next key, if there is one and a slot for it is to be had. -/
theorem Arena.answer_add_eq_ok_iff {arena : Arena V} {memory : Memory} {value : V} {key : Key} :
    (arena.add memory value).answer = .ok key ↔
      Key.ofInt? arena.nextKey = some key ∧
        (key ≠ .zero → arena.filled = arena.growAt → arena.growthRefusal? memory = none) := by
  unfold Arena.add
  cases hnext : Key.ofInt? arena.nextKey with
  | none => simp [Arena.refuse]
  | some next =>
      by_cases hzero : next = .zero
      · simp +contextual [hzero]
      · by_cases hfull : arena.filled = arena.growAt
        · cases hgrowth : arena.growthRefusal? memory with
          | none => simp [hzero, hfull]
          | some refusal => grind [Arena.refuse]
        · simp [hzero, hfull]

theorem Arena.eq_of_filing_refused {arena after : Arena V} {memory : Memory} {value : V}
    {failure : Failure} (hfiling : arena.Filing memory value (.error failure) after) :
    after = arena := by
  cases hfiling
  rfl

/-- How removing the object under a key can end: with a refusal, by emptying the place of key zero,
or by freeing the slot of the key. -/
inductive Arena.Removal (arena : Arena V) (key : Key) : Except Failure V → Arena V → Prop where
  | absent (hnone : arena.get? key = none) :
      Removal arena key (.error (.unassigned key)) arena
  | zero {value : V} (hkey : key = .zero) (hvalue : arena.zero = some value) :
      Removal arena key (.ok value) { arena with zero := none }
  | freed {index : Nat} {value : V} (hnonzero : key ≠ .zero)
      (hfull : arena.slots.look index = .full key value) :
      Removal arena key (.ok value) (arena.free index).1

/-- Removing ends in no other way. -/
theorem Arena.removal_remove (arena : Arena V) (key : Key) :
    arena.Removal key (arena.remove key).answer (arena.remove key).arena := by
  unfold Arena.remove
  by_cases hzero : key = .zero
  · rw [if_pos hzero]
    cases hvalue : arena.zero with
    | none => exact .absent (by rw [Arena.get?, if_pos hzero, hvalue])
    | some value => exact .zero hzero hvalue
  · rw [if_neg hzero]
    cases hlocated : arena.slots.locate? key with
    | none =>
        apply Removal.absent
        rw [Arena.get?, if_neg hzero, hlocated]
        rfl
    | some index =>
        obtain ⟨value, hfull⟩ := Slot.key?_eq_some_iff.1 (Slots.key?_of_locate? hlocated)
        simp only [hfull, Slot.value?_full]
        exact .freed hzero hfull

theorem Arena.removal_refused {arena after : Arena V} {key : Key} {failure : Failure}
    (hremoval : arena.Removal key (.error failure) after) :
    failure = .unassigned key ∧ after = arena ∧ arena.get? key = none := by
  cases hremoval with
  | absent hnone => exact ⟨rfl, rfl, hnone⟩

/-- What one request can make of an arena. -/
inductive Arena.Step (memory : Memory) (arena : Arena V) : Arena V → Prop where
  | stay : Step memory arena arena
  | file {value : V} {answer : Except Failure Key} {after : Arena V}
      (hfiling : arena.Filing memory value answer after) : Step memory arena after
  | remove {key : Key} {answer : Except Failure V} {after : Arena V}
      (hremoval : arena.Removal key answer after) : Step memory arena after
  | advance (key : Nat) : Step memory arena (arena.advance key)
  | withCeiling (ceiling : Nat) : Step memory arena (arena.withCeiling ceiling)

theorem Outcome.session_reply (outcome : Outcome V α) (memory : Memory) (read : α → Answer V) :
    (outcome.reply memory read).session = ⟨outcome.arena, memory⟩ := by
  obtain ⟨answer, arena, log⟩ := outcome
  cases answer <;> rfl

theorem Outcome.arena_reply (outcome : Outcome V α) (memory : Memory) (read : α → Answer V) :
    (outcome.reply memory read).session.arena = outcome.arena := by
  rw [Outcome.session_reply]

theorem Outcome.answer_reply (outcome : Outcome V α) (memory : Memory) (read : α → Answer V) :
    (outcome.reply memory read).answer =
      match outcome.answer with
      | .ok result => read result
      | .error failure => .refused failure := by
  obtain ⟨answer, arena, log⟩ := outcome
  cases answer <;> rfl

/-- A request makes nothing else of an arena. -/
theorem Session.step_handle (session : Session V) (request : Request V) :
    session.arena.Step session.memory (session.handle request).session.arena := by
  obtain ⟨arena, memory⟩ := session
  cases request with
  | add value =>
      rw [Session.handle, Outcome.arena_reply]
      exact .file (arena.filing_add memory value)
  | remove key =>
      rw [Session.handle, Outcome.arena_reply]
      exact .remove (arena.removal_remove key)
  | duplicate key =>
      rw [Session.handle, Outcome.arena_reply, Arena.duplicate]
      cases arena.get? key with
      | none => exact .stay
      | some value => exact .file (arena.filing_add memory value)
  | get key => exact .stay
  | contains key => exact .stay
  | size => exact .stay
  | isEmpty => exact .stay
  | advance key => exact .advance key
  | setCeiling ceiling => exact .withCeiling ceiling
  | setMemory memory => exact .stay

end KeyedArena
