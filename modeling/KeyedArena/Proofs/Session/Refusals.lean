import KeyedArena.Proofs.Session.Runs
/-!
When a request is refused, and why.

Three causes can keep an object out, and the first of them that applies is the one reported; a key
is refused when no entry is listed under it.  Requests are refused for no other reason, and a
refusal changes neither the arena nor the memory there is for it.
-/

namespace KeyedArena

universe u v

variable {V : Type u} {α : Type v}

/-- Why no object can be filed: the keys are used up; or else a slot is needed, the count is at the
threshold and the doubled slots pass the ceiling; or else there is no memory for them. -/
inductive Arena.CannotFile (arena : Arena V) (memory : Memory) : Failure → Prop where
  | keys (hpassed : Key.greatest < arena.nextKey) : CannotFile arena memory .keysExhausted
  | ceiling (hkeys : arena.nextKey ≤ Key.greatest) (hslot : arena.nextKey ≠ 0)
      (hfull : arena.filled = arena.growAt) (hceiling : arena.ceiling < 2 * arena.capacity) :
      CannotFile arena memory (.capacityExceeded (2 * arena.capacity) arena.ceiling)
  | memory (hkeys : arena.nextKey ≤ Key.greatest) (hslot : arena.nextKey ≠ 0)
      (hfull : arena.filled = arena.growAt) (hceiling : 2 * arena.capacity ≤ arena.ceiling)
      (hmemory : memory.permits (2 * arena.capacity) = false) :
      CannotFile arena memory (.capacityExceeded (2 * arena.capacity) mostSlots)

theorem Arena.CannotFile.answer {arena : Arena V} {memory : Memory} {failure : Failure}
    (hcause : arena.CannotFile memory failure) (value : V) :
    (arena.add memory value).answer = .error failure := by
  cases hcause with
  | keys hpassed =>
      rw [Arena.add, Key.ofInt?_eq_none_iff.2 (.inr hpassed)]
      rfl
  | ceiling hkeys hslot hfull hceiling =>
      obtain ⟨key, hkey, _, hnonzero⟩ := Key.exists_ofInt? (Nat.pos_of_ne_zero hslot) hkeys
      rw [Arena.add, hkey]
      simp only [hnonzero, hfull, Arena.growthRefusal?, hceiling, if_true, if_false]
      rfl
  | memory hkeys hslot hfull hceiling hmemory =>
      obtain ⟨key, hkey, _, hnonzero⟩ := Key.exists_ofInt? (Nat.pos_of_ne_zero hslot) hkeys
      rw [Arena.add, hkey]
      simp only [hnonzero, hfull, Arena.growthRefusal?, Nat.not_lt.2 hceiling, hmemory, if_true,
        if_false, Bool.false_eq_true]
      rfl

/-- Growth is refused for the ceiling or else for want of memory. -/
theorem Arena.cannotFile_of_growthRefusal? {arena : Arena V} {memory : Memory}
    {failure : Failure} {event : Event} (hkeys : arena.nextKey ≤ Key.greatest)
    (hslot : arena.nextKey ≠ 0) (hfull : arena.filled = arena.growAt)
    (hgrowth : arena.growthRefusal? memory = some (failure, event)) :
    arena.CannotFile memory failure := by
  unfold Arena.growthRefusal? at hgrowth
  dsimp only at hgrowth
  split at hgrowth
  · rename_i hceiling
    simp only [Option.some.injEq, Prod.mk.injEq] at hgrowth
    rw [← hgrowth.1]
    exact .ceiling hkeys hslot hfull hceiling
  · rename_i hceiling
    split at hgrowth
    · simp at hgrowth
    · rename_i hmemory
      simp only [Option.some.injEq, Prod.mk.injEq] at hgrowth
      rw [← hgrowth.1]
      exact .memory hkeys hslot hfull (Nat.not_lt.1 hceiling) (Bool.not_eq_true _ ▸ hmemory)

/-- Filing fails for these causes only, in their order. -/
theorem Arena.answer_add_eq_error_iff {arena : Arena V} {memory : Memory} {value : V}
    {failure : Failure} :
    (arena.add memory value).answer = .error failure ↔ arena.CannotFile memory failure := by
  refine ⟨fun hanswer => ?_, fun hcause => hcause.answer value⟩
  unfold Arena.add at hanswer
  cases hnext : Key.ofInt? arena.nextKey with
  | none =>
      have hpassed : Key.greatest < arena.nextKey := by
        rcases Key.ofInt?_eq_none_iff.1 hnext with hlow | hhigh
        · unfold Key.least at hlow
          omega
        · exact hhigh
      simp only [hnext, Arena.refuse, Except.error.injEq] at hanswer
      rw [← hanswer]
      exact .keys hpassed
  | some key =>
      have hkeys : (arena.nextKey : Int) ≤ Key.greatest := by
        by_contra hpassed
        rw [Key.ofInt?_eq_none_iff.2 (.inr (Int.not_le.1 hpassed))] at hnext
        contradiction
      by_cases hzero : key = .zero
      · simp [hnext, hzero] at hanswer
      · have hslot : arena.nextKey ≠ 0 := by
          intro hfirst
          apply hzero
          rw [← Key.toInt_eq_zero_iff, Key.toInt_of_ofInt? hnext, hfirst]
          rfl
        by_cases hfull : arena.filled = arena.growAt
        · simp only [hnext, hzero, hfull, if_true, if_false] at hanswer
          cases hgrowth : arena.growthRefusal? memory with
          | none => simp [hgrowth] at hanswer
          | some refusal =>
              simp only [hgrowth, Arena.refuse, Except.error.injEq] at hanswer
              rw [← hanswer]
              exact Arena.cannotFile_of_growthRefusal? hkeys hslot hfull hgrowth
        · simp [hnext, hzero, hfull] at hanswer

theorem Arena.get_eq_error_iff {arena : Arena V} {key : Key} {failure : Failure} :
    arena.get key = .error failure ↔ arena.get? key = none ∧ failure = .unassigned key := by
  rw [Arena.get]
  cases arena.get? key with
  | none => simp [eq_comm]
  | some value => simp

theorem Arena.answer_remove (arena : Arena V) (key : Key) :
    (arena.remove key).answer = arena.get key := by
  unfold Arena.get Arena.remove Arena.get?
  by_cases hzero : key = .zero
  · simp only [hzero, if_true]
    cases arena.zero <;> rfl
  · simp only [hzero, if_false]
    cases hlocated : arena.slots.locate? key with
    | none => rfl
    | some index =>
        dsimp only [Option.bind_some]
        cases (arena.slots.look index).value? <;> rfl

/-- Duplicating fails for want of the object before it fails as filing does. -/
theorem Arena.answer_duplicate_eq_error_iff {arena : Arena V} {memory : Memory} {key : Key}
    {failure : Failure} :
    (arena.duplicate memory key).answer = .error failure ↔
      (arena.get? key = none ∧ failure = .unassigned key) ∨
        (arena.get? key ≠ none ∧ arena.CannotFile memory failure) := by
  rw [Arena.duplicate]
  cases arena.get? key with
  | none => simp [Arena.refuse, eq_comm]
  | some value => simp [Arena.answer_add_eq_error_iff]

theorem Arena.Sound.get?_eq_none_iff {arena : Arena V} (hsound : arena.Sound) {key : Key} :
    arena.get? key = none ↔ key ∉ arena.keys := by
  rw [Option.eq_none_iff_forall_ne_some, Arena.keys, List.mem_map]
  constructor
  · rintro hnone ⟨⟨stored, value⟩, hentry, rfl⟩
    exact hnone value (hsound.get?_eq_some_iff.2 hentry)
  · intro habsent value hfound
    exact habsent ⟨(key, value), hsound.get?_eq_some_iff.1 hfound, rfl⟩

/-- Which requests are refused in a session, and why.  The keys in use are those listed. -/
def Session.Refuses (session : Session V) (request : Request V) (failure : Failure) : Prop :=
  match request with
  | .add _ => session.arena.CannotFile session.memory failure
  | .get key => key ∉ session.arena.keys ∧ failure = .unassigned key
  | .remove key => key ∉ session.arena.keys ∧ failure = .unassigned key
  | .duplicate key =>
      (key ∉ session.arena.keys ∧ failure = .unassigned key) ∨
        (key ∈ session.arena.keys ∧ session.arena.CannotFile session.memory failure)
  | _ => False

theorem Outcome.reply_eq_refused_iff {outcome : Outcome V α} {memory : Memory}
    (read : α → Answer V) (hread : ∀ result failure, read result ≠ .refused failure)
    {failure : Failure} :
    (outcome.reply memory read).answer = .refused failure ↔ outcome.answer = .error failure := by
  rw [Outcome.answer_reply]
  cases outcome.answer with
  | error cause => simp
  | ok result => simp [hread]

/-- In a session with a sound arena exactly these requests are refused. -/
theorem Session.answer_eq_refused_iff {session : Session V} (hsound : session.arena.Sound)
    {request : Request V} {failure : Failure} :
    (session.handle request).answer = .refused failure ↔ session.Refuses request failure := by
  have habsent : ∀ key, session.arena.get? key = none ↔ key ∉ session.arena.keys :=
    fun key => hsound.get?_eq_none_iff
  obtain ⟨arena, memory⟩ := session
  cases request with
  | add value =>
      rw [Session.handle, Outcome.reply_eq_refused_iff Answer.key (by simp),
        Arena.answer_add_eq_error_iff]
      rfl
  | get key =>
      have hget : (Session.handle ⟨arena, memory⟩ (.get key)).answer = .refused failure ↔
          arena.get key = .error failure := by
        rw [Session.handle, Session.tell]
        cases arena.get key <;> simp
      rw [hget, Arena.get_eq_error_iff, habsent]
      rfl
  | remove key =>
      rw [Session.handle, Outcome.reply_eq_refused_iff Answer.value (by simp), Arena.answer_remove,
        Arena.get_eq_error_iff, habsent]
      rfl
  | duplicate key =>
      rw [Session.handle, Outcome.reply_eq_refused_iff Answer.key (by simp),
        Arena.answer_duplicate_eq_error_iff, ne_eq, habsent, not_not]
      rfl
  | contains key => simp [Session.handle, Session.tell, Session.Refuses]
  | size => simp [Session.handle, Session.tell, Session.Refuses]
  | isEmpty => simp [Session.handle, Session.tell, Session.Refuses]
  | advance key => simp [Session.handle, Session.Refuses]
  | setCeiling ceiling => simp [Session.handle, Session.Refuses]
  | setMemory memory => simp [Session.handle, Session.Refuses]

/-- A refused request leaves the session as it was. -/
theorem Session.eq_of_refused {session : Session V} {request : Request V} {failure : Failure}
    (hrefused : (session.handle request).answer = .refused failure) :
    (session.handle request).session = session := by
  obtain ⟨arena, memory⟩ := session
  have hfiled : ∀ value, (arena.add memory value).answer = .error failure →
      (arena.add memory value).arena = arena := by
    intro value hanswer
    have hfiling := arena.filing_add memory value
    rw [hanswer] at hfiling
    exact Arena.eq_of_filing_refused hfiling
  cases request with
  | add value =>
      rw [Session.handle, Outcome.reply_eq_refused_iff Answer.key (by simp)] at hrefused
      rw [Session.handle, Outcome.session_reply, hfiled value hrefused]
  | remove key =>
      rw [Session.handle, Outcome.reply_eq_refused_iff Answer.value (by simp)] at hrefused
      have hremoval := arena.removal_remove key
      rw [hrefused] at hremoval
      rw [Session.handle, Outcome.session_reply, (Arena.removal_refused hremoval).2.1]
  | duplicate key =>
      rw [Session.handle, Outcome.reply_eq_refused_iff Answer.key (by simp),
        Arena.duplicate] at hrefused
      rw [Session.handle, Outcome.session_reply, Arena.duplicate]
      cases hfound : arena.get? key with
      | none => rfl
      | some value =>
          rw [hfound] at hrefused
          exact congrArg (Session.mk · memory) (hfiled value hrefused)
  | get key => rfl
  | contains key => rfl
  | size => rfl
  | isEmpty => rfl
  | advance key => simp [Session.handle] at hrefused
  | setCeiling ceiling => simp [Session.handle] at hrefused
  | setMemory memory => simp [Session.handle] at hrefused

/-- Whatever state a session is in, with a slot free, and whatever the ceiling and the memory are
from now on: a request is refused exactly for the causes above, and then nothing has changed. -/
theorem Session.Reachable.refused_iff {session : Session V} (hreachable : session.Reachable)
    (hroom : session.arena.slots.HasRoom) (ceiling : Nat) (memory : Memory)
    (request : Request V) (failure : Failure) :
    let now : Session V := ⟨session.arena.withCeiling ceiling, memory⟩
    ((now.handle request).answer = .refused failure ↔ now.Refuses request failure) ∧
      ((now.handle request).answer = .refused failure → (now.handle request).session = now) := by
  have hlimited := hreachable.handle (.setCeiling ceiling) hroom
  refine ⟨Session.answer_eq_refused_iff ?_, Session.eq_of_refused⟩
  exact hlimited.sound

/-- The default arena with seven entries, at its threshold: growth is refused for the ceiling even
where there is no memory for it either. -/
theorem Session.Reachable.refused_iff_saturated :
    let full := ((⟨.plain, {}⟩ : Session Nat).run (List.replicate 7 (.add 1))).1
    let now : Session Nat := ⟨full.arena.withCeiling 8, ⟨some 8⟩⟩
    (now.handle (.add 2)).answer = .refused (.capacityExceeded 16 8) ∧
      (now.handle (.add 2)).session = now := by
  intro full now
  have hspacious : (⟨.plain, {}⟩ : Session Nat).Spacious (List.replicate 7 (.add 1)) := by
    decide +kernel
  have hroom : full.arena.slots.HasRoom := by decide +kernel
  have hcapacity : now.arena.capacity = 8 := by decide +kernel
  have hceiling : now.arena.ceiling = 8 := rfl
  have hcause : now.arena.CannotFile now.memory
      (.capacityExceeded (2 * now.arena.capacity) now.arena.ceiling) :=
    .ceiling (by decide +kernel) (by decide +kernel) (by decide +kernel) (by decide +kernel)
  rw [hcapacity, hceiling] at hcause
  obtain ⟨hiff, hkept⟩ := Session.Reachable.refused_iff
    ((Session.Reachable.plain {}).run hspacious) hroom 8 ⟨some 8⟩ (.add 2)
    (.capacityExceeded 16 8)
  exact ⟨hiff.2 hcause, hkept (hiff.2 hcause)⟩

end KeyedArena
