import KeyedArena.Proofs.Arena.Removal
import KeyedArena.Proofs.Session.Capacity
import KeyedArena.Proofs.Session.Refusals
/-!
What helps when growth is refused.

Growth is asked for when the count has just reached the threshold, and the threshold is never zero.
So there is an entry in a slot, and removing any one of them makes room for one object: it gets the
key that was to be issued when growth was refused, and the next object meets with the same refusal.
The entry under key zero takes up no slot, and removing it makes no room.
-/

namespace KeyedArena

universe u

variable {V : Type u}

/-- An arena with a threshold that fits its slots, and not too many of these for its load factor to
be applied exactly. -/
structure Arena.Measured (arena : Arena V) : Prop where
  /-- From 128 slots on, doubling raises the threshold at any load factor that is accepted. -/
  paced : Paced arena.loadFactor 128
  growAt : arena.growAt = threshold arena.capacity arena.loadFactor
  bounded : arena.capacity ≤ 549755813888

theorem Arena.Measured.growAt_pos {arena : Arena V} (hmeasured : arena.Measured)
    (hsound : arena.Sound) : 0 < arena.growAt := by
  obtain ⟨r, hload, hleast, hgreatest, _⟩ := hmeasured.paced
  have hpositive : (0 : Rat) < r := by linarith
  have hslots := hsound.least
  unfold leastSlots at hslots
  have hbounded := hmeasured.bounded
  rw [hmeasured.growAt]
  exact threshold_pos hload hpositive (by linarith) hsound.power (by omega) (by omega)

/-- Growth measures the threshold anew, and nothing else changes it. -/
theorem Arena.Measured.step {arena after : Arena V} (hmeasured : arena.Measured)
    (hsound : arena.Sound) {memory : Memory} (hstep : arena.Step memory after) :
    after.Measured := by
  rcases hstep.unresized_or_grown with hsame | ⟨key, value, hfull, _, rfl⟩
  · constructor
    case paced => exact hsame.load ▸ hmeasured.paced
    case growAt => rw [hsame.growAt, hsame.capacity, hsame.load, hmeasured.growAt]
    case bounded => exact hsame.capacity ▸ hmeasured.bounded
  · have hcapacity : (arena.grown.file key value).issue.capacity = 2 * arena.capacity :=
      (arena.grown.capacity_file key value).trans arena.capacity_grown
    have hfew : arena.capacity < 274877906944 :=
      hsound.capacity_lt hmeasured.paced hmeasured.bounded (hfull.trans hmeasured.growAt)
    constructor
    case paced => exact hmeasured.paced
    case growAt =>
      rw [hcapacity]
      rfl
    case bounded => omega

theorem Session.Fresh.measured {settings : Settings} {session : Session V}
    (hfresh : session.Fresh settings) : session.arena.Measured := by
  obtain ⟨r, hload, hleast, hgreatest⟩ := Settings.load_of_check hfresh.vacant.1
  have hfitted := hfresh.fitted
  constructor
  case paced =>
    rw [hfitted.load]
    exact ⟨r, hload, hleast, hgreatest, by push_cast; linarith⟩
  case growAt =>
    rw [hfitted.load]
    exact hfitted.growAt
  case bounded => exact hfitted.bounded

theorem Session.Reachable.measured {session : Session V} (hreachable : session.Reachable) :
    session.arena.Measured := by
  induction hreachable with
  | plain memory => exact (Session.Fresh.plain memory).measured
  | made hmade => exact (Session.Fresh.made hmade).measured
  | handle request before room ih => exact ih.step before.sound (Session.step_handle _ request)

theorem Arena.growthRefusal?_congr {before after : Arena V}
    (hcapacity : after.capacity = before.capacity) (hceiling : after.ceiling = before.ceiling)
    (memory : Memory) : after.growthRefusal? memory = before.growthRefusal? memory := by
  rw [Arena.growthRefusal?, Arena.growthRefusal?, hcapacity, hceiling]

/-- An arena whose next entry needs more slots, which are refused. -/
structure Arena.Saturated (arena : Arena V) (memory : Memory) (failure : Failure) : Prop where
  keys : arena.nextKey ≤ Key.greatest
  slot : arena.nextKey ≠ 0
  full : arena.filled = arena.growAt
  refused : ∃ event, arena.growthRefusal? memory = some (failure, event)

theorem Arena.Saturated.cannotFile {arena : Arena V} {memory : Memory} {failure : Failure}
    (hsaturated : arena.Saturated memory failure) : arena.CannotFile memory failure := by
  obtain ⟨event, hrefused⟩ := hsaturated.refused
  exact Arena.cannotFile_of_growthRefusal? hsaturated.keys hsaturated.slot hsaturated.full hrefused

theorem Arena.CannotFile.saturated {arena : Arena V} {memory : Memory} {requested most : Nat}
    (hcause : arena.CannotFile memory (.capacityExceeded requested most)) :
    arena.Saturated memory (.capacityExceeded requested most) := by
  cases hcause with
  | ceiling hkeys hslot hfull hceiling =>
      refine ⟨hkeys, hslot, hfull, .ceilingReached arena.ceiling (2 * arena.capacity), ?_⟩
      rw [Arena.growthRefusal?, if_pos hceiling]
  | memory hkeys hslot hfull hceiling hmemory =>
      refine ⟨hkeys, hslot, hfull, .allocationRefused (2 * arena.capacity), ?_⟩
      rw [Arena.growthRefusal?, if_neg (Nat.not_lt.2 hceiling), hmemory]
      rfl

theorem Arena.add_of_slack {arena : Arena V} {key : Key}
    (hnext : Key.ofInt? arena.nextKey = some key) (hnonzero : key ≠ .zero)
    (hslack : arena.filled ≠ arena.growAt) (memory : Memory) (value : V) :
    arena.add memory value = ⟨.ok key, (arena.file key value).issue, []⟩ := by
  rw [Arena.add, hnext]
  simp only [hnonzero, hslack, if_false]

/-- Once a slot has been freed in a saturated arena, one object is filed under the next key, and no
further one: the arena is saturated again unless the keys have come to their end. -/
theorem Arena.Saturated.add_freed {arena : Arena V} {memory : Memory} {failure : Failure}
    (hsaturated : arena.Saturated memory failure) (hpositive : 0 < arena.growAt) {issued : Key}
    (hissued : Key.ofInt? arena.nextKey = some issued) (hnonzero : issued ≠ .zero) (index : Nat)
    (value : V) :
    let freed := (arena.free index).1
    let refilled := (freed.file issued value).issue
    freed.add memory value = ⟨.ok issued, refilled, []⟩ ∧ refilled.capacity = arena.capacity ∧
      refilled.CannotFile memory
        (if issued.toInt = Key.greatest then .keysExhausted else failure) := by
  intro freed refilled
  have hfilled : freed.filled = arena.filled - 1 := rfl
  have hfull := hsaturated.full
  have hslack : freed.filled ≠ freed.growAt := by
    have hsame : freed.growAt = arena.growAt := rfl
    omega
  have hcapacity : refilled.capacity = arena.capacity :=
    (freed.capacity_file issued value).trans (arena.capacity_free index)
  have hnext : refilled.nextKey = arena.nextKey + 1 := rfl
  have hkey := Key.toInt_of_ofInt? hissued
  have hkeys := hsaturated.keys
  refine ⟨Arena.add_of_slack (show Key.ofInt? freed.nextKey = _ from hissued) hnonzero hslack _ _,
    hcapacity, ?_⟩
  -- the count is back at the threshold, and only the keys may have come to their end meanwhile
  by_cases hlast : issued.toInt = Key.greatest
  · rw [if_pos hlast]
    exact .keys (by omega)
  · rw [if_neg hlast]
    apply Saturated.cannotFile
    constructor
    case keys => omega
    case slot => exact Nat.succ_ne_zero _
    case full =>
      have hrefilled : refilled.filled = freed.filled + 1 := rfl
      have hgrowAt : refilled.growAt = arena.growAt := rfl
      omega
    case refused =>
      obtain ⟨event, hrefused⟩ := hsaturated.refused
      exact ⟨event, (Arena.growthRefusal?_congr hcapacity rfl memory).trans hrefused⟩

/-- What it is for a session to recover from a refusal to grow: an entry in a slot makes way for one
object more, under the key that was kept back, and the entry under key zero does not. -/
structure Session.Recovers (session : Session V) (failure : Failure) (issued : Key) : Prop where
  /-- Had growth been granted, this is the key that would have been issued. -/
  withheld : ∀ ceiling memory value,
    (session.arena.withCeiling ceiling).growthRefusal? memory = none →
      ((⟨session.arena.withCeiling ceiling, memory⟩ : Session V).handle (.add value)).answer =
        .key issued
  live : ∃ key, key ≠ .zero ∧ session.arena.contains key = true
  removal : ∀ key, key ≠ .zero → session.arena.contains key = true →
    ∃ held, session.arena.get key = .ok held ∧ ∀ refused next last,
      (session.run [.add refused, .remove key, .add next, .add last]).2 =
          [.refused failure, .value held, .key issued,
            .refused (if issued.toInt = Key.greatest then .keysExhausted else failure)] ∧
        (session.run [.add refused, .remove key, .add next]).1.arena.capacity =
          session.arena.capacity
  zero : session.arena.contains .zero = true →
    ∃ held, session.arena.get .zero = .ok held ∧ ∀ refused next,
      (session.run [.add refused, .remove .zero, .add next]).2 =
        [.refused failure, .value held, .refused failure]

theorem Arena.CannotFile.handle {arena : Arena V} {memory : Memory} {failure : Failure}
    (hcause : arena.CannotFile memory failure) (value : V) :
    (Session.handle ⟨arena, memory⟩ (.add value)).answer = .refused failure ∧
      (Session.handle ⟨arena, memory⟩ (.add value)).session = ⟨arena, memory⟩ := by
  have hanswer : (Session.handle ⟨arena, memory⟩ (.add value)).answer = .refused failure := by
    rw [Session.handle, Outcome.reply_eq_refused_iff Answer.key (by simp)]
    exact hcause.answer value
  exact ⟨hanswer, Session.eq_of_refused hanswer⟩

/-- A saturated arena has an entry in a slot. -/
theorem Arena.Saturated.exists_live {arena : Arena V} {memory : Memory} {failure : Failure}
    (hsaturated : arena.Saturated memory failure) (hsound : arena.Sound)
    (hpositive : 0 < arena.growAt) : ∃ key, key ≠ .zero ∧ arena.contains key = true := by
  have hsome : 0 < arena.slots.entries.length := by
    rw [← hsound.counted, hsaturated.full]
    exact hpositive
  obtain ⟨⟨key, held⟩, hentry⟩ := List.exists_mem_of_length_pos hsome
  have hnonzero : key ≠ .zero := hsound.slots.entries_nonzero hentry
  obtain ⟨index, hfull⟩ := Slots.mem_entries_iff.1 hentry
  refine ⟨key, hnonzero, ?_⟩
  rw [Arena.contains, if_neg hnonzero,
    hsound.slots.locate?_eq_some_iff.2 (Slots.key?_of_full hfull), Option.isSome_some]

/-- Removing any entry from a slot makes room for one object. -/
theorem Arena.Saturated.run_removal {arena : Arena V} {memory : Memory} {failure : Failure}
    (hsaturated : arena.Saturated memory failure) (hsound : arena.Sound)
    (hpositive : 0 < arena.growAt) {issued : Key}
    (hissued : Key.ofInt? arena.nextKey = some issued) (hnonzero : issued ≠ .zero) {key : Key}
    (hkey : key ≠ .zero) (hlive : arena.contains key = true) :
    ∃ held, arena.get key = .ok held ∧ ∀ refused next last,
      (Session.run ⟨arena, memory⟩ [.add refused, .remove key, .add next, .add last]).2 =
          [.refused failure, .value held, .key issued,
            .refused (if issued.toInt = Key.greatest then .keysExhausted else failure)] ∧
        (Session.run ⟨arena, memory⟩ [.add refused, .remove key, .add next]).1.arena.capacity =
          arena.capacity := by
  rw [Arena.contains, if_neg hkey, Option.isSome_iff_exists] at hlive
  obtain ⟨index, hlocated⟩ := hlive
  obtain ⟨held, hfull⟩ := Slot.key?_eq_some_iff.1 (Slots.key?_of_locate? hlocated)
  have hremoved := hsound.wellFormed.remove_eq hfull
  refine ⟨held, by rw [← Arena.answer_remove, hremoved], ?_⟩
  intro refused next last
  obtain ⟨hadded, hcapacity, hcause⟩ :=
    hsaturated.add_freed hpositive hissued hnonzero index next
  have hfirst := hsaturated.cannotFile.handle refused
  have hlast := hcause.handle last
  have hremoval : Session.handle ⟨arena, memory⟩ (.remove key) =
      ⟨⟨(arena.free index).1, memory⟩, .value held,
        (arena.slots.close index).journal.map .shifted⟩ := by
    rw [Session.handle, hremoved]
    rfl
  have hfiling : Session.handle ⟨(arena.free index).1, memory⟩ (.add next) =
      ⟨⟨((arena.free index).1.file issued next).issue, memory⟩, .key issued, []⟩ := by
    rw [Session.handle, hadded]
    rfl
  simp only [Session.run, hfirst, hremoval, hfiling, hlast, true_and]
  exact hcapacity

theorem Arena.Saturated.run_removal_zero {arena : Arena V} {memory : Memory} {failure : Failure}
    (hsaturated : arena.Saturated memory failure) (hlive : arena.contains .zero = true) :
    ∃ held, arena.get .zero = .ok held ∧ ∀ refused next,
      (Session.run ⟨arena, memory⟩ [.add refused, .remove .zero, .add next]).2 =
        [.refused failure, .value held, .refused failure] := by
  rw [Arena.contains, if_pos rfl, Option.isSome_iff_exists] at hlive
  obtain ⟨held, hzero⟩ := hlive
  have hremoved : arena.remove .zero = ⟨.ok held, { arena with zero := none }, []⟩ := by
    rw [Arena.remove, if_pos rfl, hzero]
  refine ⟨held, by rw [← Arena.answer_remove, hremoved], ?_⟩
  intro refused next
  have hstill : Saturated { arena with zero := none } memory failure :=
    ⟨hsaturated.keys, hsaturated.slot, hsaturated.full, hsaturated.refused⟩
  have hfirst := hsaturated.cannotFile.handle refused
  have hnext := hstill.cannotFile.handle next
  have hremoval : Session.handle ⟨arena, memory⟩ (.remove .zero) =
      ⟨⟨{ arena with zero := none }, memory⟩, .value held, []⟩ := by
    rw [Session.handle, hremoved]
    rfl
  simp only [Session.run, hfirst, hremoval, hnext]

/-- Whenever an object is refused for want of slots, the session recovers. -/
theorem Session.Reachable.recovers {session : Session V} (hreachable : session.Reachable)
    {value : V} {requested most : Nat}
    (hrefused : (session.handle (.add value)).answer =
      .refused (.capacityExceeded requested most)) :
    ∃ issued, Key.ofInt? session.arena.nextKey = some issued ∧
      session.Recovers (.capacityExceeded requested most) issued := by
  have hsound := hreachable.sound
  have hsaturated : session.arena.Saturated session.memory (.capacityExceeded requested most) :=
    ((Session.answer_eq_refused_iff hsound).1 hrefused).saturated
  have hpositive := hreachable.measured.growAt_pos hsound
  obtain ⟨issued, hissued, _, hnonzero⟩ :=
    Key.exists_ofInt? (Nat.pos_of_ne_zero hsaturated.slot) hsaturated.keys
  refine ⟨issued, hissued, ?_⟩
  constructor
  case withheld =>
    intro ceiling memory object hgranted
    have hissues : ((session.arena.withCeiling ceiling).add memory object).answer = .ok issued :=
      Arena.answer_add_eq_ok_iff.2 ⟨hissued, fun _ _ => hgranted⟩
    rw [Session.handle, Outcome.answer_reply, hissues]
  case live => exact hsaturated.exists_live hsound hpositive
  case removal =>
    exact fun _ hkey hlive =>
      hsaturated.run_removal hsound hpositive hissued hnonzero hkey hlive
  case zero => exact hsaturated.run_removal_zero

/-- Six entries in the slots and one under key zero.  Under a ceiling of eight slots key 7 is kept
back.  Where there is no memory for more slots and only the greatest key is left, the object that a
removal makes room for gets that key, and the next one finds none. -/
theorem Session.Reachable.recovers_saturated :
    let full := ((⟨.plain, {}⟩ : Session Nat).run
      (List.replicate 7 (.add 1) ++ [.setCeiling 8])).1
    let spent := ((⟨.plain, {}⟩ : Session Nat).run
      (List.replicate 7 (.add 1) ++ [.advance 2147483647, .setMemory ⟨some 8⟩])).1
    (full.handle (.add 2)).answer = .refused (.capacityExceeded 16 8) ∧
      full.Recovers (.capacityExceeded 16 8) ⟨7⟩ ∧
      (spent.handle (.add 2)).answer = .refused (.capacityExceeded 16 mostSlots) ∧
      (spent.run [.add 2, .remove ⟨3⟩, .add 4, .add 5]).2 =
        [.refused (.capacityExceeded 16 mostSlots), .value 1, .key ⟨2147483647⟩,
          .refused .keysExhausted] := by
  intro full spent
  have hfull : full.Reachable := (Session.Reachable.plain {}).run (by decide +kernel)
  have hspent : spent.Reachable := (Session.Reachable.plain {}).run (by decide +kernel)
  have hceiling : full.arena.CannotFile full.memory
      (.capacityExceeded (2 * full.arena.capacity) full.arena.ceiling) :=
    .ceiling (by decide +kernel) (by decide +kernel) (by decide +kernel) (by decide +kernel)
  have hmemory : spent.arena.CannotFile spent.memory
      (.capacityExceeded (2 * spent.arena.capacity) mostSlots) :=
    .memory (by decide +kernel) (by decide +kernel) (by decide +kernel) (by decide +kernel)
      (by decide +kernel)
  rw [show full.arena.capacity = 8 by decide +kernel, show full.arena.ceiling = 8 from rfl]
    at hceiling
  rw [show spent.arena.capacity = 8 by decide +kernel] at hmemory
  have hrefused : (full.handle (.add 2)).answer = .refused (.capacityExceeded 16 8) :=
    (Session.answer_eq_refused_iff hfull.sound).2 hceiling
  have hdenied : (spent.handle (.add 2)).answer = .refused (.capacityExceeded 16 mostSlots) :=
    (Session.answer_eq_refused_iff hspent.sound).2 hmemory
  obtain ⟨next, hnext, hrecovers⟩ := Session.Reachable.recovers hfull hrefused
  obtain ⟨last, hlast, hrun⟩ := Session.Reachable.recovers hspent hdenied
  obtain rfl : next = ⟨7⟩ := Option.some.inj (hnext.symm.trans (by decide +kernel))
  obtain rfl : last = ⟨2147483647⟩ := Option.some.inj (hlast.symm.trans (by decide +kernel))
  obtain ⟨held, hget, hanswers⟩ := hrun.removal ⟨3⟩ (by decide) (by decide +kernel)
  have hheld : spent.arena.get ⟨3⟩ = .ok 1 := by
    rw [Arena.get, show spent.arena.get? ⟨3⟩ = some 1 by decide +kernel]
  obtain rfl : held = 1 := Except.ok.inj (hget.symm.trans hheld)
  exact ⟨hrefused, hrecovers, hdenied, (hanswers 2 4 5).1⟩

end KeyedArena
