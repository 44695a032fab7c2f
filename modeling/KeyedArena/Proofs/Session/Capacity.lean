import KeyedArena.Proofs.Arena.Occupancy
import KeyedArena.Proofs.Session.Runs
/-!
The number of slots as a matter of the past.

In any run from a fresh arena the slots are the first ones doubled as often as the greatest number
of nonzero keys ever in use at once called for.  Nothing else that happened on the way shows in it.
-/

namespace KeyedArena

universe u

variable {V : Type u}

/-- The settings with which growth keeps up: some entry is expected, or more than one slot in eight
is filled. -/
def Settings.KeepsPace (settings : Settings) : Prop :=
  1 ≤ settings.expected ∨ ∃ r, Extended.ofFloat settings.loadFactor = .real r ∧ 1 / 8 < r

/-- With such settings every doubling raises the threshold, from the first slots on. -/
theorem Settings.KeepsPace.paced {settings : Settings} (hpace : settings.KeepsPace)
    (hcheck : settings.check = .ok ()) {first : Nat} (hslots : settings.slots = .ok first) :
    Paced settings.loadFactor first := by
  obtain ⟨r, hload, hleast, hgreatest⟩ := Settings.load_of_check hcheck
  refine ⟨r, hload, hleast, hgreatest, ?_⟩
  rcases hpace with hsome | ⟨other, hother, heighth⟩
  · exact slotsFor_half hslots hload (by linarith) (by linarith) hsome
  · have hsame : r = other := by
      rw [hload, Extended.real.injEq] at hother
      exact hother
    have hfour : (4 : Rat) ≤ first := by exact_mod_cast (slotsFor_bounds hslots).2.1
    rw [← hsame] at heighth
    calc (1 : Rat) / 2 = 4 * (1 / 8) := by norm_num
      _ < 4 * r := by linarith
      _ ≤ first * r := by gcongr

theorem Session.Fresh.fitted {settings : Settings} {session : Session V}
    (hfresh : session.Fresh settings) :
    session.arena.Fitted settings.loadFactor session.arena.capacity 0 := by
  obtain ⟨_, hslots, harena⟩ := hfresh.vacant
  obtain ⟨_, _, hmost, _⟩ := slotsFor_bounds hslots
  constructor
  case sound => exact hfresh.sound
  case load => exact congrArg Arena.loadFactor harena
  case growAt => exact congrArg Arena.growAt harena
  case filled => exact Nat.le_of_eq (congrArg Arena.filled harena)
  case least => exact LeastFor.start _ _
  case bounded =>
    unfold mostSlots at hmost
    omega

theorem Session.Fresh.paced {settings : Settings} {session : Session V}
    (hfresh : session.Fresh settings) (hpace : settings.KeepsPace) :
    Paced settings.loadFactor session.arena.capacity := by
  obtain ⟨hcheck, hslots, _⟩ := hfresh.vacant
  exact hpace.paced hcheck hslots

/-- The greatest number of nonzero keys in use at once in a run, its beginning and end included. -/
def Session.peak (session : Session V) : List (Request V) → Nat
  | [] => session.arena.occupancy
  | request :: rest =>
      max session.arena.occupancy ((session.handle request).session.peak rest)

theorem Session.occupancy_le_peak (session : Session V) (requests : List (Request V)) :
    session.arena.occupancy ≤ session.peak requests := by
  cases requests with
  | nil => exact Nat.le_refl _
  | cons request rest => exact Nat.le_max_left _ _

/-- A fitted arena ends a run fitted, to the peak of the run. -/
theorem Arena.Fitted.run {loadFactor : Float} {first peak : Nat} {session : Session V}
    (hfitted : session.arena.Fitted loadFactor first peak) (hpaced : Paced loadFactor first)
    (requests : List (Request V)) :
    (session.run requests).1.arena.Fitted loadFactor first
      (max peak (session.peak requests)) := by
  induction requests generalizing session peak with
  | nil =>
      have hfilled := hfitted.filled
      have hpeak : session.peak [] = session.arena.filled := hfitted.sound.occupancy_eq
      rw [hpeak, Nat.max_eq_left hfilled]
      exact hfitted
  | cons request rest ih =>
      have hfilled := hfitted.filled
      have hbefore := hfitted.sound.occupancy_eq
      have hstep := hfitted.step hpaced (session.step_handle request)
      have hafter := hstep.sound.occupancy_eq
      have hlater := (session.handle request).session.occupancy_le_peak rest
      have hend := ih hstep
      -- the new occupancy is already part of the peak of what follows
      have hsame : max (max peak (session.handle request).session.arena.filled)
          ((session.handle request).session.peak rest) =
            max peak (session.peak (request :: rest)) := by
        rw [Session.peak]
        omega
      rw [hsame] at hend
      exact hend

/-- Filing never takes slots away, and adds some only for a nonzero key. -/
theorem Arena.Filing.capacity {arena after : Arena V} {memory : Memory} {value : V}
    {answer : Except Failure Key} (hfiling : arena.Filing memory value answer after) :
    arena.capacity ≤ after.capacity ∧
      ((∀ key, answer = .ok key → key = .zero) → after.capacity = arena.capacity) := by
  cases hfiling with
  | refused failure => exact ⟨Nat.le_refl _, fun _ => rfl⟩
  | zero hnext => exact ⟨Nat.le_refl _, fun _ => rfl⟩
  | filed hkey hnonzero hslack =>
      have hcapacity := arena.capacity_file
      exact ⟨Nat.le_of_eq (hcapacity _ _).symm, fun _ => hcapacity _ _⟩
  | grown hkey hnonzero hfull hgrowth =>
      refine ⟨?_, fun hzero => absurd (hzero _ rfl) hnonzero⟩
      rw [Arena.capacity_file, Arena.capacity_grown]
      exact Nat.le_mul_of_pos_left _ Nat.two_pos

theorem Arena.Removal.capacity {arena after : Arena V} {key : Key} {answer : Except Failure V}
    (hremoval : arena.Removal key answer after) : after.capacity = arena.capacity := by
  cases hremoval with
  | absent hnone => rfl
  | zero hkey hvalue => rfl
  | freed hnonzero hfull => exact arena.capacity_free _

theorem Session.capacity_handle (session : Session V) (request : Request V) :
    session.arena.capacity ≤ (session.handle request).session.arena.capacity ∧
      ((∀ key, (session.handle request).answer = .key key → key = .zero) →
        (session.handle request).session.arena.capacity = session.arena.capacity) := by
  obtain ⟨arena, memory⟩ := session
  have hfiled : ∀ value, arena.capacity ≤ (arena.add memory value).arena.capacity ∧
      ((∀ key, ((arena.add memory value).reply memory Answer.key).answer = .key key →
        key = .zero) → (arena.add memory value).arena.capacity = arena.capacity) := by
    intro value
    obtain ⟨hmore, hsame⟩ := (arena.filing_add memory value).capacity
    refine ⟨hmore, fun hzero => hsame fun key hkey => hzero key ?_⟩
    rw [Outcome.answer_reply, hkey]
  cases request with
  | add value =>
      rw [Session.handle, Outcome.arena_reply]
      exact hfiled value
  | duplicate key =>
      rw [Session.handle, Outcome.arena_reply, Arena.duplicate]
      cases arena.get? key with
      | none => exact ⟨Nat.le_refl _, fun _ => rfl⟩
      | some value => exact hfiled value
  | remove key =>
      rw [Session.handle, Outcome.arena_reply]
      have hcapacity := (arena.removal_remove key).capacity
      exact ⟨Nat.le_of_eq hcapacity.symm, fun _ => hcapacity⟩
  | get key => exact ⟨Nat.le_refl _, fun _ => rfl⟩
  | contains key => exact ⟨Nat.le_refl _, fun _ => rfl⟩
  | size => exact ⟨Nat.le_refl _, fun _ => rfl⟩
  | isEmpty => exact ⟨Nat.le_refl _, fun _ => rfl⟩
  | advance key => exact ⟨Nat.le_refl _, fun _ => rfl⟩
  | setCeiling ceiling => exact ⟨Nat.le_refl _, fun _ => rfl⟩
  | setMemory memory => exact ⟨Nat.le_refl _, fun _ => rfl⟩

/-- From a fresh arena whose growth keeps up, any run whatsoever leads to a state in which the
count is within the threshold and the threshold leaves a slot free; the slots are the first ones
doubled until the threshold reaches the peak of the run, and no further.  No later request takes
slots away, and none adds any unless it is answered with a nonzero key. -/
theorem Session.capacity_law {settings : Settings} {session : Session V}
    (hfresh : session.Fresh settings) (hpace : settings.KeepsPace)
    (requests : List (Request V)) :
    (session.run requests).1.arena.filled ≤ (session.run requests).1.arena.growAt ∧
      (session.run requests).1.arena.growAt =
        threshold (session.run requests).1.arena.capacity settings.loadFactor ∧
      (session.run requests).1.arena.growAt ≤ (session.run requests).1.arena.capacity - 1 ∧
      LeastFor settings.loadFactor session.arena.capacity (session.peak requests)
        (session.run requests).1.arena.capacity ∧
      ∀ request,
        (session.run requests).1.arena.capacity ≤
          ((session.run requests).1.handle request).session.arena.capacity ∧
        ((∀ key, ((session.run requests).1.handle request).answer = .key key → key = .zero) →
          ((session.run requests).1.handle request).session.arena.capacity =
            (session.run requests).1.arena.capacity) := by
  have hfitted := hfresh.fitted.run (hfresh.paced hpace) requests
  rw [Nat.zero_max] at hfitted
  exact ⟨Nat.le_trans hfitted.filled hfitted.peak_le_growAt, hfitted.growAt, hfitted.growAt_le,
    hfitted.least, fun request => (session.run requests).1.capacity_handle request⟩

/-- Seven nonzero keys at once take the eight slots past their threshold of six.  The sixteen slots
stay when two of the keys have been removed again. -/
theorem Session.capacity_law_after_removal :
    let session : Session Nat := ⟨.plain, {}⟩
    let requests : List (Request Nat) := List.replicate 8 (.add 7) ++ [.remove ⟨2⟩, .remove ⟨3⟩]
    Settings.KeepsPace {} ∧ session.arena.capacity = 8 ∧ session.peak requests = 7 ∧
      (session.run requests).1.arena.filled = 5 ∧ (session.run requests).1.arena.capacity = 16 ∧
      (session.run requests).1.arena.filled ≤ (session.run requests).1.arena.growAt ∧
      LeastFor 0.75 8 7 16 := by
  intro session requests
  have hpace : Settings.KeepsPace {} := .inl (by decide)
  have hfirst : session.arena.capacity = 8 := by decide +kernel
  have hpeak : session.peak requests = 7 := by decide +kernel
  have hlast : (session.run requests).1.arena.capacity = 16 := by decide +kernel
  have hfresh : session.Fresh {} := .plain {}
  obtain ⟨hfilled, _, _, hleast, _⟩ := Session.capacity_law hfresh hpace requests
  rw [hpeak, hfirst, hlast] at hleast
  exact ⟨hpace, hfirst, hpeak, by decide +kernel, hlast, hfilled, hleast⟩

/-- A fresh arena whose growth keeps up never lacks a free slot. -/
theorem Session.Fresh.spacious {settings : Settings} {session : Session V}
    (hfresh : session.Fresh settings) (hpace : settings.KeepsPace)
    (requests : List (Request V)) : session.Spacious requests := by
  have hpaced := hfresh.paced hpace
  have hfitted := hfresh.fitted
  generalize session.arena.capacity = first at hpaced hfitted
  generalize 0 = peak at hfitted
  clear hfresh
  induction requests generalizing session peak with
  | nil => trivial
  | cons request rest ih =>
      exact ⟨hfitted.hasRoom, ih _ (hfitted.step hpaced (session.step_handle request))⟩

end KeyedArena
