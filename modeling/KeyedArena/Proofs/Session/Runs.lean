import KeyedArena.Proofs.Arena.Soundness
import KeyedArena.Proofs.Sizing
/-!
Runs of a session that begins with a fresh arena.

A fresh arena is sound, and every request keeps it sound as long as a slot was free before it.
-/

namespace KeyedArena

universe u

variable {V : Type u}

/-- The sessions in which nothing has been asked yet, with the settings they were made from. -/
inductive Session.Fresh : Settings → Session V → Prop where
  | plain (memory : Memory) : Fresh {} ⟨.plain, memory⟩
  | made {settings : Settings} {memory : Memory} {arena : Arena V} {event : Event}
      (hmade : Arena.ofSettings settings memory = .ok (arena, event)) :
      Fresh settings ⟨arena, memory⟩

/-- A slot is free before each of the requests is answered. -/
def Session.Spacious (session : Session V) : List (Request V) → Prop
  | [] => True
  | request :: rest =>
      session.arena.slots.HasRoom ∧ (session.handle request).session.Spacious rest

instance (slots : Slots V) : Decidable slots.HasRoom :=
  decidable_of_iff (∃ index, index < slots.size ∧ (slots.look index).isFree = true) (by
    simp only [Slots.HasRoom, Slot.isFree_iff])

instance Session.decidableSpacious :
    (session : Session V) → (requests : List (Request V)) → Decidable (session.Spacious requests)
  | _, [] => inferInstanceAs (Decidable True)
  | session, request :: rest =>
      have := Session.decidableSpacious (session.handle request).session rest
      inferInstanceAs (Decidable (session.arena.slots.HasRoom ∧
        (session.handle request).session.Spacious rest))

theorem Session.run_cons (session : Session V) (request : Request V) (rest : List (Request V)) :
    session.run (request :: rest) =
      (((session.handle request).session.run rest).1,
        (session.handle request).answer :: ((session.handle request).session.run rest).2) := rfl

theorem Session.run_append (session : Session V) (first second : List (Request V)) :
    (session.run (first ++ second)).1 = ((session.run first).1.run second).1 := by
  induction first generalizing session with
  | nil => rfl
  | cons request rest ih =>
      rw [List.cons_append, Session.run_cons, Session.run_cons]
      exact ih _

theorem Arena.ofSettings_eq_ok {settings : Settings} {memory : Memory} {arena : Arena V}
    {event : Event} (hmade : Arena.ofSettings settings memory = .ok (arena, event)) :
    settings.check = .ok () ∧ ∃ capacity, settings.slots = .ok capacity ∧
      arena = .vacant capacity settings.loadFactor := by
  unfold Arena.ofSettings at hmade
  split at hmade
  · simp at hmade
  · rename_i hcheck
    split at hmade
    · simp at hmade
    · rename_i capacity hslots
      split at hmade
      · simp only [Except.ok.injEq, Prod.mk.injEq] at hmade
        exact ⟨hcheck, capacity, hslots, hmade.1.symm⟩
      · simp at hmade

theorem Settings.check_default : ({} : Settings).check = .ok () :=
  Settings.check_eq_ok_iff.2 (by decide +kernel)

theorem Settings.slots_default : ({} : Settings).slots = .ok 8 :=
  slotsFor_eq_ok_iff.2 (by decide +kernel)

/-- Fresh sessions have a vacant circle of the size that their settings ask for. -/
theorem Session.Fresh.vacant {settings : Settings} {session : Session V}
    (hfresh : session.Fresh settings) :
    settings.check = .ok () ∧ settings.slots = .ok session.arena.capacity ∧
      session.arena = .vacant session.arena.capacity settings.loadFactor := by
  have hsome : settings.check = .ok () ∧ ∃ capacity, settings.slots = .ok capacity ∧
      session.arena = .vacant capacity settings.loadFactor := by
    cases hfresh with
    | plain memory =>
        refine ⟨Settings.check_default, 8, Settings.slots_default, ?_⟩
        unfold Arena.plain
        dsimp only
        rw [Settings.slots_default]
        rfl
    | made hmade => exact Arena.ofSettings_eq_ok hmade
  obtain ⟨hcheck, capacity, hslots, harena⟩ := hsome
  have hcapacity : session.arena.capacity = capacity := by
    rw [harena, Arena.capacity_vacant]
  rw [hcapacity]
  exact ⟨hcheck, hslots, harena⟩

theorem Session.Fresh.sound {settings : Settings} {session : Session V}
    (hfresh : session.Fresh settings) : session.arena.Sound := by
  obtain ⟨_, hslots, harena⟩ := hfresh.vacant
  obtain ⟨hpower, hleast, _, _⟩ := slotsFor_bounds hslots
  rw [harena]
  exact Arena.sound_vacant hpower hleast _

/-- Every state that a session can get into, with a slot free before each request, is sound. -/
theorem Session.Reachable.sound {session : Session V} (hreachable : session.Reachable) :
    session.arena.Sound := by
  induction hreachable with
  | plain memory => exact (Session.Fresh.plain memory).sound
  | made hmade => exact (Session.Fresh.made hmade).sound
  | handle request before room ih => exact ih.step room (Session.step_handle _ request)

theorem Session.Reachable.run {session : Session V} (hreachable : session.Reachable)
    {requests : List (Request V)} (hspacious : session.Spacious requests) :
    (session.run requests).1.Reachable := by
  induction requests generalizing session with
  | nil => exact hreachable
  | cons request rest ih =>
      obtain ⟨hroom, hlater⟩ := hspacious
      exact ih (hreachable.handle request hroom) hlater

/-- A session with a chain of full slots that runs over the end of the circle.  Of its eight slots
the last is the home of keys 15, 16 and 32; key 4 has its own home in slot 1 and stands in the way
of key 32. -/
def Session.wrapped : Session Nat :=
  ((⟨.plain, {}⟩ : Session Nat).run
    [.advance 4, .add 40, .advance 15, .add 150, .add 160, .advance 32, .add 320]).1

theorem Session.reachable_wrapped : Session.wrapped.Reachable :=
  (Session.Reachable.plain {}).run (by decide +kernel)

end KeyedArena
