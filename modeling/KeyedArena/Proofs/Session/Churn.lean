import KeyedArena.Proofs.Arena.Occupancy
import KeyedArena.Proofs.Session.Representation
import KeyedArena.Proofs.Slots.Displacement
/-!
What churn leaves no trace of.

Two arenas of one size that hold the same keys may hold them in different slots: which of two keys
with one home comes first depends on what was filed, removed and rehashed before.  Which slots are
full does not, nor does the distance of all entries together from their homes.
-/

namespace KeyedArena

universe u v

variable {V : Type u} {W : Type v}

/-- Whatever led to them, two arenas with as many slots and the same nonzero keys have the same full
slots, and so has a fresh circle of that size in which these keys are filed, in any order. -/
theorem Session.Reachable.footprint_eq {first : Session V} {second : Session W}
    (hfirst : first.Reachable) (hsecond : second.Reachable)
    (hcapacity : first.arena.capacity = second.arena.capacity)
    (hkeys : ∀ key, key ≠ .zero → (key ∈ first.arena.keys ↔ key ∈ second.arena.keys)) :
    first.arena.slots.occupied = second.arena.slots.occupied ∧
      ∀ filed : List (Key × V),
        (filed.map Prod.fst).Perm (first.arena.keys.filter (· ≠ .zero)) →
          first.arena.slots.occupied =
            (Slots.ofEntries first.arena.capacity filed).occupied := by
  have hsound := hfirst.sound
  constructor
  · apply hsound.slots.occupied_eq hsecond.sound.slots hcapacity
    intro key
    rw [← hsound.nonzero_keys, ← hsecond.sound.nonzero_keys, List.mem_filter, List.mem_filter,
      decide_eq_true_iff]
    exact and_congr_left (hkeys key)
  · intro filed hfiled
    rw [hsound.nonzero_keys] at hfiled
    exact hsound.slots.occupied_eq_ofEntries hfiled

/-- Keys 15 and 16 have one home.  Growth, which files entries anew in slot order, puts the later of
them first; filed after growth, they stand in order.  They fill the same two slots, and so they do
when filed in a fresh circle. -/
theorem Session.Reachable.footprint_eq_swapped :
    let grown := ((⟨.plain, {}⟩ : Session Nat).run
      ([.advance 15] ++ List.replicate 7 (.add 1) ++
        [.remove ⟨17⟩, .remove ⟨18⟩, .remove ⟨19⟩, .remove ⟨20⟩, .remove ⟨21⟩])).1
    let refilled := ((⟨.plain, {}⟩ : Session Nat).run
      (List.replicate 8 (.add 1) ++
        [.remove ⟨1⟩, .remove ⟨2⟩, .remove ⟨3⟩, .remove ⟨4⟩, .remove ⟨5⟩, .remove ⟨6⟩,
          .remove ⟨7⟩, .advance 15, .add 1, .add 1])).1
    grown.arena.slotKeys ≠ refilled.arena.slotKeys ∧
      grown.arena.slots.occupied = refilled.arena.slots.occupied ∧
      grown.arena.slots.occupied =
        (Slots.ofEntries grown.arena.capacity [(⟨15⟩, 1), (⟨16⟩, 1)]).occupied := by
  intro grown refilled
  have hgrown : grown.Reachable := (Session.Reachable.plain {}).run (by decide +kernel)
  have hrefilled : refilled.Reachable := (Session.Reachable.plain {}).run (by decide +kernel)
  have hgrownKeys : grown.arena.keys = [⟨16⟩, ⟨15⟩] := by decide +kernel
  have hrefilledKeys : refilled.arena.keys = [.zero, ⟨15⟩, ⟨16⟩] := by decide +kernel
  have hcapacity : grown.arena.capacity = refilled.arena.capacity := by decide +kernel
  have hkeys : ∀ key, key ≠ .zero → (key ∈ grown.arena.keys ↔ key ∈ refilled.arena.keys) := by
    intro key hnonzero
    rw [hgrownKeys, hrefilledKeys]
    simp [hnonzero, or_comm]
  obtain ⟨hsame, hanew⟩ := Session.Reachable.footprint_eq hgrown hrefilled hcapacity hkeys
  refine ⟨by decide +kernel, hsame, hanew _ ?_⟩
  rw [hgrownKeys]
  decide

/-- Filing, removing and growing leave a slot that ends every walk, even if they fill the circle. -/
theorem Arena.Sound.exists_endsWalks_step {arena after : Arena V} (hsound : arena.Sound)
    (hroom : arena.slots.HasRoom) {memory : Memory} (hstep : arena.Step memory after) :
    ∃ last, after.slots.EndsWalks last := by
  have hstill : ∃ last, arena.slots.EndsWalks last := hsound.slots.exists_endsWalks hroom
  cases hstep with
  | stay => exact hstill
  | file hfiling =>
      cases hfiling with
      | refused failure => exact hstill
      | zero hnext => exact hstill
      | filed hkey hnonzero hslack => exact hsound.slots.exists_endsWalks_place hroom _ _
      | grown hkey hnonzero hfull hgrowth =>
          exact hsound.grown.slots.exists_endsWalks_place hsound.hasRoom_grown _ _
  | remove hremoval =>
      cases hremoval with
      | absent hnone => exact hstill
      | zero hkey hvalue => exact hstill
      | @freed index value hnonzero hfull =>
          have hfreed := hsound.free hroom hfull
          have hfilled := hsound.hasRoom_iff.1 hroom
          have hcapacity := arena.capacity_free index
          have hcount : (arena.free index).1.filled = arena.filled - 1 := rfl
          exact hfreed.slots.exists_endsWalks (hfreed.hasRoom_iff.2 (by omega))
  | advance key => exact hstill
  | withCeiling ceiling => exact hstill

theorem Session.Fresh.exists_endsWalks {settings : Settings} {session : Session V}
    (hfresh : session.Fresh settings) : ∃ last, session.arena.slots.EndsWalks last := by
  have hsound := hfresh.sound
  refine ⟨0, hsound.slots.endsWalks hsound.size_pos ?_⟩
  rw [hfresh.vacant.2.2]
  exact Slots.look_vacant _ 0

theorem Session.Reachable.exists_endsWalks {session : Session V} (hreachable : session.Reachable) :
    ∃ last, session.arena.slots.EndsWalks last := by
  cases hreachable with
  | plain memory => exact (Session.Fresh.plain memory).exists_endsWalks
  | made hmade => exact (Session.Fresh.made hmade).exists_endsWalks
  | handle request before room =>
      exact before.sound.exists_endsWalks_step room (Session.step_handle _ request)

theorem Arena.Sound.totalDisplacement_cast {arena : Arena V} (hsound : arena.Sound) :
    (arena.slots.totalDisplacement : Int) =
      ∑ index ∈ arena.slots.occupied,
        ((index : Int) - (arena.rawKey index).hash.toNat) % arena.capacity := by
  rw [Slots.totalDisplacement, Nat.cast_sum]
  apply Finset.sum_congr rfl
  intro index hindex
  obtain ⟨key, hkey⟩ := Slots.exists_key_of_mem_occupied hindex
  rw [Slots.displacement_of_key? hkey, Arena.rawKey_eq, hkey, Option.getD_some]
  exact Key.distance_home hsound.size_pos key index

/-- Added up over the full slots, the distances from the home of the key to its slot come to the
same in any two arenas with as many slots and the same nonzero keys, whatever led to them, and in a
fresh circle of that size in which these keys are filed, in any order. -/
theorem Session.Reachable.totalDisplacement_eq {first : Session V} {second : Session W}
    (hfirst : first.Reachable) (hsecond : second.Reachable)
    (hcapacity : first.arena.capacity = second.arena.capacity)
    (hkeys : ∀ key, key ≠ .zero → (key ∈ first.arena.keys ↔ key ∈ second.arena.keys)) :
    (first.arena.slots.totalDisplacement : Int) =
        ∑ index ∈ first.arena.slots.occupied,
          ((index : Int) - (first.arena.rawKey index).hash.toNat) % first.arena.capacity ∧
      first.arena.slots.totalDisplacement = second.arena.slots.totalDisplacement ∧
      ∀ filed : List (Key × V),
        (filed.map Prod.fst).Perm (first.arena.keys.filter (· ≠ .zero)) →
          first.arena.slots.totalDisplacement =
            (Slots.ofEntries first.arena.capacity filed).totalDisplacement := by
  have hsound := hfirst.sound
  have hends := hfirst.exists_endsWalks
  refine ⟨hsound.totalDisplacement_cast, ?_, ?_⟩
  · apply hsound.slots.totalDisplacement_congr hsecond.sound.slots hcapacity ?_ hends
      hsecond.exists_endsWalks
    rw [List.perm_ext_iff_of_nodup hsound.slots.keys_nodup hsecond.sound.slots.keys_nodup]
    intro key
    rw [← hsound.nonzero_keys, ← hsecond.sound.nonzero_keys, List.mem_filter, List.mem_filter,
      decide_eq_true_iff]
    exact and_congr_left (hkeys key)
  · intro filed hfiled
    rw [hsound.nonzero_keys] at hfiled
    exact hsound.slots.totalDisplacement_refilled hsound.size_pos hends hfiled

/-- The four keys fill the last slot and the first three.  After growth key 33 is at its home and key
32 three slots beyond; filed after growth, they stand the other way round.  All together they are
four slots from their homes. -/
theorem Session.Reachable.totalDisplacement_eq_wrapped :
    let grown := ((⟨.plain, {}⟩ : Session Nat).run
      [.advance 10, .add 1, .advance 31, .add 1, .add 1, .add 1, .add 1, .add 1, .add 1,
        .remove ⟨34⟩, .remove ⟨35⟩, .remove ⟨36⟩]).1
    let refilled := ((⟨.plain, {}⟩ : Session Nat).run
      [.add 1, .add 1, .add 1, .add 1, .add 1, .add 1, .add 1, .add 1, .remove ⟨1⟩, .remove ⟨2⟩,
        .remove ⟨3⟩, .remove ⟨4⟩, .remove ⟨5⟩, .remove ⟨6⟩, .remove ⟨7⟩, .advance 10, .add 1,
        .advance 31, .add 1, .add 1, .add 1]).1
    grown.arena.slotKeys ≠ refilled.arena.slotKeys ∧
      grown.arena.slots.totalDisplacement = 4 ∧
      grown.arena.slots.totalDisplacement = refilled.arena.slots.totalDisplacement ∧
      grown.arena.slots.totalDisplacement =
        (Slots.ofEntries grown.arena.capacity
          [(⟨33⟩, 1), (⟨31⟩, 1), (⟨10⟩, 1), (⟨32⟩, 1)]).totalDisplacement := by
  intro grown refilled
  have hgrown : grown.Reachable := (Session.Reachable.plain {}).run (by decide +kernel)
  have hrefilled : refilled.Reachable := (Session.Reachable.plain {}).run (by decide +kernel)
  have hgrownKeys : grown.arena.keys = [⟨10⟩, ⟨31⟩, ⟨32⟩, ⟨33⟩] := by decide +kernel
  have hrefilledKeys : refilled.arena.keys = [.zero, ⟨10⟩, ⟨31⟩, ⟨33⟩, ⟨32⟩] := by decide +kernel
  have hcapacity : grown.arena.capacity = refilled.arena.capacity := by decide +kernel
  have hkeys : ∀ key, key ≠ .zero → (key ∈ grown.arena.keys ↔ key ∈ refilled.arena.keys) := by
    intro key hnonzero
    rw [hgrownKeys, hrefilledKeys]
    simp [hnonzero, or_comm]
  obtain ⟨_, hsame, hanew⟩ :=
    Session.Reachable.totalDisplacement_eq hgrown hrefilled hcapacity hkeys
  refine ⟨by decide +kernel, by decide +kernel, hsame, hanew _ ?_⟩
  rw [hgrownKeys]
  decide

end KeyedArena
