import KeyedArena.Proofs.Session.Capacity
/-!
Room for what was expected.

The slots that an arena begins with are enough for as many entries as it was made for: the
threshold is not below that number, whatever is lost in rounding when one is worked out from the
other.  So no run resizes the arena before more nonzero keys than that are in use at once.
-/

namespace KeyedArena

universe u

variable {V : Type u}

/-- A sound arena with its first slots, whose threshold covers the entries that it was made for, and
which has filed no more than those. -/
structure Arena.Presized (first expected : Nat) (arena : Arena V) : Prop where
  sound : arena.Sound
  capacity : arena.capacity = first
  covers : expected ≤ arena.growAt
  growAt_le : arena.growAt ≤ first - 1
  filled : arena.filled ≤ expected

theorem Arena.Presized.hasRoom {first expected : Nat} {arena : Arena V}
    (hpresized : arena.Presized first expected) : arena.slots.HasRoom := by
  apply hpresized.sound.hasRoom (Nat.le_trans hpresized.filled hpresized.covers)
  rw [hpresized.capacity]
  exact hpresized.growAt_le

/-- A step after which no more entries are filed than were expected does not resize the arena. -/
theorem Arena.Presized.step {first expected : Nat} {arena after : Arena V}
    (hpresized : arena.Presized first expected) {memory : Memory}
    (hstep : arena.Step memory after) (hwithin : after.filled ≤ expected) :
    after.Presized first expected := by
  have hsound := hpresized.sound.step hpresized.hasRoom hstep
  rcases hstep.unresized_or_grown with hsame | ⟨key, value, hfull, _, rfl⟩
  · constructor
    case sound => exact hsound
    case capacity => exact hsame.capacity.trans hpresized.capacity
    case covers => exact hsame.growAt ▸ hpresized.covers
    case growAt_le => exact hsame.growAt ▸ hpresized.growAt_le
    case filled => exact hwithin
  · -- at the threshold one entry more is more than was expected
    have hmore : arena.filled + 1 ≤ expected := hwithin
    have hcovers := hpresized.covers
    omega

theorem Arena.Presized.run {first expected : Nat} {session : Session V}
    (hpresized : session.arena.Presized first expected) {requests : List (Request V)}
    (hpeak : session.peak requests ≤ expected) :
    (session.run requests).1.arena.Presized first expected := by
  induction requests generalizing session with
  | nil => exact hpresized
  | cons request rest ih =>
      have hstep := session.step_handle request
      have hafter := (hpresized.sound.step hpresized.hasRoom hstep).occupancy_eq
      have hlater := (session.handle request).session.occupancy_le_peak rest
      rw [Session.peak, Nat.max_le] at hpeak
      apply ih _ hpeak.2
      exact hpresized.step hstep (by omega)

theorem Session.Fresh.covers {settings : Settings} {session : Session V}
    (hfresh : session.Fresh settings) :
    settings.expected ≤ threshold session.arena.capacity settings.loadFactor := by
  obtain ⟨hcheck, hslots, _⟩ := hfresh.vacant
  obtain ⟨r, hload, hleast, hgreatest⟩ := Settings.load_of_check hcheck
  exact le_threshold_of_slotsFor hslots hload (by linarith) (by linarith)

theorem Session.Fresh.arena_presized {settings : Settings} {session : Session V}
    (hfresh : session.Fresh settings) :
    session.arena.Presized session.arena.capacity settings.expected := by
  obtain ⟨_, _, harena⟩ := hfresh.vacant
  have hgrowAt : session.arena.growAt = threshold session.arena.capacity settings.loadFactor :=
    congrArg Arena.growAt harena
  have hfilled : session.arena.filled = 0 := congrArg Arena.filled harena
  constructor
  case sound => exact hfresh.sound
  case capacity => rfl
  case covers => exact hgrowAt ▸ hfresh.covers
  case growAt_le => exact hgrowAt ▸ threshold_le _ _
  case filled => exact hfilled ▸ Nat.zero_le _

/-- The threshold of a fresh arena is not below the number of entries that it was made for, and
leaves a slot free.  So the slots are still the first ones after every run on the way of which no
more nonzero keys than that were in use at once. -/
theorem Session.Fresh.presized {settings : Settings} {session : Session V}
    (hfresh : session.Fresh settings) :
    settings.expected ≤ threshold session.arena.capacity settings.loadFactor ∧
      threshold session.arena.capacity settings.loadFactor ≤ session.arena.capacity - 1 ∧
      ∀ requests : List (Request V), session.peak requests ≤ settings.expected →
        (session.run requests).1.arena.capacity = session.arena.capacity := by
  refine ⟨hfresh.covers, threshold_le _ _, ?_⟩
  intro requests hpeak
  exact (hfresh.arena_presized.run hpeak).capacity

/-- Seven entries expected at a load factor of 99 hundredths: eight slots. -/
theorem Arena.ofSettings_dense :
    Arena.ofSettings { expected := 7, loadFactor := 0.99 } {} =
      .ok ((.vacant 8 0.99 : Arena V), .sized 7 8 0.99) := by
  have hcheck : Settings.check { expected := 7, loadFactor := 0.99 } = .ok () :=
    Settings.check_eq_ok_iff.2 (by decide +kernel)
  have hslots : Settings.slots { expected := 7, loadFactor := 0.99 } = .ok 8 :=
    slotsFor_eq_ok_iff.2 (by decide +kernel)
  unfold Arena.ofSettings
  rw [hcheck, hslots]
  rfl

/-- Seven nonzero keys at once and the zero key on top, two of them removed and others issued
instead, leave these eight slots. -/
theorem Session.Fresh.presized_dense :
    7 ≤ threshold 8 0.99 ∧
      ((⟨.vacant 8 0.99, {}⟩ : Session Nat).run
        (List.replicate 8 (.add 1) ++
          [.remove ⟨3⟩, .duplicate ⟨5⟩, .remove ⟨8⟩, .add 2])).1.arena.capacity = 8 := by
  have hfresh : Session.Fresh { expected := 7, loadFactor := 0.99 }
      (⟨.vacant 8 0.99, {}⟩ : Session Nat) := .made Arena.ofSettings_dense
  have hcapacity : (Arena.vacant 8 0.99 : Arena Nat).capacity = 8 := Arena.capacity_vacant 8 0.99
  obtain ⟨hcovers, _, hkept⟩ := Session.Fresh.presized hfresh
  rw [hcapacity] at hcovers hkept
  exact ⟨hcovers, hkept _ (by decide +kernel)⟩

end KeyedArena
