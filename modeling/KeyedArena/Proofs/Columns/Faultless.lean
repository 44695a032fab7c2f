import KeyedArena.Proofs.Arena.Occupancy
import KeyedArena.Proofs.Columns.Sweeps
import KeyedArena.Proofs.Columns.Walks
import KeyedArena.Proofs.Session.Runs
/-!
Tables without faults.

A table made from a sound arena with a free slot does what the arena does and meets no fault on the
way, as long as the numbers of slots stay small enough for words.  Whatever keeps the arena sound
keeps that true, so no run of requests that leaves a slot free before each of them has a fault.
-/

namespace KeyedArena

open Checked

variable {V : Type}

/-- A sound arena that neither has nor may get more than the most slots. -/
structure Arena.Tabular (arena : Arena V) : Prop where
  sound : arena.Sound
  capacity_le : arena.capacity ≤ mostSlots
  ceiling_le : arena.ceiling ≤ mostSlots

theorem Arena.Tabular.addressable {arena : Arena V} (htabular : arena.Tabular) :
    Addressable arena.slots.size := .of_le htabular.sound.power htabular.capacity_le

theorem Arena.Tabular.word_filled {arena : Arena V} (htabular : arena.Tabular) {more : Nat}
    (hmore : more ≤ 1) : word (arena.filled + more) = .ok (arena.filled + more) := by
  have hfilled := htabular.sound.filled_le
  have hcapacity := htabular.capacity_le
  have hpositive : 0 < arena.capacity := htabular.sound.size_pos
  exact word_of_le_slots (by omega)

theorem Arena.Tabular.find_table {arena : Arena V} (htabular : arena.Tabular)
    (hroom : arena.slots.HasRoom) {key : Key} (hkey : key ≠ .zero) :
    find arena.table.columns.keys arena.table.mask key = .ok (arena.slots.locate? key) :=
  Slots.find_eq htabular.addressable htabular.sound.slots.nonzero hroom hkey

theorem Arena.Tabular.get?_table {arena : Arena V} (htabular : arena.Tabular)
    (hroom : arena.slots.HasRoom) (key : Key) : arena.table.get? key = .ok (arena.get? key) := by
  rw [Table.get?, Arena.get?]
  by_cases hzero : key = .zero
  · rw [if_pos hzero, if_pos hzero]
    rfl
  · rw [if_neg hzero, if_neg hzero, htabular.find_table hroom hzero, ok_bind]
    cases hlocated : arena.slots.locate? key with
    | none => rfl
    | some index =>
        have hindex := Slots.lt_size_of_key? (Slots.key?_of_locate? hlocated)
        exact Slots.read_objects hindex

theorem Arena.Tabular.get_table {arena : Arena V} (htabular : arena.Tabular)
    (hroom : arena.slots.HasRoom) (key : Key) : arena.table.get key = .ok (arena.get key) := by
  rw [Table.get, htabular.get?_table hroom, ok_bind, Arena.get]
  cases arena.get? key <;> rfl

theorem Arena.Tabular.contains_table {arena : Arena V} (htabular : arena.Tabular)
    (hroom : arena.slots.HasRoom) (key : Key) :
    arena.table.contains key = .ok (arena.contains key) := by
  rw [Table.contains, Arena.contains]
  by_cases hzero : key = .zero
  · rw [if_pos hzero, if_pos hzero]
    rfl
  · rw [if_neg hzero, if_neg hzero, htabular.find_table hroom hzero]
    rfl

theorem Arena.Tabular.size_table {arena : Arena V} (htabular : arena.Tabular) :
    arena.table.size = .ok arena.size := by
  apply htabular.word_filled
  split <;> decide

/-- Doubling the slots of a table and filing a key in them. -/
theorem Arena.Tabular.grow_table {arena : Arena V} (htabular : arena.Tabular) (memory : Memory)
    {key : Key} (hkey : key ≠ .zero) (hfresh : ∀ index, (arena.slots.look index).key? ≠ some key)
    (value : V) :
    arena.table.grow memory key value = .ok (match arena.growthRefusal? memory with
      | some (failure, _) => .error failure
      | none => .ok { (arena.grown.file key value).table with filled := arena.filled }) := by
  have hmost := htabular.capacity_le
  have hceilingMost := htabular.ceiling_le
  have hpositive : 0 < arena.capacity := htabular.sound.size_pos
  have hround : arena.table.mask + 1 = arena.capacity := Nat.sub_add_cancel hpositive
  have hceilingTable : arena.table.ceiling = arena.ceiling := rfl
  rw [Table.grow, hround, word_of_le_slots (by omega), ok_bind, Nat.mul_comm,
    word_of_le_slots (by omega), ok_bind, Arena.growthRefusal?, hceilingTable]
  by_cases hceiling : arena.ceiling < 2 * arena.capacity
  · rw [if_pos hceiling, if_pos hceiling]
    rfl
  · rw [if_neg hceiling, if_neg hceiling]
    by_cases hmemory : memory.permits (2 * arena.capacity) = true
    · rw [if_pos hmemory, if_pos hmemory]
      have hdoubled : Addressable (2 * arena.capacity) := by
        refine .of_le ?_ (by omega)
        rw [Nat.mul_comm]
        exact Nat.isPowerOfTwo_mul_two_of_isPowerOfTwo htabular.sound.power
      have hgrown : arena.grown.slots.size = 2 * arena.capacity := arena.capacity_grown
      have hmoved : (Columns.vacant (2 * arena.capacity)).placeAll (2 * arena.capacity - 1)
          arena.table.columns = .ok arena.grown.slots.columns :=
        htabular.sound.slots.placeAll_columns hdoubled
          (Nat.le_mul_of_pos_left arena.capacity Nat.two_pos)
      have hplaced : arena.grown.slots.columns.place (2 * arena.capacity - 1) key (some value) =
          .ok (arena.grown.file key value).slots.columns := by
        rw [← hgrown]
        exact htabular.sound.hasRoom_grown.place_columns (hgrown.symm ▸ hdoubled)
          htabular.sound.entries_grown.1.nonzero hkey
          (htabular.sound.wellFormed.fresh_grown hfresh) value
      have hmask : pred (2 * arena.capacity) = .ok (2 * arena.capacity - 1) :=
        if_neg (by omega)
      have hsize : (arena.grown.file key value).capacity = 2 * arena.capacity :=
        (Slots.size_place _ _ _).trans hgrown
      have hmaskTable : 2 * arena.capacity - 1 = (arena.grown.file key value).table.mask :=
        congrArg (· - 1) hsize.symm
      rw [hmask, ok_bind, hmoved, ok_bind, hplaced, ok_bind, hmaskTable]
      rfl
    · rw [if_neg hmemory, if_neg hmemory]
      rfl

/-- The key after the next one is a signed word, if the next one is a key. -/
theorem Checked.counter_succ {n : Nat} {key : Key} (hkey : Key.ofInt? n = some key) :
    counter (n + 1) = .ok (n + 1) := by
  have hvalue := Key.toInt_of_ofInt? hkey
  have hgreatest := key.raw.toInt_lt
  unfold Key.toInt at hvalue
  exact if_pos (by unfold greatestCounter; omega)

theorem Table.count_eq {table : Table V} (hword : word (table.filled + 1) = .ok (table.filled + 1)) :
    table.count = .ok { table with filled := table.filled + 1 } := by
  rw [Table.count, hword]
  rfl

theorem Table.issue_eq {table : Table V}
    (hcounter : counter (table.nextKey + 1) = .ok (table.nextKey + 1)) :
    table.issue = .ok { table with nextKey := table.nextKey + 1 } := by
  rw [Table.issue, hcounter]
  rfl

theorem Arena.Tabular.add_table {arena : Arena V} (htabular : arena.Tabular)
    (hroom : arena.slots.HasRoom) (memory : Memory) (value : V) :
    arena.table.add memory value =
      .ok ((arena.add memory value).answer, (arena.add memory value).arena.table) := by
  have hnextTable : arena.table.nextKey = arena.nextKey := rfl
  have hfilledTable : arena.table.filled = arena.filled := rfl
  have hgrowAtTable : arena.table.growAt = arena.growAt := rfl
  have hword := htabular.word_filled (Nat.le_refl 1)
  rw [Table.add, Arena.add, hnextTable, hfilledTable, hgrowAtTable]
  cases hnext : Key.ofInt? arena.nextKey with
  | none => rfl
  | some key =>
      have hkey := Key.toInt_of_ofInt? hnext
      have hcounter := counter_succ hnext
      dsimp only
      by_cases hzero : key = .zero
      · have hvacant : arena.table.zero = none := by
          rw [hzero, Key.toInt_zero] at hkey
          by_contra hheld
          have hissued := htabular.sound.zeroIssued (Option.isSome_iff_ne_none.2 hheld)
          omega
        rw [if_pos hzero, if_pos hzero, hvacant]
        simp only [require, Option.isNone_none, if_true, ok_bind]
        rw [Table.issue_eq hcounter]
        rfl
      · rw [if_neg hzero, if_neg hzero]
        have hfresh := htabular.sound.next_fresh hkey
        by_cases hfull : arena.filled = arena.growAt
        · rw [if_pos hfull, if_pos hfull, htabular.grow_table memory hzero hfresh value, ok_bind]
          cases hgrowth : arena.growthRefusal? memory with
          | some refusal => rfl
          | none =>
              dsimp only
              rw [Table.count_eq hword, ok_bind, Table.issue_eq hcounter]
              rfl
        · have hmaskTable : arena.table.mask = (arena.file key value).table.mask :=
            congrArg (· - 1) (arena.slots.size_place key value).symm
          have hplaced : arena.table.columns.place arena.table.mask key (some value) =
              .ok (arena.slots.place key value).columns :=
            hroom.place_columns htabular.addressable htabular.sound.slots.nonzero hzero hfresh value
          rw [if_neg hfull, if_neg hfull, hplaced, ok_bind, Table.count_eq hword, ok_bind,
            Table.issue_eq hcounter, ok_bind, hmaskTable]
          rfl

theorem Arena.Tabular.duplicate_table {arena : Arena V} (htabular : arena.Tabular)
    (hroom : arena.slots.HasRoom) (memory : Memory) (key : Key) :
    arena.table.duplicate memory key =
      .ok ((arena.duplicate memory key).answer, (arena.duplicate memory key).arena.table) := by
  rw [Table.duplicate, htabular.get_table hroom, ok_bind, Arena.get, Arena.duplicate]
  cases arena.get? key with
  | none => rfl
  | some value => exact htabular.add_table hroom memory value

theorem Arena.Tabular.remove_table {arena : Arena V} (htabular : arena.Tabular)
    (hroom : arena.slots.HasRoom) (key : Key) :
    arena.table.remove key =
      .ok ((arena.remove key).answer, (arena.remove key).arena.table) := by
  rw [Table.remove, Arena.remove]
  by_cases hzero : key = .zero
  · have hzeroTable : arena.table.zero = arena.zero := rfl
    rw [if_pos hzero, if_pos hzero, hzeroTable]
    cases arena.zero <;> rfl
  · rw [if_neg hzero, if_neg hzero, htabular.find_table hroom hzero, ok_bind]
    cases hlocated : arena.slots.locate? key with
    | none => rfl
    | some index =>
        obtain ⟨value, hfull⟩ := Slot.key?_eq_some_iff.1 (Slots.key?_of_locate? hlocated)
        have hclosed : arena.table.columns.close arena.table.mask index =
            .ok (value, (arena.slots.close index).slots.columns) :=
          hroom.close_columns htabular.addressable htabular.sound.slots.nonzero hfull
        have hfilled : pred arena.table.filled = .ok (arena.filled - 1) := by
          have hlisted := (Slots.entries_write_free hfull).length_eq
          rw [List.length_cons, ← htabular.sound.counted] at hlisted
          exact if_neg (show arena.filled ≠ 0 by omega)
        have hmaskTable : arena.table.mask = (arena.free index).1.table.mask :=
          congrArg (· - 1) (arena.slots.size_close index).symm
        dsimp only
        rw [hclosed, ok_bind, hfilled, hfull, Slot.value?_full, hmaskTable]
        rfl

theorem Outcome.table_reply {α : Type} (outcome : Outcome V α) (memory : Memory)
    (read : α → Answer V) :
    (Answer.ofResult read outcome.answer, outcome.arena.table, memory) =
      ((outcome.reply memory read).answer, (outcome.reply memory read).session.arena.table,
        (outcome.reply memory read).session.memory) := by
  obtain ⟨answer, arena, log⟩ := outcome
  cases answer <;> rfl

/-- Whatever is asked of a table, it answers as the arena does. -/
theorem Arena.Tabular.handle_table {session : Session V} (htabular : session.arena.Tabular)
    (hroom : session.arena.slots.HasRoom) (request : Request V) :
    session.arena.table.handle session.memory request =
      .ok ((session.handle request).answer, (session.handle request).session.arena.table,
        (session.handle request).session.memory) := by
  obtain ⟨arena, memory⟩ := session
  cases request with
  | add value =>
      rw [Table.handle, htabular.add_table hroom, ok_bind, Session.handle, ← Outcome.table_reply]
      rfl
  | get key =>
      rw [Table.handle, htabular.get_table hroom, ok_bind, Session.handle]
      dsimp only
      cases arena.get key <;> rfl
  | remove key =>
      rw [Table.handle, htabular.remove_table hroom, ok_bind, Session.handle,
        ← Outcome.table_reply]
      rfl
  | duplicate key =>
      rw [Table.handle, htabular.duplicate_table hroom, ok_bind, Session.handle,
        ← Outcome.table_reply]
      rfl
  | contains key =>
      rw [Table.handle, htabular.contains_table hroom]
      rfl
  | size =>
      rw [Table.handle, htabular.size_table]
      rfl
  | isEmpty =>
      rw [Table.handle, htabular.size_table]
      rfl
  | advance key => rfl
  | setCeiling ceiling => rfl
  | setMemory memory => rfl

theorem Arena.Filing.ceiling {arena after : Arena V} {memory : Memory} {value : V}
    {answer : Except Failure Key} (hfiling : arena.Filing memory value answer after) :
    after.ceiling = arena.ceiling := by
  cases hfiling <;> rfl

theorem Arena.Removal.ceiling {arena after : Arena V} {key : Key} {answer : Except Failure V}
    (hremoval : arena.Removal key answer after) : after.ceiling = arena.ceiling := by
  cases hremoval <;> rfl

theorem Session.ceiling_handle (session : Session V) (request : Request V) :
    (session.handle request).session.arena.ceiling = session.arena.ceiling ∨
      request = .setCeiling (session.handle request).session.arena.ceiling := by
  obtain ⟨arena, memory⟩ := session
  cases request with
  | add value =>
      rw [Session.handle, Outcome.arena_reply]
      exact .inl (arena.filing_add memory value).ceiling
  | remove key =>
      rw [Session.handle, Outcome.arena_reply]
      exact .inl (arena.removal_remove key).ceiling
  | duplicate key =>
      rw [Session.handle, Outcome.arena_reply, Arena.duplicate]
      cases arena.get? key with
      | none => exact .inl rfl
      | some value => exact .inl (arena.filing_add memory value).ceiling
  | setCeiling ceiling => exact .inr rfl
  | get key => exact .inl rfl
  | contains key => exact .inl rfl
  | size => exact .inl rfl
  | isEmpty => exact .inl rfl
  | advance key => exact .inl rfl
  | setMemory memory => exact .inl rfl

/-- Whatever is asked of an arena, its numbers stay small as long as its ceiling does. -/
theorem Arena.Tabular.handle {session : Session V} (htabular : session.arena.Tabular)
    (hroom : session.arena.slots.HasRoom) (request : Request V)
    (hceiling : ∀ ceiling, request = .setCeiling ceiling → ceiling ≤ mostSlots) :
    (session.handle request).session.arena.Tabular := by
  have hstep := session.step_handle request
  constructor
  case sound => exact htabular.sound.step hroom hstep
  case capacity_le =>
    rcases hstep.unresized_or_grown with hunresized | ⟨key, value, _, hgrowth, hafter⟩
    · exact hunresized.capacity ▸ htabular.capacity_le
    · have hwanted := (Arena.growthRefusal?_eq_none_iff.1 hgrowth).1
      have hcapacity : (session.handle request).session.arena.capacity =
          2 * session.arena.capacity := by
        rw [hafter]
        exact (Arena.capacity_file _ _ _).trans (Arena.capacity_grown _)
      exact hcapacity ▸ hwanted.trans htabular.ceiling_le
  case ceiling_le =>
    rcases session.ceiling_handle request with hkept | hasked
    · exact hkept ▸ htabular.ceiling_le
    · exact hceiling _ hasked

theorem Session.Fresh.tabular {settings : Settings} {session : Session V}
    (hfresh : session.Fresh settings) : session.arena.Tabular := by
  obtain ⟨_, hslots, harena⟩ := hfresh.vacant
  obtain ⟨_, _, hmost, _⟩ := slotsFor_bounds hslots
  refine ⟨hfresh.sound, hmost, ?_⟩
  rw [harena]
  exact Nat.le_refl _

/-- A table answers requests as an arena does, without a fault, as long as a slot is free before
each of them. -/
theorem Arena.Tabular.run_table {session : Session V} (htabular : session.arena.Tabular)
    {requests : List (Request V)} (hspacious : session.Spacious requests)
    (hceilings : ∀ ceiling, .setCeiling ceiling ∈ requests → ceiling ≤ mostSlots) :
    session.arena.table.run session.memory requests =
      .ok ((session.run requests).2, (session.run requests).1.arena.table,
        (session.run requests).1.memory) := by
  induction requests generalizing session with
  | nil => rfl
  | cons request rest ih =>
      obtain ⟨hroom, hlater⟩ := hspacious
      have hafter := htabular.handle hroom request fun ceiling hasked =>
        hceilings ceiling (hasked ▸ List.mem_cons_self)
      have hrest := ih hafter hlater fun ceiling hasked =>
        hceilings ceiling (List.mem_cons_of_mem _ hasked)
      rw [Table.run, htabular.handle_table hroom, ok_bind]
      dsimp only
      rw [hrest]
      rfl

/-- A run from a fresh table, whatever its settings, meets no fault as long as a slot is free before
each request and no ceiling is set above the most slots.  It gives the answers that the arena gives
and leaves the columns and counters that the arena has. -/
theorem Session.Fresh.faultless {settings : Settings} {session : Session V}
    (hfresh : session.Fresh settings) {requests : List (Request V)}
    (hspacious : session.Spacious requests)
    (hceilings : ∀ ceiling, .setCeiling ceiling ∈ requests → ceiling ≤ mostSlots) :
    session.arena.table = .vacant session.arena.capacity settings.loadFactor ∧
      session.arena.table.run session.memory requests =
        .ok ((session.run requests).2, (session.run requests).1.arena.table,
          (session.run requests).1.memory) := by
  obtain ⟨_, _, harena⟩ := hfresh.vacant
  have htable := congrArg Arena.table harena
  rw [Arena.table_vacant] at htable
  exact ⟨htable, hfresh.tabular.run_table hspacious hceilings⟩

/-- A run in which a removal moves entries over the end of the circle, growth is refused and then
granted, and another removal follows. -/
theorem Session.Fresh.faultless_churn :
    let session : Session Nat := ⟨.plain, {}⟩
    let requests : List (Request Nat) :=
      [.add 0, .advance 4, .add 40, .advance 15, .add 150, .add 160, .advance 32, .add 320,
        .remove ⟨15⟩, .duplicate ⟨16⟩, .add 340, .setMemory ⟨some 8⟩, .add 350, .add 360,
        .setCeiling 16, .setMemory {}, .add 360, .remove ⟨4⟩, .get ⟨32⟩, .contains ⟨15⟩,
        .remove ⟨0⟩, .size]
    (session.run requests).1.arena.slotKeys =
        [⟨33⟩, .zero, .zero, .zero, .zero, .zero, .zero, ⟨16⟩, .zero, ⟨36⟩, .zero, .zero, ⟨34⟩, .zero,
          ⟨35⟩, ⟨32⟩] ∧
      session.arena.table.run session.memory requests =
        .ok ((session.run requests).2, (session.run requests).1.arena.table,
          (session.run requests).1.memory) := by
  intro session requests
  have hfresh : session.Fresh {} := .plain {}
  have hspacious : session.Spacious requests := by decide +kernel
  have hceilings : ∀ ceiling, .setCeiling ceiling ∈ requests → ceiling ≤ mostSlots := by
    intro ceiling hasked
    obtain rfl : ceiling = 16 := by simpa [requests] using hasked
    decide
  exact ⟨by decide +kernel, (Session.Fresh.faultless hfresh hspacious hceilings).2⟩

end KeyedArena
