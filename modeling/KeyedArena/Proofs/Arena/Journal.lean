import KeyedArena.Proofs.Arena.Removal
/-!
The journal of a removal.

A removal reports every move that it makes, at the time when it makes it.  The moves form one chain:
each fills the slot that the one before it has left, beginning with the slot that was freed.  So the
journal tells all there is to know, and whoever has the circle as it was can do without the circle
as it is.
-/

namespace KeyedArena

universe u

variable {V : Type u}

/-- What the journal of a removal tells: `before` is the circle with an entry in the slot that is
freed, `after` the circle that is left. -/
structure Slots.Recounts (before after : Slots V) (freed : Nat) (journal : List Move) : Prop where
  /-- No key is moved twice. -/
  once : (journal.map Move.key).Nodup
  /-- The moves are those of the keys whose slots differ before and after, from the one to the
  other. -/
  mem_iff : ∀ move, move ∈ journal ↔ move.source ≠ move.target ∧
    (before.look move.source).key? = some move.key ∧ (after.look move.target).key? = some move.key
  /-- The first move fills the slot that was freed, and every later one the slot that the move
  before it has left. -/
  first : ∀ move ∈ journal.head?, move.target = freed
  onward : journal.IsChain fun earlier later => later.target = earlier.source
  /-- The slot left by the last move is the only one that is free now and was full before. -/
  emptied : ∀ place, (before.look place).isFree = false ∧ after.look place = .free ↔
    place = lastGap freed journal
  replayed : before.replay freed journal = after

/-- A chain of moves, read off the slots that it fills and those that it leaves. -/
theorem isChain_of_targets_eq {freed gap : Nat} {journal : List Move}
    (htargets : journal.map Move.target ++ [gap] = freed :: journal.map Move.source) :
    (∀ move ∈ journal.head?, move.target = freed) ∧
      journal.IsChain (fun earlier later => later.target = earlier.source) ∧
      lastGap freed journal = gap := by
  induction journal generalizing freed with
  | nil =>
      obtain rfl : gap = freed := by simpa using htargets
      exact ⟨nofun, .nil, rfl⟩
  | cons move rest ih =>
      simp only [List.map_cons, List.cons_append, List.cons.injEq] at htargets
      obtain ⟨hfirst, honward, hlast⟩ := ih htargets.2
      refine ⟨?_, List.isChain_cons.2 ⟨hfirst, honward⟩, ?_⟩
      · rintro other hhead
        obtain rfl : move = other := by simpa using hhead
        exact htargets.1
      · rw [lastGap, List.map_cons, List.getLastD_cons]
        exact hlast

theorem Shifted.mem_of_ne {capacity : Nat} {moves : List Move} {key : Key} {place now : Nat}
    (hshifted : Shifted capacity moves key place now) (hne : place ≠ now) :
    ⟨key, place, now⟩ ∈ moves := by
  cases hshifted with
  | stayed hmoves => exact absurd rfl hne
  | moved hsooner hmoves =>
      have hlisted : ⟨key, place, now⟩ ∈ moves.filter (·.key = key) := by
        rw [hmoves]
        exact List.mem_singleton_self _
      exact (List.mem_filter.1 hlisted).1

/-- A sweep whose moves so far recount how its circle has come from the one it began with. -/
structure Closing.Recording (origin : Slots V) (freed : Nat) (closing : Closing V) : Prop where
  targets_eq :
    closing.journal.map Move.target ++ [closing.gap] = freed :: closing.journal.map Move.source
  replayed : (closing.journal.foldl Slots.replayMove origin).write closing.gap .free = closing.slots
  source : ∀ move ∈ closing.moves, move.source ≠ freed ∧
    (origin.look move.source).key? = some move.key

theorem Slots.recording (slots : Slots V) (index : Nat) :
    Closing.Recording slots index ⟨slots.write index .free, index, []⟩ :=
  ⟨rfl, rfl, nofun⟩

section Step

variable {origin : Slots V} {freed : Nat} {closing : Closing V} {index stop : Nat}

theorem Closing.Recording.move (hrecording : closing.Recording origin freed)
    (htrailing : closing.Trailing origin freed index) (hsweep : closing.Sweeping index stop)
    {key : Key} {value : V} (hfull : closing.slots.look index = .full key value) :
    (closing.moved index key value).Recording origin freed := by
  have hindex : index < origin.size := htrailing.size ▸ hsweep.index_lt
  have hjournal : (closing.moved index key value).journal =
      closing.journal ++ [⟨key, index, closing.gap⟩] := List.reverse_cons
  have hgap := hsweep.gap_ne
  constructor
  case targets_eq =>
    have hgapNow : (closing.moved index key value).gap = index := rfl
    rw [hjournal, List.map_append, List.map_append, hgapNow]
    simp only [List.map_cons, List.map_nil]
    rw [hrecording.targets_eq, List.cons_append]
  case replayed =>
    have hheld : (closing.journal.foldl Slots.replayMove origin).look index = .full key value := by
      rw [← hfull, ← hrecording.replayed, Slots.look_write_of_ne _ _ hgap]
    rw [hjournal, List.foldl_append]
    simp only [List.foldl_cons, List.foldl_nil, Slots.replayMove, hheld, Closing.moved]
    rw [← hrecording.replayed, Slots.write_write]
  case source =>
    intro move hmove
    rcases List.mem_cons.1 hmove with rfl | hearlier
    · have hhere := htrailing.untouched index hindex (Nat.le_refl _)
      exact ⟨htrailing.ne_freed, Slots.key?_of_full (hhere ▸ hfull)⟩
    · exact hrecording.source move hearlier

theorem Closing.Recording.visit (hrecording : closing.Recording origin freed)
    (htrailing : closing.Trailing origin freed index) (hsweep : closing.Sweeping index stop)
    (hfull : closing.slots.look index ≠ .free) : (closing.visit index).Recording origin freed := by
  cases hslot : closing.slots.look index with
  | free => exact absurd hslot hfull
  | full key value =>
      rw [Closing.visit_of_full hslot]
      split
      · exact hrecording.move htrailing hsweep hslot
      · exact hrecording

/-- Every move is the only one of its key and leads from the slot where the key was to the slot
where it is now. -/
theorem Closing.Recording.move_eq (hrecording : closing.Recording origin freed)
    (htrailing : closing.Trailing origin freed index) {move : Move} (hmove : move ∈ closing.moves) :
    closing.moves.filter (·.key = move.key) = [move] ∧ move.source ≠ move.target ∧
      (closing.slots.look move.target).key? = some move.key := by
  obtain ⟨hsource, hkey⟩ := hrecording.source move hmove
  obtain ⟨value, hfull⟩ := Slot.key?_eq_some_iff.1 hkey
  obtain ⟨now, hnow, hshifted⟩ := htrailing.survived hfull hsource
  have hlisted : move ∈ closing.moves.filter (·.key = move.key) :=
    List.mem_filter.2 ⟨hmove, by simp⟩
  cases hshifted with
  | stayed hmoves =>
      rw [hmoves] at hlisted
      exact absurd hlisted List.not_mem_nil
  | moved hsooner hmoves =>
      have halone : move = ⟨move.key, move.source, now⟩ :=
        List.mem_singleton.1 (hmoves ▸ hlisted)
      obtain rfl : now = move.target := (congrArg Move.target halone).symm
      refine ⟨hmoves, ?_, Slots.key?_of_full hnow⟩
      intro hsame
      rw [hsame] at hsooner
      exact Nat.lt_irrefl _ hsooner

theorem Closing.Recording.nodup_keys (hrecording : closing.Recording origin freed)
    (htrailing : closing.Trailing origin freed index) :
    (closing.journal.map Move.key).Nodup := by
  rw [Closing.journal, List.map_reverse, List.nodup_reverse, List.nodup_iff_count_le_one]
  intro key
  rw [List.count_eq_length_filter, List.filter_map, List.length_map]
  by_cases hmoved : ∃ move ∈ closing.moves, move.key = key
  · obtain ⟨move, hmove, rfl⟩ := hmoved
    exact Nat.le_of_eq (congrArg List.length (hrecording.move_eq htrailing hmove).1)
  · have hnone : closing.moves.filter ((· == key) ∘ Move.key) = [] :=
      List.filter_eq_nil_iff.2 fun move hmove hkey => hmoved ⟨move, hmove, by simpa using hkey⟩
    rw [hnone]
    exact Nat.zero_le _

end Step

theorem Slots.Sound.recounts_close {slots : Slots V} (hsound : slots.Sound) (hroom : slots.HasRoom)
    {index : Nat} {key : Key} {value : V} (hfull : slots.look index = .full key value) :
    slots.Recounts (slots.close index).slots index (slots.close index).journal := by
  have hne := Slots.look_ne_free hfull
  have hclosed := (hsound.close hroom hfull).1
  obtain ⟨last, stop, _, ⟨htrailing, hrecording⟩, _⟩ := hsound.close_ends hroom hne
    (fun closing place => closing.Trailing slots index place ∧ closing.Recording slots index)
    ⟨Slots.trailing (Slots.lt_size_of_full hfull) (hroom.one_lt_size hne) hne,
      slots.recording index⟩
    (fun hsweep hvisited ⟨htrailing, hrecording⟩ =>
      ⟨htrailing.visit hsound hsweep hvisited, hrecording.visit htrailing hsweep hvisited⟩)
  obtain ⟨hgapFull, hgapFree, hothers⟩ := hsound.isFree_close hroom hne
  obtain ⟨hfirst, honward, hgap⟩ := isChain_of_targets_eq hrecording.targets_eq
  have hmem : ∀ move, move ∈ (slots.close index).journal ↔ move ∈ (slots.close index).moves :=
    fun move => List.mem_reverse
  constructor
  case once => exact hrecording.nodup_keys htrailing
  case mem_iff =>
    intro move
    rw [hmem]
    constructor
    · intro hmove
      obtain ⟨_, hapart, hnow⟩ := hrecording.move_eq htrailing hmove
      exact ⟨hapart, (hrecording.source move hmove).2, hnow⟩
    · rintro ⟨hapart, hbefore, hafter⟩
      obtain ⟨held, hplace⟩ := Slot.key?_eq_some_iff.1 hbefore
      have hsource : move.source ≠ index := by
        intro hsame
        rw [hsame, hfull] at hbefore
        rw [← Option.some.inj hbefore] at hafter
        exact hsound.key?_close_ne hroom hfull _ hafter
      obtain ⟨now, hnow, hshifted⟩ := htrailing.survived hplace hsource
      obtain rfl : now = move.target := hclosed.distinct (Slots.key?_of_full hnow) hafter
      exact hshifted.mem_of_ne hapart
  case first => exact hfirst
  case onward => exact honward
  case emptied =>
    intro place
    rw [hgap]
    constructor
    · rintro ⟨hbefore, hafter⟩
      by_contra hother
      have hsame := hothers place hother
      rw [hafter, hbefore] at hsame
      simp at hsame
    · rintro rfl
      exact ⟨hgapFull, hgapFree⟩
  case replayed =>
    rw [Slots.replay, hgap]
    exact hrecording.replayed

/-- Removing the object under a nonzero key reports nothing but moves, and these recount what has
become of the slots. -/
theorem Arena.WellFormed.remove_recounts {arena : Arena V} (hformed : arena.WellFormed)
    (hroom : arena.slots.HasRoom) {key : Key} {value : V} {slot : Nat}
    (hfull : arena.slots.look slot = .full key value) :
    ∃ journal : List Move, (arena.remove key).log = journal.map .shifted ∧
      (∀ event ∈ (arena.remove key).log, event.level = .trace) ∧
      arena.slots.Recounts (arena.remove key).arena.slots slot journal := by
  rw [hformed.remove_eq hfull]
  refine ⟨_, rfl, ?_, hformed.slots.recounts_close hroom hfull⟩
  intro event hevent
  obtain ⟨move, _, rfl⟩ := List.mem_map.1 hevent
  rfl

/-- When key 15 is removed, key 16 follows it over the end of the circle, and key 32 jumps over key 4
after it. -/
theorem Arena.WellFormed.remove_recounts_wrapped :
    let arena := Session.wrapped.arena
    let journal : List Move := [⟨⟨16⟩, 0, 7⟩, ⟨⟨32⟩, 2, 0⟩]
    (arena.remove ⟨15⟩).log = journal.map .shifted ∧
      arena.slots.Recounts (arena.remove ⟨15⟩).arena.slots 7 journal ∧
      arena.slots.replay 7 journal = (arena.remove ⟨15⟩).arena.slots ∧
      lastGap 7 journal = 2 := by
  intro arena journal
  have hformed : arena.WellFormed := Session.reachable_wrapped.sound.wellFormed
  have hfull : arena.slots.look 7 = .full ⟨15⟩ 150 := by decide +kernel
  have hmoves : (arena.slots.close 7).journal = journal := by decide +kernel
  obtain ⟨made, hlog, _, hrecounts⟩ :=
    Arena.WellFormed.remove_recounts hformed (by decide +kernel) hfull
  have hsame : made.map Event.shifted = journal.map .shifted := by
    rw [← hlog, hformed.remove_eq hfull, hmoves]
  obtain rfl : made = journal :=
    List.map_injective_iff.2 (fun _ _ => Event.shifted.inj) hsame
  exact ⟨hlog, hrecounts, hrecounts.replayed, rfl⟩

end KeyedArena
