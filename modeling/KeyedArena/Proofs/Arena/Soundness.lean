import KeyedArena.Arena.Sound
import KeyedArena.Proofs.Arena.Steps
import KeyedArena.Proofs.Slots.Filing
import KeyedArena.Proofs.Slots.Sweep
/-!
Sound arenas stay sound.

Each change keeps the parts of an arena in agreement and adds or removes exactly the entry it is
about.  A free slot is all that is needed before a change; whether one is left afterwards is a
matter of thresholds and not of soundness.
-/

namespace KeyedArena

universe u

variable {V : Type u}

/-- All entries of an arena as they are counted: the one under key zero comes on top. -/
theorem Arena.entries_eq (arena : Arena V) :
    arena.entries = (arena.zero.map fun value => (Key.zero, value)).toList ++
      arena.slots.entries := by
  unfold Arena.entries
  cases arena.zero <;> rfl

theorem Arena.Sound.issued_of_mem {arena : Arena V} (hsound : arena.Sound) {key : Key}
    (hkey : key ∈ arena.slots.entries.map Prod.fst) :
    0 < key.toInt ∧ key.toInt < arena.nextKey := by
  obtain ⟨index, hslot⟩ := Slots.mem_keys_iff.1 hkey
  exact hsound.issued hslot

/-- The next key is filed nowhere. -/
theorem Arena.Sound.next_fresh {arena : Arena V} (hsound : arena.Sound) {key : Key}
    (hkey : key.toInt = arena.nextKey) (index : Nat) :
    (arena.slots.look index).key? ≠ some key := by
  intro hslot
  have hissued := hsound.issued hslot
  omega

theorem Arena.Sound.size_pos {arena : Arena V} (hsound : arena.Sound) :
    0 < arena.slots.size := by
  have hleast := hsound.least
  unfold leastSlots Arena.capacity at hleast
  omega

theorem Arena.Sound.filled_le {arena : Arena V} (hsound : arena.Sound) :
    arena.filled ≤ arena.capacity := by
  rw [hsound.counted]
  exact arena.slots.length_entries_le

theorem Arena.Sound.hasRoom_iff {arena : Arena V} (hsound : arena.Sound) :
    arena.slots.HasRoom ↔ arena.filled < arena.capacity := by
  rw [hsound.counted, Slots.hasRoom_iff, Arena.capacity]

/-- A count within a threshold that falls short of the last slot leaves a slot free. -/
theorem Arena.Sound.hasRoom {arena : Arena V} (hsound : arena.Sound)
    (hfilled : arena.filled ≤ arena.growAt) (hgrowAt : arena.growAt ≤ arena.capacity - 1) :
    arena.slots.HasRoom := by
  have hpositive : 0 < arena.capacity := hsound.size_pos
  rw [hsound.hasRoom_iff]
  omega

theorem Arena.capacity_vacant (capacity : Nat) (loadFactor : Float) :
    (Arena.vacant capacity loadFactor : Arena V).capacity = capacity :=
  Slots.size_vacant capacity

theorem Arena.sound_vacant {capacity : Nat} (hpower : capacity.isPowerOfTwo)
    (hleast : leastSlots ≤ capacity) (loadFactor : Float) :
    (Arena.vacant capacity loadFactor : Arena V).Sound where
  slots := Slots.sound_vacant capacity
  power := by rwa [Arena.capacity_vacant]
  least := by rwa [Arena.capacity_vacant]
  counted := by rw [Arena.vacant, Slots.entries_vacant, List.length_nil]
  issued hkey := by simp [Arena.vacant, Slots.look_vacant] at hkey
  zeroIssued hzero := by simp [Arena.vacant] at hzero

theorem Arena.Sound.file {arena : Arena V} (hsound : arena.Sound)
    (hroom : arena.slots.HasRoom) {key : Key} (hkey : key.toInt = arena.nextKey)
    (hnonzero : key ≠ .zero) (value : V) : (arena.file key value).issue.Sound := by
  have hadded := hroom.entries_place key value
  have hsize := arena.slots.size_place key value
  constructor
  case slots => exact hsound.slots.place hroom hnonzero (hsound.next_fresh hkey) value
  case power => exact (congrArg Nat.isPowerOfTwo hsize).mpr hsound.power
  case least => exact Nat.le_trans hsound.least (Nat.le_of_eq hsize.symm)
  case counted =>
    have hlength := hadded.length_eq
    rw [List.length_cons, ← hsound.counted] at hlength
    exact hlength.symm
  case issued =>
    intro index other hslot
    have hmem := (hadded.map Prod.fst).mem_iff.1 (Slots.mem_keys_iff.2 ⟨index, hslot⟩)
    rw [List.map_cons, List.mem_cons] at hmem
    have hpositive : key.toInt ≠ 0 := fun h => hnonzero (Key.toInt_eq_zero_iff.1 h)
    have hnext : (arena.file key value).issue.nextKey = arena.nextKey + 1 := rfl
    rw [hnext]
    rcases hmem with rfl | hold
    · omega
    · have hissued := hsound.issued_of_mem hold
      omega
  case zeroIssued =>
    intro _
    exact Nat.succ_pos _

theorem Arena.capacity_grown (arena : Arena V) : arena.grown.capacity = 2 * arena.capacity :=
  Slots.size_rehash _ _

/-- Doubling the slots keeps all entries. -/
theorem Arena.WellFormed.entries_grown {arena : Arena V} (hformed : arena.WellFormed) :
    arena.grown.slots.Sound ∧ arena.grown.slots.entries.Perm arena.slots.entries := by
  apply hformed.slots.rehash
  have hcount : arena.slots.entries.length ≤ arena.capacity := arena.slots.length_entries_le
  omega

theorem Arena.WellFormed.grown {arena : Arena V} (hformed : arena.WellFormed) :
    arena.grown.WellFormed := by
  obtain ⟨hslots, hentries⟩ := hformed.entries_grown
  exact ⟨hslots, hformed.counted.trans hentries.length_eq.symm⟩

theorem Arena.WellFormed.fresh_grown {arena : Arena V} (hformed : arena.WellFormed) {key : Key}
    (hfresh : ∀ index, (arena.slots.look index).key? ≠ some key) (index : Nat) :
    (arena.grown.slots.look index).key? ≠ some key := by
  intro hkey
  have hkept := hformed.entries_grown.2.map Prod.fst
  obtain ⟨before, hbefore⟩ :=
    Slots.mem_keys_iff.1 (hkept.mem_iff.1 (Slots.mem_keys_iff.2 ⟨index, hkey⟩))
  exact hfresh before hbefore

theorem Arena.WellFormed.hasRoom_grown {arena : Arena V} (hformed : arena.WellFormed)
    (hpositive : 0 < arena.capacity) : arena.grown.slots.HasRoom := by
  have hcount : arena.slots.entries.length ≤ arena.capacity := arena.slots.length_entries_le
  have hsize : arena.grown.slots.size = 2 * arena.capacity := arena.capacity_grown
  rw [Slots.hasRoom_iff, hformed.entries_grown.2.length_eq, hsize]
  omega

theorem Arena.Sound.entries_grown {arena : Arena V} (hsound : arena.Sound) :
    arena.grown.slots.Sound ∧ arena.grown.slots.entries.Perm arena.slots.entries :=
  hsound.wellFormed.entries_grown

theorem Arena.Sound.grown {arena : Arena V} (hsound : arena.Sound) : arena.grown.Sound := by
  obtain ⟨hslots, hentries⟩ := hsound.entries_grown
  have hcapacity := arena.capacity_grown
  constructor
  case slots => exact hslots
  case power =>
    rw [hcapacity, Nat.mul_comm]
    exact Nat.isPowerOfTwo_mul_two_of_isPowerOfTwo hsound.power
  case least =>
    have hleast := hsound.least
    omega
  case counted => exact hsound.counted.trans hentries.length_eq.symm
  case issued =>
    intro index key hslot
    exact hsound.issued_of_mem
      ((hentries.map Prod.fst).mem_iff.1 (Slots.mem_keys_iff.2 ⟨index, hslot⟩))
  case zeroIssued => exact hsound.zeroIssued

theorem Arena.Sound.hasRoom_grown {arena : Arena V} (hsound : arena.Sound) :
    arena.grown.slots.HasRoom := hsound.wellFormed.hasRoom_grown hsound.size_pos

theorem Arena.Sound.free {arena : Arena V} (hsound : arena.Sound)
    (hroom : arena.slots.HasRoom) {index : Nat} {key : Key} {value : V}
    (hfull : arena.slots.look index = .full key value) : (arena.free index).1.Sound := by
  obtain ⟨hslots, hentries⟩ := hsound.slots.close hroom hfull
  have hsize := arena.slots.size_close index
  constructor
  case slots => exact hslots
  case power => exact (congrArg Nat.isPowerOfTwo hsize).mpr hsound.power
  case least => exact Nat.le_trans hsound.least (Nat.le_of_eq hsize.symm)
  case counted =>
    have hlength := hentries.length_eq
    rw [List.length_cons, ← hsound.counted] at hlength
    exact Nat.sub_eq_of_eq_add hlength
  case issued =>
    intro place other hslot
    apply hsound.issued_of_mem
    rw [(hentries.map Prod.fst).mem_iff, List.map_cons]
    exact List.mem_cons_of_mem _ (Slots.mem_keys_iff.2 ⟨place, hslot⟩)
  case zeroIssued => exact hsound.zeroIssued

/-- Changes that leave the slots and their count alone keep an arena sound as long as the next key
does not go back. -/
theorem Arena.Sound.of_slots_eq {before after : Arena V} (hsound : before.Sound)
    (hslots : after.slots = before.slots) (hfilled : after.filled = before.filled)
    (hnext : before.nextKey ≤ after.nextKey)
    (hzero : after.zero.isSome → before.zero.isSome ∨ 0 < after.nextKey) : after.Sound := by
  constructor
  case slots => rw [hslots]; exact hsound.slots
  case power => rw [Arena.capacity, hslots]; exact hsound.power
  case least => rw [Arena.capacity, hslots]; exact hsound.least
  case counted => rw [hslots, hfilled]; exact hsound.counted
  case issued =>
    intro index key hslot
    rw [hslots] at hslot
    have hissued := hsound.issued hslot
    omega
  case zeroIssued =>
    intro hsome
    rcases hzero hsome with hold | hnew
    · exact Nat.lt_of_lt_of_le (hsound.zeroIssued hold) hnext
    · exact hnew

/-- Whatever is asked of a sound arena with a free slot, it stays sound. -/
theorem Arena.Sound.step {arena after : Arena V} (hsound : arena.Sound)
    (hroom : arena.slots.HasRoom) {memory : Memory} (hstep : arena.Step memory after) :
    after.Sound := by
  cases hstep with
  | stay => exact hsound
  | file hfiling =>
      cases hfiling with
      | refused failure => exact hsound
      | zero hnext =>
          exact hsound.of_slots_eq rfl rfl (Nat.le_succ _) fun _ => Or.inr (Nat.succ_pos _)
      | filed hkey hnonzero hslack => exact hsound.file hroom hkey hnonzero _
      | grown hkey hnonzero hfull hgrowth =>
          exact hsound.grown.file hsound.hasRoom_grown hkey hnonzero _
  | remove hremoval =>
      cases hremoval with
      | absent hnone => exact hsound
      | zero hkey hvalue => exact hsound.of_slots_eq rfl rfl (Nat.le_refl _) nofun
      | freed hnonzero hfull => exact hsound.free hroom hfull
  | advance key => exact hsound.of_slots_eq rfl rfl (Nat.le_max_left _ _) Or.inl
  | withCeiling ceiling => exact hsound.of_slots_eq rfl rfl (Nat.le_refl _) Or.inl

theorem Arena.Sound.keys_nodup {arena : Arena V} (hsound : arena.Sound) :
    arena.keys.Nodup := by
  rw [Arena.keys, Arena.entries]
  cases arena.zero with
  | none => exact hsound.slots.keys_nodup
  | some value =>
      rw [List.map_cons, List.nodup_cons]
      refine ⟨?_, hsound.slots.keys_nodup⟩
      intro hzero
      obtain ⟨index, hslot⟩ := Slots.mem_keys_iff.1 hzero
      exact hsound.slots.nonzero index hslot

theorem Arena.Sound.nonzero_keys {arena : Arena V} (hsound : arena.Sound) :
    arena.keys.filter (· ≠ .zero) = arena.slots.entries.map Prod.fst := by
  have hslots : (arena.slots.entries.map Prod.fst).filter (· ≠ .zero) =
      arena.slots.entries.map Prod.fst := by
    rw [List.filter_eq_self]
    intro key hkey
    obtain ⟨entry, hentry, rfl⟩ := List.mem_map.1 hkey
    exact decide_eq_true (hsound.slots.entries_nonzero hentry)
  rw [Arena.keys, Arena.entries_eq, List.map_append, List.filter_append, hslots]
  cases arena.zero <;> simp

/-- Looking a key up finds exactly what is listed under it. -/
theorem Arena.WellFormed.get?_eq_some_iff {arena : Arena V} (hformed : arena.WellFormed)
    {key : Key} {value : V} : arena.get? key = some value ↔ (key, value) ∈ arena.entries := by
  have hslots : (Key.zero, value) ∉ arena.slots.entries :=
    fun hentry => hformed.slots.entries_nonzero hentry rfl
  rw [Arena.get?, Arena.entries_eq, List.mem_append]
  by_cases hzero : key = .zero
  · rw [if_pos hzero, hzero]
    simp [hslots]
  · rw [if_neg hzero]
    have hplace : (key, value) ∉ (arena.zero.map fun value => (Key.zero, value)).toList := by
      simp [Ne.symm hzero]
    simp only [hplace, false_or, Option.bind_eq_some_iff, Slots.mem_entries_iff]
    constructor
    · rintro ⟨index, hlocated, hvalue⟩
      obtain ⟨held, hfull⟩ := Slot.key?_eq_some_iff.1 (Slots.key?_of_locate? hlocated)
      refine ⟨index, ?_⟩
      rw [hfull] at hvalue ⊢
      simpa using hvalue
    · rintro ⟨index, hfull⟩
      refine ⟨index, hformed.slots.locate?_eq_some_iff.2 (by rw [hfull]; rfl), ?_⟩
      rw [hfull]
      rfl

theorem Arena.Sound.get?_eq_some_iff {arena : Arena V} (hsound : arena.Sound) {key : Key}
    {value : V} : arena.get? key = some value ↔ (key, value) ∈ arena.entries :=
  hsound.wellFormed.get?_eq_some_iff

theorem Arena.contains_eq (arena : Arena V) (key : Key) :
    arena.contains key = (arena.get? key).isSome := by
  rw [Arena.contains, Arena.get?]
  split
  · rfl
  · cases hlocated : arena.slots.locate? key with
    | none => rfl
    | some index =>
        obtain ⟨value, hfull⟩ := Slot.key?_eq_some_iff.1 (Slots.key?_of_locate? hlocated)
        simp [hfull]

/-- The count kept beside the slots is right. -/
theorem Arena.Sound.size_eq {arena : Arena V} (hsound : arena.Sound) :
    arena.size = arena.entries.length := by
  rw [Arena.size, hsound.counted, Arena.entries]
  cases arena.zero <;> rfl

end KeyedArena
