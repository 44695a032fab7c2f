import KeyedArena.Proofs.Slots.Entries
/-!
Filing entries keeps a circle sound.

A new entry goes to the first free slot on its walk.  That slot was the end of no other entry's
walk, and filling it breaks none.  Filing entries one after another in a fresh circle therefore
files all of them, which is what growth relies on.
-/

namespace KeyedArena

universe u

variable {V : Type u}

theorem Slots.Unbroken.mono {before after : Slots V} {start index : Nat}
    (hsize : after.size = before.size)
    (hfuller : ∀ passed, (before.look passed).isFree = false →
      (after.look passed).isFree = false)
    (hwalk : before.Unbroken start index) : after.Unbroken start index := by
  intro steps hsteps
  rw [hsize] at hsteps ⊢
  exact hfuller _ (hwalk steps hsteps)

theorem Slots.sound_vacant (capacity : Nat) : (Slots.vacant capacity : Slots V).Sound where
  nonzero index := by simp [Slots.look_vacant]
  distinct hfirst := by simp [Slots.look_vacant] at hfirst
  unbroken hkey := by simp [Slots.look_vacant] at hkey

theorem Slots.HasRoom.place_eq {slots : Slots V} (hroom : slots.HasRoom) (key : Key)
    (value : V) :
    ∃ index < slots.size, slots.look index = .free ∧
      slots.Unbroken (key.home slots.size) index ∧
      slots.place key value = slots.write index (.full key value) := by
  obtain ⟨index, hvacancy⟩ := hroom.exists_vacancy key
  have hsize : 0 < slots.size := by
    obtain ⟨free, hfree, _⟩ := hroom
    omega
  obtain ⟨hindex, hfree, hwalk⟩ := (Slots.vacancy?_eq_some_iff hsize).1 hvacancy
  refine ⟨index, hindex, hfree, hwalk, ?_⟩
  rw [Slots.place, hvacancy]

theorem Slots.HasRoom.entries_place {slots : Slots V} (hroom : slots.HasRoom) (key : Key)
    (value : V) : (slots.place key value).entries.Perm ((key, value) :: slots.entries) := by
  obtain ⟨index, hindex, hfree, _, hplace⟩ := hroom.place_eq key value
  rw [hplace]
  exact Slots.entries_write_full hindex hfree key value

/-- Filing a fresh nonzero key keeps every entry where its walk finds it. -/
theorem Slots.Sound.place {slots : Slots V} (hsound : slots.Sound) (hroom : slots.HasRoom)
    {key : Key} (hnonzero : key ≠ .zero)
    (hfresh : ∀ index, (slots.look index).key? ≠ some key) (value : V) :
    (slots.place key value).Sound := by
  obtain ⟨target, htarget, hfree, hwalk, hplace⟩ := hroom.place_eq key value
  have hlook := fun read => Slots.look_write htarget read (.full key value)
  have hsize := Slots.size_write slots target (.full key value)
  have hfuller : ∀ passed, (slots.look passed).isFree = false →
      ((slots.write target (.full key value)).look passed).isFree = false := by
    intro passed hfull
    rw [hlook]
    split
    · rfl
    · exact hfull
  have hstored : ∀ {index : Nat} {other : Key},
      ((slots.write target (.full key value)).look index).key? = some other →
        (index = target ∧ other = key) ∨
          (index ≠ target ∧ (slots.look index).key? = some other) := by
    intro index other hkey
    rw [hlook] at hkey
    split at hkey
    · rename_i hhere
      exact Or.inl ⟨hhere, by simpa using hkey.symm⟩
    · rename_i hthere
      exact Or.inr ⟨hthere, hkey⟩
  rw [hplace]
  constructor
  · intro index hzero
    rcases hstored hzero with ⟨_, hkey⟩ | ⟨_, hkey⟩
    · exact hnonzero hkey.symm
    · exact hsound.nonzero index hkey
  · intro first second other hfirst hsecond
    rcases hstored hfirst with ⟨hf, hkeyf⟩ | ⟨_, hkeyf⟩ <;>
      rcases hstored hsecond with ⟨hs, hkeys⟩ | ⟨_, hkeys⟩
    · rw [hf, hs]
    · exact absurd (hkeyf ▸ hkeys) (hfresh second)
    · exact absurd (hkeys ▸ hkeyf) (hfresh first)
    · exact hsound.distinct hkeyf hkeys
  · intro index other hkey
    rw [hsize]
    rcases hstored hkey with ⟨rfl, rfl⟩ | ⟨_, hold⟩
    · exact hwalk.mono hsize hfuller
    · exact (hsound.unbroken hold).mono hsize hfuller

/-- A sound circle with room for more entries, all of them fresh. -/
structure Slots.Awaits (slots : Slots V) (entries : List (Key × V)) : Prop where
  sound : slots.Sound
  nonzero : ∀ entry ∈ entries, entry.1 ≠ .zero
  distinct : ((entries ++ slots.entries).map Prod.fst).Nodup
  room : slots.entries.length + entries.length ≤ slots.size

theorem Slots.Awaits.hasRoom {slots : Slots V} {entry : Key × V} {rest : List (Key × V)}
    (hawaits : slots.Awaits (entry :: rest)) : slots.HasRoom := by
  have hroom := hawaits.room
  rw [List.length_cons] at hroom
  exact Slots.hasRoom_iff.2 (by omega)

theorem Slots.Awaits.fresh {slots : Slots V} {key : Key} {value : V} {rest : List (Key × V)}
    (hawaits : slots.Awaits ((key, value) :: rest)) (index : Nat) :
    (slots.look index).key? ≠ some key := by
  intro hkey
  have hdistinct := hawaits.distinct
  rw [List.cons_append, List.map_cons, List.nodup_cons, List.map_append, List.mem_append]
    at hdistinct
  exact hdistinct.1 (Or.inr (Slots.mem_keys_iff.2 ⟨index, hkey⟩))

/-- Once an entry has been filed, the others are awaited. -/
theorem Slots.Awaits.place {slots : Slots V} {key : Key} {value : V} {rest : List (Key × V)}
    (hawaits : slots.Awaits ((key, value) :: rest)) : (slots.place key value).Awaits rest := by
  have hadded := hawaits.hasRoom.entries_place key value
  have hmoved : (rest ++ (slots.place key value).entries).Perm
      ((key, value) :: rest ++ slots.entries) :=
    (hadded.append_left rest).trans List.perm_middle
  constructor
  case sound =>
    exact hawaits.sound.place hawaits.hasRoom (hawaits.nonzero _ List.mem_cons_self)
      hawaits.fresh value
  case nonzero => exact fun entry hentry => hawaits.nonzero entry (List.mem_cons_of_mem _ hentry)
  case distinct => exact (hmoved.map Prod.fst).nodup_iff.2 hawaits.distinct
  case room =>
    have hcount := hadded.length_eq
    have hroom := hawaits.room
    rw [List.length_cons] at hcount hroom
    rw [Slots.size_place]
    omega

/-- Filing all entries that a circle awaits, one after another, files just these. -/
theorem Slots.Awaits.place_all {slots : Slots V} {entries : List (Key × V)}
    (hawaits : slots.Awaits entries) :
    let filed := entries.foldl (fun slots entry => slots.place entry.1 entry.2) slots
    filed.Sound ∧ filed.entries.Perm (entries ++ slots.entries) := by
  induction entries generalizing slots with
  | nil => exact ⟨hawaits.sound, List.Perm.refl _⟩
  | cons head rest ih =>
      obtain ⟨key, value⟩ := head
      obtain ⟨hsound, hentries⟩ := ih hawaits.place
      have hadded := hawaits.hasRoom.entries_place key value
      exact ⟨hsound, hentries.trans ((hadded.append_left rest).trans List.perm_middle)⟩

theorem Slots.awaits_vacant {capacity : Nat} {entries : List (Key × V)}
    (hnonzero : ∀ entry ∈ entries, entry.1 ≠ .zero)
    (hdistinct : (entries.map Prod.fst).Nodup) (hroom : entries.length ≤ capacity) :
    (Slots.vacant capacity).Awaits entries where
  sound := Slots.sound_vacant capacity
  nonzero := hnonzero
  distinct := by rwa [Slots.entries_vacant, List.append_nil]
  room := by rwa [Slots.entries_vacant, Slots.size_vacant, List.length_nil, Nat.zero_add]

/-- Entries filed in a fresh circle can all be found there, and nothing else is there. -/
theorem Slots.Awaits.ofEntries {capacity : Nat} {entries : List (Key × V)}
    (hawaits : (Slots.vacant capacity).Awaits entries) :
    (Slots.ofEntries capacity entries).Sound ∧
      (Slots.ofEntries capacity entries).entries.Perm entries := by
  have hfiled := hawaits.place_all
  rwa [Slots.entries_vacant, List.append_nil] at hfiled

theorem Slots.sound_ofEntries {capacity : Nat} {entries : List (Key × V)}
    (hnonzero : ∀ entry ∈ entries, entry.1 ≠ .zero)
    (hdistinct : (entries.map Prod.fst).Nodup) (hroom : entries.length ≤ capacity) :
    (Slots.ofEntries capacity entries).Sound ∧
      (Slots.ofEntries capacity entries).entries.Perm entries :=
  (Slots.awaits_vacant hnonzero hdistinct hroom).ofEntries

theorem Slots.Sound.entries_nonzero {slots : Slots V} (hsound : slots.Sound)
    {entry : Key × V} (hentry : entry ∈ slots.entries) : entry.1 ≠ .zero := by
  intro hzero
  obtain ⟨index, hkey⟩ := Slots.mem_keys_iff.1 (List.mem_map_of_mem (f := Prod.fst) hentry)
  rw [hzero] at hkey
  exact hsound.nonzero index hkey

theorem Slots.Sound.rehash {slots : Slots V} (hsound : slots.Sound) {capacity : Nat}
    (hroom : slots.entries.length ≤ capacity) :
    (slots.rehash capacity).Sound ∧ (slots.rehash capacity).entries.Perm slots.entries :=
  Slots.sound_ofEntries (fun _ hentry => hsound.entries_nonzero hentry) hsound.keys_nodup hroom

theorem Slots.size_rehash (slots : Slots V) (capacity : Nat) :
    (slots.rehash capacity).size = capacity := Slots.size_ofEntries capacity _

end KeyedArena
