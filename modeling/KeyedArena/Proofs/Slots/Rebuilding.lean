import KeyedArena.Proofs.Slots.Exchange
/-!
Every circle with room is one that filing makes, and closing a gap undoes a filing.

Take the last entry before a free slot away and no other entry moves; file it again and it comes to
the same slot.  So a sound circle is what filing its entries in some order makes of a fresh one.
Removing an entry from such a circle leaves what filing all the others, in that order, would have
made: the entry might as well never have been filed.
-/

namespace KeyedArena

universe u

variable {V : Type u}

theorem Slots.ofEntries_append_singleton (capacity : Nat) (entries : List (Key × V)) (key : Key)
    (value : V) :
    Slots.ofEntries capacity (entries ++ [(key, value)]) =
      (Slots.ofEntries capacity entries).place key value := by
  rw [Slots.ofEntries, List.foldl_append]
  rfl

theorem Slots.eq_vacant_of_entries {slots : Slots V} (hnone : slots.entries = []) :
    slots = .vacant slots.size := by
  apply Array.ext (Slots.size_vacant _).symm
  intro index hindex hvacant
  rw [← Slots.look_eq_getElem hindex, ← Slots.look_eq_getElem hvacant, Slots.look_vacant]
  cases hslot : slots.look index with
  | free => rfl
  | full key value =>
      have hentry := Slots.mem_entries_iff.2 ⟨index, hslot⟩
      rw [hnone] at hentry
      simp at hentry

/-- Where there are a free slot and a full one, a full one comes right before a free one. -/
theorem Slots.HasRoom.exists_full_before_free {slots : Slots V} (hroom : slots.HasRoom)
    {index : Nat} (hfull : slots.look index ≠ .free) :
    ∃ last, slots.look last ≠ .free ∧ slots.look (following slots.size last) = .free := by
  classical
  obtain ⟨free, hfree, hfreeSlot⟩ := hroom
  -- the full slot from which the way to the free one is shortest
  have hsome : ∃ steps, ∃ last, slots.look last ≠ .free ∧
      distance slots.size last free = steps := ⟨_, index, hfull, rfl⟩
  obtain ⟨last, hlast, hsteps⟩ := Nat.find_spec hsome
  refine ⟨last, hlast, ?_⟩
  by_contra hnext
  have hbound := Slots.lt_size_of_look_ne_free hlast
  have hne : free ≠ last := by
    rintro rfl
    exact hlast hfreeSlot
  have hnearer := distance_following hbound hfree hne
  have hleast := Nat.find_min' hsome ⟨_, hnext, rfl⟩
  omega

theorem Slots.close_eq_of_following_free {slots : Slots V} {index : Nat} {key : Key} {value : V}
    (hfull : slots.look index = .full key value)
    (hnext : slots.look (following slots.size index) = .free) :
    slots.close index = ⟨slots.write index .free, index, []⟩ := by
  have hne : index ≠ following slots.size index := by
    intro hsame
    rw [← hsame, hfull] at hnext
    simp at hnext
  have hstill : (slots.write index .free).look (following slots.size index) = .free := by
    rw [Slots.look_write_of_ne _ _ hne, hnext]
  rw [Slots.close]
  cases slots.size - 1 with
  | zero => rfl
  | succ n =>
      rw [Closing.sweep, if_pos]
      exact Slot.isFree_iff.2 hstill

/-- An entry that is taken out of a sound circle and filed again before anything else changes comes
back to its slot. -/
theorem Slots.Sound.place_write_free {slots : Slots V} (hsound : slots.Sound) {index : Nat}
    {key : Key} {value : V} (hfull : slots.look index = .full key value) :
    (slots.write index .free).place key value = slots := by
  have hkey := Slots.key?_of_full hfull
  have hindex := Slots.lt_size_of_key? hkey
  have hhome := key.home_lt (by omega : 0 < slots.size)
  have hwritten := Slots.size_write slots index .free
  have hwalk : (slots.write index .free).Unbroken
      (key.home (slots.write index .free).size) index := by
    rw [hwritten, Slots.unbroken_iff (by rwa [hwritten]), hwritten]
    intro passed hpassed hbefore
    have hne : index ≠ passed := by
      rintro rfl
      exact Nat.lt_irrefl _ hbefore
    rw [Slots.look_write_of_ne _ _ hne]
    exact (Slots.unbroken_iff hhome).1 (hsound.unbroken hkey) passed hpassed hbefore
  rw [Slots.place_eq_write (by rwa [hwritten]) (Slots.look_write_self hindex _) hwalk,
    Slots.write_write, Slots.write_of_look hindex hfull]

/-- A sound circle with room is what filing its entries in some order makes. -/
theorem Slots.Sound.exists_filing {slots : Slots V} (hsound : slots.Sound)
    (hroom : slots.HasRoom) :
    ∃ filed : List (Key × V), slots = .ofEntries slots.size filed ∧ filed.Perm slots.entries := by
  induction hcount : slots.entries.length generalizing slots with
  | zero =>
      have hnone := List.length_eq_zero_iff.1 hcount
      exact ⟨[], Slots.eq_vacant_of_entries hnone, by rw [hnone]⟩
  | succ n ih =>
      obtain ⟨⟨key, value⟩, hentry⟩ := List.exists_mem_of_length_pos (by omega :
        0 < slots.entries.length)
      obtain ⟨index, hindex⟩ := Slots.mem_entries_iff.1 hentry
      obtain ⟨last, hlast, hnext⟩ :=
        hroom.exists_full_before_free (Slots.look_ne_free hindex)
      obtain ⟨stored, held, hslot⟩ :=
        Slot.isFree_eq_false_iff.1 (Slot.isFree_eq_false_iff_ne.2 hlast)
      obtain ⟨hclosed, hentries⟩ := hsound.close hroom hslot
      rw [Slots.close_eq_of_following_free hslot hnext] at hclosed hentries
      have hbound := Slots.lt_size_of_look_ne_free hlast
      have hwritten := Slots.size_write slots last (.free : Slot V)
      have hfewer := hentries.length_eq
      rw [List.length_cons] at hfewer
      obtain ⟨filed, hfiled, hperm⟩ := ih hclosed
        ⟨last, by rwa [hwritten], Slots.look_write_self hbound _⟩ (by omega)
      rw [hwritten] at hfiled
      refine ⟨filed ++ [(stored, held)], ?_, ?_⟩
      · rw [Slots.ofEntries_append_singleton, ← hfiled, hsound.place_write_free hslot]
      · exact (List.perm_append_singleton _ _).trans ((hperm.cons _).trans hentries.symm)

theorem Slots.hasRoom_ofEntries {capacity : Nat} {filed : List (Key × V)}
    (hnonzero : ∀ entry ∈ filed, entry.1 ≠ .zero) (hdistinct : (filed.map Prod.fst).Nodup)
    (hroom : filed.length < capacity) : (Slots.ofEntries capacity filed).HasRoom := by
  have hentries := (Slots.sound_ofEntries hnonzero hdistinct (Nat.le_of_lt hroom)).2
  rw [Slots.hasRoom_iff, hentries.length_eq, Slots.size_ofEntries]
  exact hroom

/-- Removing an entry leaves what filing all the others would have made. -/
theorem Slots.close_ofEntries {capacity : Nat} {filed : List (Key × V)}
    (hnonzero : ∀ entry ∈ filed, entry.1 ≠ .zero) (hdistinct : (filed.map Prod.fst).Nodup)
    (hroom : filed.length < capacity) {index : Nat} {key : Key}
    (hkey : ((Slots.ofEntries capacity filed).look index).key? = some key) :
    ((Slots.ofEntries capacity filed).close index).slots =
      .ofEntries capacity (filed.filter (·.1 ≠ key)) := by
  induction filed using List.reverseRecOn generalizing index with
  | nil => simp [Slots.ofEntries, Slots.look_vacant] at hkey
  | append_singleton earlier entry ih =>
      obtain ⟨other, held⟩ := entry
      have hafter := Slots.hasRoom_ofEntries hnonzero hdistinct hroom
      rw [Slots.ofEntries_append_singleton] at hafter
      have hearlier : ∀ entry ∈ earlier, entry.1 ≠ .zero :=
        fun entry hentry => hnonzero entry (List.mem_append_left _ hentry)
      have hother : other ≠ .zero := hnonzero (other, held) (by simp)
      rw [List.map_append, List.map_singleton, List.nodup_append] at hdistinct
      obtain ⟨hnodup, _, hapart⟩ := hdistinct
      have habsent : other ∉ earlier.map Prod.fst :=
        fun hmem => hapart other hmem other List.mem_cons_self rfl
      rw [List.length_append, List.length_singleton] at hroom
      obtain ⟨hsound, hentries⟩ :=
        Slots.sound_ofEntries hearlier hnodup (by omega : earlier.length ≤ capacity)
      have hfresh : ∀ place, ((Slots.ofEntries capacity earlier).look place).key? ≠ some other :=
        fun place hplace => habsent
          ((hentries.map Prod.fst).mem_iff.1 (Slots.mem_keys_iff.2 ⟨place, hplace⟩))
      have hbefore := Slots.hasRoom_ofEntries hearlier hnodup (Nat.lt_of_succ_lt hroom)
      obtain ⟨target, htarget, hfree, _, hplaced⟩ := hbefore.place_eq other held
      rw [Slots.ofEntries_append_singleton] at hkey ⊢
      by_cases hsame : other = key
      · -- the entry filed last is the one removed
        have hhere : index = target := by
          rw [hplaced, Slots.look_write htarget] at hkey
          split at hkey
          · assumption
          · exact absurd (hsame ▸ hkey) (hfresh index)
        have hothers : earlier.filter (·.1 ≠ key) = earlier := by
          rw [List.filter_eq_self]
          intro entry hentry
          apply decide_eq_true
          rintro rfl
          exact habsent (hsame ▸ List.mem_map_of_mem hentry)
        rw [hplaced, hhere, hsound.close_place_self htarget hfree, List.filter_append, hothers,
          List.filter_cons_of_neg (by simpa using hsame), List.filter_nil, List.append_nil]
      · have hkept : ((Slots.ofEntries capacity earlier).look index).key? = some key := by
          rw [hplaced, Slots.look_write htarget] at hkey
          split at hkey
          · exact absurd (by simpa using hkey) hsame
          · exact hkey
        have hfull : (Slots.ofEntries capacity earlier).look index ≠ .free := by
          intro hempty
          rw [hempty] at hkept
          simp at hkept
        rw [hsound.close_place hother hfresh hafter hfull,
          ih hearlier hnodup (by omega) hkept, List.filter_append,
          List.filter_cons_of_pos (by simpa using hsame), List.filter_nil,
          Slots.ofEntries_append_singleton]

end KeyedArena
