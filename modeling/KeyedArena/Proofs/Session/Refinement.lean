import KeyedArena.Proofs.Session.Runs
import KeyedArena.Registry
/-!
An arena behaves like a finite map with a counter.

A registry mirrors an arena when both list the same entries, in whatever order, and issue the same
key next.  Each request is then answered as the registry allows, and afterwards the registry still
mirrors the arena; so whole runs are answered out of the map alone.
-/

namespace KeyedArena

universe u

variable {V : Type u}

theorem Arena.Sound.entries_filed {arena after : Arena V} (hsound : arena.Sound)
    (hroom : arena.slots.HasRoom) {memory : Memory} {value : V} {key : Key}
    (hfiling : arena.Filing memory value (.ok key) after) :
    key.toInt = arena.nextKey ∧ after.nextKey = arena.nextKey + 1 ∧
      after.entries.Perm ((key, value) :: arena.entries) := by
  cases hfiling with
  | zero hnext =>
      have hnone : arena.zero = none := by
        cases hzero : arena.zero with
        | none => rfl
        | some held =>
            have hissued := hsound.zeroIssued (by rw [hzero]; rfl)
            omega
      refine ⟨by rw [Key.toInt_zero, hnext]; rfl, rfl, ?_⟩
      rw [Arena.entries_eq, Arena.entries_eq, hnone]
      exact List.Perm.refl _
  | filed hkey hnonzero hslack =>
      refine ⟨hkey, rfl, ?_⟩
      rw [Arena.entries_eq, Arena.entries_eq arena]
      exact ((hroom.entries_place key value).append_left _).trans List.perm_middle
  | grown hkey hnonzero hfull hgrowth =>
      refine ⟨hkey, rfl, ?_⟩
      have hadded := hsound.hasRoom_grown.entries_place key value
      have hkept := hsound.entries_grown.2
      rw [Arena.entries_eq, Arena.entries_eq arena]
      exact ((hadded.trans (hkept.cons _)).append_left _).trans List.perm_middle

theorem Arena.Sound.entries_removed {arena after : Arena V} (hsound : arena.Sound)
    (hroom : arena.slots.HasRoom) {key : Key} {value : V}
    (hremoval : arena.Removal key (.ok value) after) :
    after.nextKey = arena.nextKey ∧ arena.entries.Perm ((key, value) :: after.entries) := by
  cases hremoval with
  | zero hkey hvalue =>
      refine ⟨rfl, ?_⟩
      rw [Arena.entries_eq, Arena.entries_eq { arena with zero := none }, hvalue, hkey]
      exact List.Perm.refl _
  | freed hnonzero hfull =>
      refine ⟨rfl, ?_⟩
      rw [Arena.entries_eq, Arena.entries_eq (arena.free _).1]
      exact ((hsound.slots.close hroom hfull).2.append_left _).trans List.perm_middle

theorem lookup_eq_some_iff_mem {entries : List (Key × V)}
    (hdistinct : (entries.map Prod.fst).Nodup) {key : Key} {value : V} :
    entries.lookup key = some value ↔ (key, value) ∈ entries := by
  induction entries with
  | nil => simp
  | cons head tail ih =>
      obtain ⟨stored, held⟩ := head
      rw [List.map_cons, List.nodup_cons] at hdistinct
      rw [List.lookup_cons, List.mem_cons, Prod.mk.injEq]
      by_cases hsame : key = stored
      · have habsent : (key, value) ∉ tail := by
          intro hmem
          exact hdistinct.1 (List.mem_map.2 ⟨(key, value), hmem, hsame⟩)
        simp only [hsame, beq_self_eq_true, Option.some.injEq, true_and]
        rw [← hsame, or_iff_left habsent, eq_comm]
      · have hother : (key == stored) = false := beq_false_of_ne hsame
        simp only [hother, hsame, false_and, false_or]
        exact ih hdistinct.2

theorem Registry.get?_eq_some_iff (registry : Registry V) {key : Key} {value : V} :
    registry.get? key = some value ↔ (key, value) ∈ registry.entries :=
  lookup_eq_some_iff_mem registry.distinct

/-- A registry mirrors an arena when they have the same entries and the same next key. -/
structure Registry.Mirrors (registry : Registry V) (arena : Arena V) : Prop where
  entries : registry.entries.Perm arena.entries
  next : registry.next = arena.nextKey

theorem Registry.Mirrors.get?_eq {registry : Registry V} {arena : Arena V}
    (hmirrors : registry.Mirrors arena) (hsound : arena.Sound) (key : Key) :
    registry.get? key = arena.get? key := by
  apply Option.ext
  intro value
  rw [registry.get?_eq_some_iff, hsound.get?_eq_some_iff, hmirrors.entries.mem_iff]

theorem Registry.Mirrors.describes {registry : Registry V} {arena : Arena V}
    (hmirrors : registry.Mirrors arena) (hsound : arena.Sound) : registry.Describes arena where
  next := hmirrors.next
  size := hmirrors.entries.length_eq.trans hsound.size_eq.symm
  get := hmirrors.get?_eq hsound

theorem filter_bne_of_not_mem {entries : List (Key × V)} {key : Key}
    (habsent : key ∉ entries.map Prod.fst) :
    (entries.filter fun entry => entry.1 != key) = entries := by
  rw [List.filter_eq_self]
  intro entry hentry
  rw [bne_iff_ne]
  rintro rfl
  exact habsent (List.mem_map_of_mem hentry)

/-- Erasing a key takes exactly its entry out of the map. -/
theorem Registry.perm_erase {registry : Registry V} {key : Key} {value : V}
    {rest : List (Key × V)} (hentries : registry.entries.Perm ((key, value) :: rest)) :
    (registry.erase key).entries.Perm rest := by
  have hdistinct := (hentries.map Prod.fst).nodup_iff.1 registry.distinct
  rw [List.map_cons, List.nodup_cons] at hdistinct
  have hfiltered := hentries.filter fun entry => entry.1 != key
  rw [List.filter_cons_of_neg (by simp), filter_bne_of_not_mem hdistinct.1] at hfiltered
  exact hfiltered

theorem Registry.erase_entries_of_absent {registry : Registry V} {key : Key}
    (habsent : registry.get? key = none) : (registry.erase key).entries = registry.entries := by
  apply filter_bne_of_not_mem
  intro hmem
  obtain ⟨⟨_, value⟩, hentry, rfl⟩ := List.mem_map.1 hmem
  have hfound := registry.get?_eq_some_iff.2 hentry
  rw [habsent] at hfound
  contradiction

/-- An object filed in the arena is filed in the map, and a refused one in neither. -/
theorem Registry.Mirrors.files_add {registry : Registry V} {arena : Arena V}
    (hmirrors : registry.Mirrors arena) (hsound : arena.Sound) (hroom : arena.slots.HasRoom)
    (memory : Memory) (value : V) :
    ∃ after, registry.Files value ((arena.add memory value).reply memory Answer.key).answer after ∧
      after.Mirrors (arena.add memory value).arena := by
  have hfiling := arena.filing_add memory value
  rw [Outcome.answer_reply]
  cases hanswer : (arena.add memory value).answer with
  | error failure =>
      rw [hanswer] at hfiling
      rw [Arena.eq_of_filing_refused hfiling]
      exact ⟨registry, Or.inr ⟨failure, rfl, rfl⟩, hmirrors⟩
  | ok key =>
      rw [hanswer] at hfiling
      obtain ⟨hkey, hnext, hentries⟩ := hsound.entries_filed hroom hfiling
      have hissued : Key.ofInt? registry.next = some key := by
        rw [hmirrors.next, ← hkey, Key.ofInt?_toInt]
      have habsent : registry.get? key = none := by
        rw [hmirrors.get?_eq hsound, Option.eq_none_iff_forall_ne_some]
        intro held hfound
        have hmem := hsound.get?_eq_some_iff.1 hfound
        have hlisted := (hentries.map Prod.fst).nodup_iff.1
          ((hsound.step hroom (.file hfiling)).keys_nodup)
        rw [List.map_cons, List.nodup_cons] at hlisted
        exact hlisted.1 (List.mem_map.2 ⟨(key, held), hmem, rfl⟩)
      have hlonger : (registry.issue key value).entries = (key, value) :: registry.entries :=
        congrArg (List.cons (key, value)) (Registry.erase_entries_of_absent habsent)
      refine ⟨registry.issue key value, Or.inl ⟨key, hissued, rfl, rfl⟩, ?_, ?_⟩
      · rw [hlonger]
        exact (hmirrors.entries.cons _).trans hentries.symm
      · rw [Registry.issue, hnext, hmirrors.next]

/-- An object removed from the arena is erased from the map, and a missing one from neither. -/
theorem Registry.Mirrors.removes {registry : Registry V} {arena : Arena V}
    (hmirrors : registry.Mirrors arena) (hsound : arena.Sound) (hroom : arena.slots.HasRoom)
    (memory : Memory) (key : Key) :
    ∃ after, registry.Answers (.remove key)
        ((arena.remove key).reply memory Answer.value).answer after ∧
      after.Mirrors (arena.remove key).arena := by
  have hget := hmirrors.get?_eq hsound key
  have hremoval := arena.removal_remove key
  rw [Outcome.answer_reply]
  simp only [Registry.Answers]
  cases hanswer : (arena.remove key).answer with
  | error failure =>
      rw [hanswer] at hremoval
      obtain ⟨hfailure, hafter, hnone⟩ := Arena.removal_refused hremoval
      rw [hget, hnone, hafter, hfailure]
      exact ⟨registry, ⟨rfl, rfl⟩, hmirrors⟩
  | ok value =>
      rw [hanswer] at hremoval
      obtain ⟨hnext, hentries⟩ := hsound.entries_removed hroom hremoval
      have hfound : registry.get? key = some value := by
        rw [hget, hsound.get?_eq_some_iff, hentries.mem_iff]
        exact List.mem_cons_self
      rw [hfound]
      exact ⟨registry.erase key, ⟨rfl, rfl⟩,
        Registry.perm_erase (hmirrors.entries.trans hentries), hmirrors.next.trans hnext.symm⟩

/-- Every request is answered as the mirroring map allows, and the map goes on mirroring. -/
theorem Registry.Mirrors.handle {registry : Registry V} {session : Session V}
    (hmirrors : registry.Mirrors session.arena) (hsound : session.arena.Sound)
    (hroom : session.arena.slots.HasRoom) (request : Request V) :
    ∃ after, registry.Answers request (session.handle request).answer after ∧
      after.Mirrors (session.handle request).session.arena := by
  have hget := hmirrors.get?_eq hsound
  obtain ⟨arena, memory⟩ := session
  cases request with
  | add value =>
      rw [Session.handle, Outcome.arena_reply]
      exact hmirrors.files_add hsound hroom memory value
  | get key =>
      refine ⟨registry, ⟨rfl, ?_⟩, hmirrors⟩
      rw [hget, Session.handle, Session.tell, Arena.get]
      cases arena.get? key <;> rfl
  | remove key =>
      rw [Session.handle, Outcome.arena_reply]
      exact hmirrors.removes hsound hroom memory key
  | duplicate key =>
      rw [Session.handle, Outcome.arena_reply, Arena.duplicate]
      simp only [Registry.Answers]
      rw [hget]
      cases arena.get? key with
      | none => exact ⟨registry, ⟨rfl, rfl⟩, hmirrors⟩
      | some value => exact hmirrors.files_add hsound hroom memory value
  | contains key =>
      refine ⟨registry, ⟨rfl, ?_⟩, hmirrors⟩
      rw [hget, Session.handle, Session.tell, Arena.contains_eq]
  | size =>
      refine ⟨registry, ⟨rfl, ?_⟩, hmirrors⟩
      rw [Session.handle, Session.tell, hsound.size_eq, hmirrors.entries.length_eq]
  | isEmpty =>
      refine ⟨registry, ⟨rfl, ?_⟩, hmirrors⟩
      rw [Session.handle, Session.tell, Arena.isEmpty, hsound.size_eq,
        ← hmirrors.entries.length_eq]
      cases registry.entries <;> rfl
  | advance key =>
      exact ⟨{ registry with next := max registry.next key }, ⟨rfl, rfl⟩, hmirrors.entries,
        congrArg (max · key) hmirrors.next⟩
  | setCeiling ceiling => exact ⟨registry, ⟨rfl, rfl⟩, hmirrors.entries, hmirrors.next⟩
  | setMemory memory => exact ⟨registry, ⟨rfl, rfl⟩, hmirrors⟩

/-- The answers that a registry allows to requests one after another, and what becomes of it. -/
inductive Registry.Follows :
    Registry V → List (Request V) → List (Answer V) → Registry V → Prop where
  | nil (registry : Registry V) : Follows registry [] [] registry
  | cons {registry after final : Registry V} {request : Request V} {answer : Answer V}
      {requests : List (Request V)} {answers : List (Answer V)}
      (hanswer : registry.Answers request answer after)
      (hrest : after.Follows requests answers final) :
      Follows registry (request :: requests) (answer :: answers) final

theorem Registry.Mirrors.run {registry : Registry V} {session : Session V}
    (hmirrors : registry.Mirrors session.arena) (hsound : session.arena.Sound)
    {requests : List (Request V)} (hspacious : session.Spacious requests) :
    ∃ final, registry.Follows requests (session.run requests).2 final ∧
      final.Mirrors (session.run requests).1.arena ∧ (session.run requests).1.arena.Sound := by
  induction requests generalizing registry session with
  | nil => exact ⟨registry, .nil registry, hmirrors, hsound⟩
  | cons request rest ih =>
      obtain ⟨hroom, hlater⟩ := hspacious
      obtain ⟨after, hanswer, hafter⟩ := hmirrors.handle hsound hroom request
      have hkept := hsound.step hroom (session.step_handle request)
      obtain ⟨final, hfollows, hend⟩ := ih hafter hkept hlater
      exact ⟨final, .cons hanswer hfollows, hend⟩

theorem Session.Fresh.mirrors {settings : Settings} {session : Session V}
    (hfresh : session.Fresh settings) : ({} : Registry V).Mirrors session.arena := by
  obtain ⟨_, _, harena⟩ := hfresh.vacant
  rw [harena]
  refine ⟨?_, rfl⟩
  rw [Arena.entries_eq, Arena.vacant, Slots.entries_vacant]
  exact List.Perm.refl _

/-- A fresh arena answers every run of requests, as long as a slot is free before each of them,
exactly as a finite map with a counter does; in the state that it reaches, it still agrees with
the map on every key, and filing the object under a key once more is filing that object. -/
theorem Session.run_follows_registry {settings : Settings} {session : Session V}
    (hfresh : session.Fresh settings) (requests : List (Request V))
    (hspacious : session.Spacious requests) :
    ∃ final : Registry V,
      Registry.Follows {} requests (session.run requests).2 final ∧
      final.Describes (session.run requests).1.arena ∧
      ∀ key value, final.get? key = some value →
        (session.run requests).1.handle (.duplicate key) =
          (session.run requests).1.handle (.add value) := by
  obtain ⟨final, hfollows, hmirrors, hsound⟩ := hfresh.mirrors.run hfresh.sound hspacious
  refine ⟨final, hfollows, hmirrors.describes hsound, ?_⟩
  intro key value hfound
  rw [hmirrors.get?_eq hsound] at hfound
  rcases hreached : (session.run requests).1 with ⟨arena, memory⟩
  rw [hreached] at hfound
  rw [Session.handle, Session.handle, Arena.duplicate, hfound]

/-- A run that files, duplicates, removes and misses, with keys passed over in between. -/
theorem Session.run_follows_registry_churn :
    ∃ final : Registry Nat,
      Registry.Follows {} [.add 7, .advance 15, .duplicate ⟨0⟩, .remove ⟨15⟩, .get ⟨-1⟩]
        ((⟨.plain, {}⟩ : Session Nat).run
          [.add 7, .advance 15, .duplicate ⟨0⟩, .remove ⟨15⟩, .get ⟨-1⟩]).2 final ∧
      final.Describes ((⟨.plain, {}⟩ : Session Nat).run
        [.add 7, .advance 15, .duplicate ⟨0⟩, .remove ⟨15⟩, .get ⟨-1⟩]).1.arena ∧
      ∀ key value, final.get? key = some value →
        ((⟨.plain, {}⟩ : Session Nat).run
          [.add 7, .advance 15, .duplicate ⟨0⟩, .remove ⟨15⟩, .get ⟨-1⟩]).1.handle
            (.duplicate key) =
          ((⟨.plain, {}⟩ : Session Nat).run
            [.add 7, .advance 15, .duplicate ⟨0⟩, .remove ⟨15⟩, .get ⟨-1⟩]).1.handle
              (.add value) :=
  Session.run_follows_registry (.plain {}) _ (by decide +kernel)

end KeyedArena
