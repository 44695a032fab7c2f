import KeyedArena.Proofs.Session.Refinement
/-!
Ledgers: what a caller can write down from its own requests and the answers to them.

A ledger knows of no slots, only which keys were issued, for which objects, and which were removed.
As long as the answers are those that a registry allows, the ledger says of each key what the
registry says; so it tells which keys are in use, and with which objects.
-/

namespace KeyedArena

universe u

variable {V : Type u}

/-- What a caller writes down: the keys that it was issued, in order and each with the object filed
under it, and the keys under which it removed an object. -/
structure Ledger (V : Type u) where
  issued : List (Key × V) := []
  removed : List Key := []

def Ledger.keys (ledger : Ledger V) : List Key := ledger.issued.map Prod.fst

def Answer.issued? : Answer V → Option Key
  | .key issued => some issued
  | _ => none

def issuedKeys (answers : List (Answer V)) : List Key := answers.filterMap Answer.issued?

/-- Writes down one request and its answer.  A duplicate is filed with the object of the key that it
was made from. -/
def Ledger.note (ledger : Ledger V) (request : Request V) (answer : Answer V) : Ledger V :=
  match request, answer with
  | .add value, .key key => { ledger with issued := ledger.issued ++ [(key, value)] }
  | .duplicate source, .key key =>
      match ledger.issued.lookup source with
      | none => ledger
      | some value => { ledger with issued := ledger.issued ++ [(key, value)] }
  | .remove key, .value _ => { ledger with removed := key :: ledger.removed }
  | _, _ => ledger

def Ledger.after (ledger : Ledger V) : List (Request V) → List (Answer V) → Ledger V
  | request :: requests, answer :: answers => (ledger.note request answer).after requests answers
  | _, _ => ledger

/-- A ledger says of each key what the registry says, and the registry goes on where it ends. -/
structure Ledger.Reflects (ledger : Ledger V) (registry : Registry V) : Prop where
  holds : ∀ {key : Key} {value : V},
    registry.get? key = some value ↔ (key, value) ∈ ledger.issued ∧ key ∉ ledger.removed
  increasing : ledger.keys.Pairwise fun left right => left.toInt < right.toInt
  bounded : ∀ key ∈ ledger.keys, 0 ≤ key.toInt ∧ key.toInt < registry.next
  removed : ∀ key ∈ ledger.removed, key ∈ ledger.keys

/-- What a request and its answer do to a ledger and to the registry that allows the answer. -/
inductive Ledger.Noting (ledger : Ledger V) (registry : Registry V) (request : Request V)
    (answer : Answer V) : Ledger V → Registry V → Prop where
  | issue {key : Key} {value : V} (hnext : Key.ofInt? registry.next = some key)
      (hanswer : answer.issued? = some key) :
      Noting ledger registry request answer
        { ledger with issued := ledger.issued ++ [(key, value)] } (registry.issue key value)
  | erase {key : Key} {value : V} (hfound : registry.get? key = some value)
      (hanswer : answer.issued? = none) :
      Noting ledger registry request answer
        { ledger with removed := key :: ledger.removed } (registry.erase key)
  | advance (key : Nat) (hrequest : request = .advance key) (hanswer : answer.issued? = none) :
      Noting ledger registry request answer ledger
        { registry with next := max registry.next key }
  | idle (hanswer : answer.issued? = none) : Noting ledger registry request answer ledger registry

theorem Ledger.Reflects.nodup {ledger : Ledger V} {registry : Registry V}
    (hreflects : ledger.Reflects registry) : ledger.keys.Nodup := by
  refine hreflects.increasing.imp ?_
  rintro left right hless rfl
  exact Int.lt_irrefl _ hless

/-- Nothing else is noted. -/
theorem Ledger.Reflects.noting {ledger : Ledger V} {registry after : Registry V}
    (hreflects : ledger.Reflects registry) {request : Request V} {answer : Answer V}
    (hanswers : registry.Answers request answer after) :
    ledger.Noting registry request answer (ledger.note request answer) after := by
  cases request with
  | add value =>
      rcases hanswers with ⟨key, hnext, rfl, rfl⟩ | ⟨failure, rfl, rfl⟩
      · exact .issue hnext rfl
      · exact .idle rfl
  | duplicate source =>
      simp only [Registry.Answers] at hanswers
      cases hfound : registry.get? source with
      | none =>
          rw [hfound] at hanswers
          obtain ⟨rfl, rfl⟩ := hanswers
          exact .idle rfl
      | some value =>
          rw [hfound] at hanswers
          rcases hanswers with ⟨key, hnext, rfl, rfl⟩ | ⟨failure, rfl, rfl⟩
          · have hnoted : ledger.issued.lookup source = some value :=
              (lookup_eq_some_iff_mem hreflects.nodup).2 (hreflects.holds.1 hfound).1
            simp only [Ledger.note, hnoted]
            exact .issue hnext rfl
          · exact .idle rfl
  | remove key =>
      simp only [Registry.Answers] at hanswers
      cases hfound : registry.get? key with
      | none =>
          rw [hfound] at hanswers
          obtain ⟨rfl, rfl⟩ := hanswers
          exact .idle rfl
      | some value =>
          rw [hfound] at hanswers
          obtain ⟨rfl, rfl⟩ := hanswers
          exact .erase hfound rfl
  | get key =>
      obtain ⟨rfl, rfl⟩ := hanswers
      cases after.get? key <;> exact .idle rfl
  | contains key =>
      obtain ⟨rfl, rfl⟩ := hanswers
      exact .idle rfl
  | size =>
      obtain ⟨rfl, rfl⟩ := hanswers
      exact .idle rfl
  | isEmpty =>
      obtain ⟨rfl, rfl⟩ := hanswers
      exact .idle rfl
  | advance key =>
      obtain ⟨rfl, rfl⟩ := hanswers
      exact .advance key rfl rfl
  | setCeiling ceiling =>
      obtain ⟨rfl, rfl⟩ := hanswers
      exact .idle rfl
  | setMemory memory =>
      obtain ⟨rfl, rfl⟩ := hanswers
      exact .idle rfl

theorem Registry.get?_issue_eq_some_iff {registry : Registry V} {key other : Key}
    {value held : V} :
    (registry.issue key value).get? other = some held ↔
      (other = key ∧ held = value) ∨ (other ≠ key ∧ registry.get? other = some held) := by
  simp only [Registry.get?_eq_some_iff, Registry.issue, Registry.erase, List.mem_cons,
    Prod.mk.injEq, List.mem_filter, bne_iff_ne]
  rw [and_comm (a := other ≠ key)]

theorem Registry.get?_erase_eq_some_iff {registry : Registry V} {key other : Key} {held : V} :
    (registry.erase key).get? other = some held ↔
      other ≠ key ∧ registry.get? other = some held := by
  simp only [Registry.get?_eq_some_iff, Registry.erase, List.mem_filter, bne_iff_ne]
  exact and_comm

/-- Keys that are negative, not issued or removed name nothing. -/
theorem Ledger.Reflects.get?_eq_none {ledger : Ledger V} {registry : Registry V}
    (hreflects : ledger.Reflects registry) {key : Key}
    (hdead : key.toInt < 0 ∨ key ∉ ledger.keys ∨ key ∈ ledger.removed) :
    registry.get? key = none := by
  rw [Option.eq_none_iff_forall_ne_some]
  intro value hfound
  obtain ⟨hissued, hunremoved⟩ := hreflects.holds.1 hfound
  have hkey : key ∈ ledger.keys := List.mem_map_of_mem hissued
  rcases hdead with hnegative | hunissued | hremoved
  · have hbound := hreflects.bounded key hkey
    omega
  · exact hunissued hkey
  · exact hunremoved hremoved

/-- The next key is none of those written down, which are all below it. -/
theorem Ledger.Reflects.next_fresh {ledger : Ledger V} {registry : Registry V}
    (hreflects : ledger.Reflects registry) {key : Key}
    (hnext : Key.ofInt? registry.next = some key) : key ∉ ledger.keys := by
  intro hissued
  have hkey := Key.toInt_of_ofInt? hnext
  have hbelow := (hreflects.bounded key hissued).2
  omega

theorem Ledger.Reflects.holds_issue {ledger : Ledger V} {registry : Registry V}
    (hreflects : ledger.Reflects registry) {key : Key} (hfresh : key ∉ ledger.keys)
    (value : V) (other : Key) (held : V) :
    (registry.issue key value).get? other = some held ↔
      (other, held) ∈ ledger.issued ++ [(key, value)] ∧ other ∉ ledger.removed := by
  have hunremoved : key ∉ ledger.removed := fun hmem => hfresh (hreflects.removed key hmem)
  rw [Registry.get?_issue_eq_some_iff, hreflects.holds, List.mem_append, List.mem_singleton,
    Prod.mk.injEq]
  by_cases hsame : other = key
  · have habsent : (other, held) ∉ ledger.issued := by
      intro hissued
      exact hfresh (hsame ▸ List.mem_map_of_mem hissued)
    simp [hsame, hunremoved, hsame ▸ habsent]
  · simp [hsame]

/-- Issuing the next key keeps the ledger in step: the key is above all others. -/
theorem Ledger.Reflects.issue {ledger : Ledger V} {registry : Registry V}
    (hreflects : ledger.Reflects registry) {key : Key}
    (hnext : Key.ofInt? registry.next = some key) (value : V) :
    Ledger.Reflects { ledger with issued := ledger.issued ++ [(key, value)] }
      (registry.issue key value) := by
  have hkey := Key.toInt_of_ofInt? hnext
  have hkeys : ({ ledger with issued := ledger.issued ++ [(key, value)] } : Ledger V).keys =
      ledger.keys ++ [key] := List.map_append
  constructor
  case holds => exact hreflects.holds_issue (hreflects.next_fresh hnext) value _ _
  case increasing =>
    rw [hkeys, List.pairwise_append]
    refine ⟨hreflects.increasing, List.pairwise_singleton _ _, ?_⟩
    intro left hleft right hright
    have hbelow := (hreflects.bounded left hleft).2
    rw [List.mem_singleton.1 hright]
    omega
  case bounded =>
    intro other hother
    have hlater : (registry.issue key value).next = registry.next + 1 := rfl
    rw [hkeys, List.mem_append, List.mem_singleton] at hother
    rw [hlater]
    rcases hother with hold | rfl
    · have hbelow := hreflects.bounded other hold
      omega
    · omega
  case removed =>
    intro other hother
    rw [hkeys]
    exact List.mem_append_left _ (hreflects.removed other hother)

/-- Erasing a key keeps the ledger in step: the key stays among those issued. -/
theorem Ledger.Reflects.erase {ledger : Ledger V} {registry : Registry V}
    (hreflects : ledger.Reflects registry) {key : Key} {value : V}
    (hfound : registry.get? key = some value) :
    Ledger.Reflects { ledger with removed := key :: ledger.removed } (registry.erase key) := by
  constructor
  case holds =>
    intro other held
    rw [Registry.get?_erase_eq_some_iff, hreflects.holds, List.mem_cons, not_or]
    exact and_left_comm
  case increasing => exact hreflects.increasing
  case bounded => exact hreflects.bounded
  case removed =>
    intro other hother
    rcases List.mem_cons.1 hother with rfl | hold
    · exact List.mem_map_of_mem (hreflects.holds.1 hfound).1
    · exact hreflects.removed other hold

theorem Ledger.Reflects.advance {ledger : Ledger V} {registry : Registry V}
    (hreflects : ledger.Reflects registry) (next : Nat) :
    ledger.Reflects { registry with next := max registry.next next } := by
  refine ⟨hreflects.holds, hreflects.increasing, ?_, hreflects.removed⟩
  intro other hother
  have hbelow := hreflects.bounded other hother
  dsimp only
  omega

/-- Whatever is noted, the ledger stays in step with the registry. -/
theorem Ledger.Noting.reflects {ledger later : Ledger V} {registry after : Registry V}
    {request : Request V} {answer : Answer V}
    (hnoting : ledger.Noting registry request answer later after)
    (hreflects : ledger.Reflects registry) : later.Reflects after := by
  cases hnoting with
  | issue hnext hanswer => exact hreflects.issue hnext _
  | erase hfound hanswer => exact hreflects.erase hfound
  | advance key hrequest hanswer => exact hreflects.advance key
  | idle hanswer => exact hreflects

theorem Ledger.reflects_empty : ({} : Ledger V).Reflects {} where
  holds := by simp [Registry.get?]
  increasing := List.Pairwise.nil
  bounded := nofun
  removed := nofun

theorem Ledger.Reflects.follows {ledger : Ledger V} {registry final : Registry V}
    {requests : List (Request V)} {answers : List (Answer V)}
    (hreflects : ledger.Reflects registry) (hfollows : registry.Follows requests answers final) :
    (ledger.after requests answers).Reflects final := by
  induction hfollows generalizing ledger with
  | nil registry => exact hreflects
  | cons hanswer hrest ih => exact ih ((hreflects.noting hanswer).reflects hreflects)

theorem Ledger.Noting.keys_eq {ledger later : Ledger V} {registry after : Registry V}
    {request : Request V} {answer : Answer V}
    (hnoting : ledger.Noting registry request answer later after) :
    later.keys = ledger.keys ++ answer.issued?.toList := by
  cases hnoting with
  | issue hnext hissued =>
      rw [hissued]
      exact List.map_append
  | erase hfound hissued =>
      rw [hissued]
      exact (List.append_nil _).symm
  | advance key hrequest hissued =>
      rw [hissued]
      exact (List.append_nil _).symm
  | idle hissued =>
      rw [hissued]
      exact (List.append_nil _).symm

/-- All keys issued in a run are written down. -/
theorem Ledger.Reflects.keys_after {ledger : Ledger V} {registry final : Registry V}
    {requests : List (Request V)} {answers : List (Answer V)}
    (hreflects : ledger.Reflects registry) (hfollows : registry.Follows requests answers final) :
    (ledger.after requests answers).keys = ledger.keys ++ issuedKeys answers := by
  induction hfollows generalizing ledger with
  | nil registry => exact (List.append_nil _).symm
  | @cons _ _ _ _ answer _ answers hanswer hrest ih =>
      have hnoting := hreflects.noting hanswer
      rw [Ledger.after, ih (hnoting.reflects hreflects), hnoting.keys_eq, List.append_assoc,
        issuedKeys, issuedKeys, List.filterMap_cons]
      cases answer.issued? <;> rfl

/-- As long as no key is passed over, the keys are the numbers up to the next one. -/
theorem Ledger.Reflects.consecutive {ledger : Ledger V} {registry final : Registry V}
    {requests : List (Request V)} {answers : List (Answer V)}
    (hreflects : ledger.Reflects registry) (hfollows : registry.Follows requests answers final)
    (hcalls : ∀ request ∈ requests, ∀ key, request ≠ .advance key)
    (hkeys : ledger.keys.map Key.toInt = (List.range registry.next).map Nat.cast) :
    (ledger.after requests answers).keys.map Key.toInt =
      (List.range final.next).map Nat.cast := by
  induction hfollows generalizing ledger with
  | nil registry => exact hkeys
  | @cons registry _ _ request answer _ answers hanswer hrest ih =>
      have hnoting := hreflects.noting hanswer
      have hfirst := hcalls request List.mem_cons_self
      refine ih (hnoting.reflects hreflects)
        (fun later hlater => hcalls later (List.mem_cons_of_mem _ hlater)) ?_
      generalize hnoted : ledger.note request answer = noted at hnoting
      cases hnoting with
      | issue hnext hissued =>
          rename_i key value
          have hlater : (registry.issue key value).next = registry.next + 1 := rfl
          rw [Ledger.keys, List.map_append, List.map_append, hlater, List.range_succ,
            List.map_append, ← hkeys]
          exact congrArg (_ ++ [·]) (Key.toInt_of_ofInt? hnext)
      | erase hfound hissued => exact hkeys
      | advance key hrequest hissued => exact absurd hrequest (hfirst key)
      | idle hissued => exact hkeys

theorem Key.toInt_eq_of_getElem? {keys : List Key} {n i : Nat} {key : Key}
    (hrange : keys.map Key.toInt = (List.range n).map Nat.cast) (hkey : keys[i]? = some key) :
    key.toInt = i := by
  have hhere : ((List.range n)[i]?).map Nat.cast = some key.toInt := by
    rw [← List.getElem?_map, ← hrange, List.getElem?_map, hkey]
    rfl
  obtain ⟨rank, hrank, hcast⟩ := Option.map_eq_some_iff.1 hhere
  obtain ⟨_, hplace⟩ := List.getElem?_eq_some_iff.1 hrank
  rw [List.getElem_range] at hplace
  rw [← hcast, hplace]

theorem Ledger.removed_subset_after (ledger : Ledger V) (requests : List (Request V))
    (answers : List (Answer V)) :
    ledger.removed ⊆ (ledger.after requests answers).removed := by
  have hnoted : ∀ (ledger : Ledger V) (request : Request V) (answer : Answer V),
      ledger.removed ⊆ (ledger.note request answer).removed := by
    intro ledger request answer
    unfold Ledger.note
    split
    · exact List.Subset.refl _
    · split <;> exact List.Subset.refl _
    · exact List.subset_cons_self _ _
    · exact List.Subset.refl _
  induction requests generalizing ledger answers with
  | nil => exact List.Subset.refl _
  | cons request rest ih =>
      cases answers with
      | nil => exact List.Subset.refl _
      | cons answer answers => exact List.Subset.trans (hnoted ledger request answer) (ih _ answers)

theorem Ledger.after_run_append (ledger : Ledger V) (session : Session V)
    (before later : List (Request V)) :
    ledger.after (before ++ later) (session.run (before ++ later)).2 =
      (ledger.after before (session.run before).2).after later
        ((session.run before).1.run later).2 := by
  induction before generalizing ledger session with
  | nil => rfl
  | cons request rest ih =>
      rw [List.cons_append, Session.run_cons, Session.run_cons]
      exact ih _ _

end KeyedArena
