import KeyedArena.Proofs.Session.Capacity
/-!
When growth keeps up, and what happens when it does not.

An arena that expects nothing and fills at most one slot in eight has a threshold of one both at
four slots and at eight.  The doubling that its second nonzero key brings about does not raise the
threshold, so the count passes it; and since slots are doubled only when the count is exactly at
the threshold, they are never doubled again, and the eighth nonzero key takes the last of them.
-/

namespace KeyedArena

universe u

variable {V : Type u}

/-- Whether a request is made of the arena, and not a change of what surrounds it. -/
def Request.isCall : Request V → Bool
  | .advance _ => false
  | .setCeiling _ => false
  | .setMemory _ => false
  | _ => true

theorem Session.memory_handle (session : Session V) {request : Request V}
    (hcall : request.isCall = true) :
    (session.handle request).session.memory = session.memory := by
  obtain ⟨arena, memory⟩ := session
  cases request with
  | add value => rw [Session.handle, Outcome.session_reply]
  | remove key => rw [Session.handle, Outcome.session_reply]
  | duplicate key => rw [Session.handle, Outcome.session_reply]
  | get key => rfl
  | contains key => rfl
  | size => rfl
  | isEmpty => rfl
  | advance key => simp [Request.isCall] at hcall
  | setCeiling ceiling => simp [Request.isCall] at hcall
  | setMemory memory => simp [Request.isCall] at hcall

/-- The count is within the threshold, and the threshold leaves a slot free. -/
def Arena.WithinBounds (arena : Arena V) : Prop :=
  arena.filled ≤ arena.growAt ∧ arena.growAt ≤ arena.capacity - 1

instance (arena : Arena V) : Decidable arena.WithinBounds :=
  inferInstanceAs (Decidable (_ ∧ _))

/-- An arena within its bounds for which there is no memory to grow. -/
structure Arena.Capped (memory : Memory) (arena : Arena V) : Prop where
  sound : arena.Sound
  bounds : arena.WithinBounds
  capped : memory.permits (2 * arena.capacity) = false

theorem Arena.Capped.step {memory : Memory} {arena after : Arena V}
    (hcapped : arena.Capped memory) (hstep : arena.Step memory after) :
    after.Capped memory := by
  have hsound := hcapped.sound.step (hcapped.sound.hasRoom hcapped.bounds.1 hcapped.bounds.2) hstep
  rcases hstep.unresized_or_grown with hsame | ⟨key, value, _, hgrowth, _⟩
  · constructor
    case sound => exact hsound
    case bounds =>
      rw [Arena.WithinBounds, hsame.growAt, hsame.capacity]
      exact ⟨hsame.filled hcapped.bounds.1, hcapped.bounds.2⟩
    case capped =>
      rw [hsame.capacity]
      exact hcapped.capped
  · -- above the ceiling or not, growth is refused
    rw [Arena.growthRefusal?_eq_none_iff, hcapped.capped] at hgrowth
    exact absurd hgrowth.2 Bool.false_ne_true

theorem Arena.Capped.run (session : Session V)
    (hcapped : session.arena.Capped session.memory) {requests : List (Request V)}
    (hcalls : ∀ request ∈ requests, request.isCall = true) :
    (session.run requests).1.arena.Capped session.memory := by
  induction requests generalizing session with
  | nil => exact hcapped
  | cons request rest ih =>
      have hmemory := session.memory_handle (hcalls request List.mem_cons_self)
      have hstep := hcapped.step (session.step_handle request)
      rw [← hmemory] at hstep
      have hend := ih _ hstep fun later hlater => hcalls later (List.mem_cons_of_mem _ hlater)
      rw [hmemory] at hend
      exact hend

/-- Without keeping pace, an arena begins with four slots, and doubling them leaves the threshold
at one. -/
theorem Settings.stalls {settings : Settings} (hslow : ¬ settings.KeepsPace)
    (hcheck : settings.check = .ok ()) :
    settings.slots = .ok 4 ∧ threshold 4 settings.loadFactor = 1 ∧
      threshold 8 settings.loadFactor = 1 := by
  obtain ⟨r, hload, hleast, hgreatest⟩ := Settings.load_of_check hcheck
  have hpositive : 0 < r := by linarith
  have hnone : settings.expected = 0 := by
    by_contra hsome
    exact hslow (.inl (Nat.one_le_iff_ne_zero.2 hsome))
  have heighth : r ≤ 1 / 8 := by
    by_contra hmore
    exact hslow (.inr ⟨r, hload, not_le.1 hmore⟩)
  refine ⟨?_, ?_, ?_⟩
  · rw [Settings.slots, hnone]
    exact slotsFor_zero hload hpositive
  · apply threshold_eq_one hload hpositive (by linarith) ⟨2, rfl⟩ (by decide) (by decide)
    push_cast
    linarith
  · apply threshold_eq_one hload hpositive (by linarith) ⟨3, rfl⟩ (by decide) (by decide)
    push_cast
    linarith

/-- An arena that has filed one object under key zero and one under each of the next `count` keys,
and has removed none: its slots, its threshold and its counters. -/
structure Arena.Consecutive (loadFactor : Float) (slots limit count : Nat) (arena : Arena V) :
    Prop where
  sound : arena.Sound
  load : arena.loadFactor = loadFactor
  ceiling : arena.ceiling = mostSlots
  capacity : arena.capacity = slots
  growAt : arena.growAt = limit
  filled : arena.filled = count
  next : arena.nextKey = count + 1

theorem Arena.Consecutive.hasRoom {loadFactor : Float} {slots limit count : Nat}
    {arena : Arena V} (hconsecutive : arena.Consecutive loadFactor slots limit count)
    (hroom : count < slots) : arena.slots.HasRoom := by
  rw [hconsecutive.sound.hasRoom_iff, hconsecutive.filled, hconsecutive.capacity]
  exact hroom

theorem Arena.consecutive_vacant {slots : Nat} (hpower : slots.isPowerOfTwo)
    (hleast : leastSlots ≤ slots) (loadFactor : Float) (memory : Memory) (value : V) :
    ((Arena.vacant slots loadFactor).add memory value).arena.Consecutive loadFactor slots
      (threshold slots loadFactor) 0 := by
  have hsound : (Arena.vacant slots loadFactor : Arena V).Sound :=
    Arena.sound_vacant hpower hleast loadFactor
  have hkey : Key.ofInt? ((0 : Nat) : Int) = some .zero := by decide
  have hadded : ((Arena.vacant slots loadFactor).add memory value).arena =
      { (Arena.vacant slots loadFactor : Arena V) with zero := some value }.issue := by
    rw [Arena.add]
    simp only [Arena.vacant, hkey, if_true]
  rw [hadded]
  constructor
  case sound => exact hsound.of_slots_eq rfl rfl (Nat.le_succ _) fun _ => .inr (Nat.succ_pos _)
  case load => rfl
  case ceiling => rfl
  case capacity => exact Arena.capacity_vacant slots loadFactor
  case growAt => rfl
  case filled => rfl
  case next => rfl

theorem Arena.Consecutive.add {loadFactor : Float} {slots limit count : Nat} {arena : Arena V}
    (hconsecutive : arena.Consecutive loadFactor slots limit count) (hslack : count ≠ limit)
    (hroom : count < slots) (hleft : count < 2147483647) (memory : Memory) (value : V) :
    (arena.add memory value).arena.Consecutive loadFactor slots limit (count + 1) := by
  have hnext := hconsecutive.next
  obtain ⟨key, hkey, hvalue, hnonzero⟩ :=
    Key.exists_ofInt? (Nat.succ_pos count) (by unfold Key.greatest; omega)
  rw [Nat.succ_eq_add_one, ← hnext] at hkey hvalue
  have hoff : arena.filled ≠ arena.growAt := by
    rw [hconsecutive.filled, hconsecutive.growAt]
    exact hslack
  have hadded : (arena.add memory value).arena = (arena.file key value).issue := by
    rw [Arena.add, hkey]
    simp only [hnonzero, hoff, if_false]
  rw [hadded]
  constructor
  case sound => exact hconsecutive.sound.file (hconsecutive.hasRoom hroom) hvalue hnonzero value
  case load => exact hconsecutive.load
  case ceiling => exact hconsecutive.ceiling
  case capacity => exact (arena.capacity_file key value).trans hconsecutive.capacity
  case growAt => exact hconsecutive.growAt
  case filled => exact congrArg (· + 1) hconsecutive.filled
  case next => exact congrArg (· + 1) hnext

theorem Arena.Consecutive.add_grown {loadFactor : Float} {slots limit count : Nat}
    {arena : Arena V} (hconsecutive : arena.Consecutive loadFactor slots count count)
    (hlimit : threshold (2 * slots) loadFactor = limit)
    (hmost : 2 * slots ≤ mostSlots) {memory : Memory}
    (hmemory : memory.permits (2 * slots) = true) (hleft : count < 2147483647) (value : V) :
    (arena.add memory value).arena.Consecutive loadFactor (2 * slots) limit (count + 1) := by
  have hnext := hconsecutive.next
  have hcapacity := hconsecutive.capacity
  obtain ⟨key, hkey, hvalue, hnonzero⟩ :=
    Key.exists_ofInt? (Nat.succ_pos count) (by unfold Key.greatest; omega)
  rw [Nat.succ_eq_add_one, ← hnext] at hkey hvalue
  have hfull : arena.filled = arena.growAt := by
    rw [hconsecutive.filled, hconsecutive.growAt]
  have hgrowth : arena.growthRefusal? memory = none := by
    rw [Arena.growthRefusal?_eq_none_iff, hcapacity, hconsecutive.ceiling]
    exact ⟨hmost, hmemory⟩
  have hadded : (arena.add memory value).arena = (arena.grown.file key value).issue := by
    rw [Arena.add, hkey]
    simp only [hnonzero, hfull, hgrowth, if_true, if_false]
  rw [hadded]
  constructor
  case sound =>
    exact hconsecutive.sound.grown.file hconsecutive.sound.hasRoom_grown hvalue hnonzero value
  case load => exact hconsecutive.load
  case ceiling => exact hconsecutive.ceiling
  case capacity => rw [Arena.capacity_file, Arena.capacity_grown, hcapacity]
  case growAt =>
    rw [← hlimit, ← hcapacity, ← hconsecutive.load]
    rfl
  case filled => exact congrArg (· + 1) hconsecutive.filled
  case next => exact congrArg (· + 1) hnext

/-- Filing the same object again and again: the arena after `count` times. -/
theorem Session.run_adds (session : Session V) (value : V) (count : Nat) :
    (session.run (List.replicate (count + 1) (.add value))).1 =
      ⟨((session.run (List.replicate count (.add value))).1.arena.add session.memory value).arena,
        session.memory⟩ := by
  induction count with
  | zero =>
      rw [List.replicate_one, Session.run_cons]
      exact Outcome.session_reply _ _ _
  | succ count ih =>
      rw [List.replicate_succ', Session.run_append, Session.run_cons]
      rw [ih]
      exact Outcome.session_reply _ _ _

/-- A fresh arena that does not keep pace, and has the memory to grow once, goes on taking objects
in its eight slots. -/
theorem Session.stalled_run {loadFactor : Float} (hfour : threshold 4 loadFactor = 1)
    (height : threshold 8 loadFactor = 1) {memory : Memory} (hmemory : memory.permits 8 = true)
    (value : V) {count : Nat} (hpassed : 2 ≤ count) (hroom : count ≤ 8) :
    ((⟨.vacant 4 loadFactor, memory⟩ : Session V).run
      (List.replicate (count + 1) (.add value))).1.arena.Consecutive loadFactor 8 1 count := by
  induction count, hpassed using Nat.le_induction with
  | base =>
      have hpower : Nat.isPowerOfTwo 4 := ⟨2, rfl⟩
      have hfirst := Arena.consecutive_vacant hpower (Nat.le_refl _) loadFactor memory value
      rw [hfour] at hfirst
      have hsecond := hfirst.add (by decide) (by decide) (by decide) memory value
      have hthird := hsecond.add_grown height (by decide) hmemory (by decide) value
      rw [Session.run_adds, Session.run_adds, Session.run_adds]
      simpa only [List.replicate_zero, Session.run] using hthird
  | succ count hcount ih =>
      rw [Session.run_adds]
      exact (ih (by omega)).add (by omega) (by omega) (by omega) memory value

theorem Arena.withinBounds_run {settings : Settings} {memory : Memory} {arena : Arena V}
    {event : Event} (hmade : Arena.ofSettings settings memory = .ok (arena, event))
    (hpace : settings.KeepsPace ∨ memory.permits 8 = false) (requests : List (Request V))
    (hcalls : ∀ request ∈ requests, request.isCall = true) :
    ((⟨arena, memory⟩ : Session V).run requests).1.arena.WithinBounds ∧
      ((⟨arena, memory⟩ : Session V).run requests).1.arena.slots.HasRoom := by
  have hfresh : Session.Fresh settings ⟨arena, memory⟩ := .made hmade
  by_cases hkeeps : settings.KeepsPace
  · have hfitted := hfresh.fitted.run (hfresh.paced hkeeps) requests
    exact ⟨⟨Nat.le_trans hfitted.filled hfitted.peak_le_growAt, hfitted.growAt_le⟩,
      hfitted.hasRoom⟩
  · obtain ⟨hcheck, hslots, _⟩ := hfresh.vacant
    obtain ⟨hfour, _, _⟩ := Settings.stalls hkeeps hcheck
    have hcapacity : 4 = arena.capacity := by
      rw [hfour, Except.ok.injEq] at hslots
      exact hslots
    have hfitted := hfresh.fitted
    have hcapped : arena.Capped memory := by
      refine ⟨hfresh.sound, ⟨?_, hfitted.growAt_le⟩, ?_⟩
      · exact Nat.le_trans hfitted.filled (Nat.zero_le _)
      · rw [← hcapacity]
        exact hpace.resolve_left hkeeps
    have hend := Arena.Capped.run ⟨arena, memory⟩ hcapped hcalls
    exact ⟨hend.bounds, hend.sound.hasRoom hend.bounds.1 hend.bounds.2⟩

/-- An arena that does not keep pace, with the memory to grow once, leaves its bounds with the
third object that is filed and has no free slot after the ninth. -/
theorem Arena.exceeds_bounds {settings : Settings} {memory : Memory} {arena : Arena V}
    {event : Event} (hmade : Arena.ofSettings settings memory = .ok (arena, event))
    (hslow : ¬ settings.KeepsPace) (hmemory : memory.permits 8 = true) (value : V) :
    ¬ ((⟨arena, memory⟩ : Session V).run (List.replicate 3 (.add value))).1.arena.WithinBounds ∧
      ¬ ((⟨arena, memory⟩ : Session V).run
        (List.replicate 9 (.add value))).1.arena.slots.HasRoom := by
  obtain ⟨hcheck, hslots, harena⟩ := (Session.Fresh.made hmade).vacant
  obtain ⟨hleast, hfour, height⟩ := Settings.stalls hslow hcheck
  rw [hleast, Except.ok.injEq] at hslots
  rw [← hslots] at harena
  have hvacant : arena = .vacant 4 settings.loadFactor := harena
  rw [hvacant]
  constructor
  · have hstalled := Session.stalled_run hfour height hmemory value (Nat.le_refl 2) (by decide)
    simp only [Nat.reduceAdd] at hstalled
    rintro ⟨hpassed, _⟩
    rw [hstalled.filled, hstalled.growAt] at hpassed
    contradiction
  · have hstalled := Session.stalled_run hfour height hmemory value (by decide) (Nat.le_refl 8)
    simp only [Nat.reduceAdd] at hstalled
    rw [hstalled.sound.hasRoom_iff, hstalled.filled, hstalled.capacity]
    exact Nat.lt_irrefl 8

/-- What holds after all runs of calls under a condition, and fails after some number of objects
without it, holds after all runs of calls exactly under that condition. -/
theorem Session.forall_calls_iff {session : Session V} {good : Prop} (holds : Arena V → Prop)
    (value : V) (count : Nat)
    (hgood : good → ∀ requests : List (Request V),
      (∀ request ∈ requests, request.isCall = true) → holds (session.run requests).1.arena)
    (hbad : ¬ good → ¬ holds (session.run (List.replicate count (.add value))).1.arena) :
    (∀ requests : List (Request V), (∀ request ∈ requests, request.isCall = true) →
      holds (session.run requests).1.arena) ↔ good := by
  constructor
  · intro hall
    by_contra hnone
    apply hbad hnone
    apply hall
    intro request hrequest
    rw [List.eq_of_mem_replicate hrequest]
    rfl
  · exact hgood

/-- Calls alone keep a fresh arena within its bounds exactly if its settings keep pace, or there is
no memory for eight slots; and exactly then they never lead to a state without a free slot. -/
theorem Arena.withinBounds_iff_keepsPace {settings : Settings} {memory : Memory}
    {arena : Arena V} {event : Event}
    (hmade : Arena.ofSettings settings memory = .ok (arena, event)) (value : V) :
    ((∀ requests : List (Request V), (∀ request ∈ requests, request.isCall = true) →
        ((⟨arena, memory⟩ : Session V).run requests).1.arena.WithinBounds) ↔
      settings.KeepsPace ∨ memory.permits 8 = false) ∧
    ((∀ requests : List (Request V), (∀ request ∈ requests, request.isCall = true) →
        ((⟨arena, memory⟩ : Session V).run requests).1.arena.slots.HasRoom) ↔
      settings.KeepsPace ∨ memory.permits 8 = false) := by
  have hgood := Arena.withinBounds_run hmade
  have hbad : ¬ (settings.KeepsPace ∨ memory.permits 8 = false) →
      ¬ ((⟨arena, memory⟩ : Session V).run
          (List.replicate 3 (.add value))).1.arena.WithinBounds ∧
        ¬ ((⟨arena, memory⟩ : Session V).run
          (List.replicate 9 (.add value))).1.arena.slots.HasRoom := by
    intro hnone
    rw [not_or, Bool.not_eq_false] at hnone
    exact Arena.exceeds_bounds hmade hnone.1 hnone.2 value
  constructor
  · exact Session.forall_calls_iff Arena.WithinBounds value 3
      (fun hpace requests hcalls => (hgood hpace requests hcalls).1) fun hnone => (hbad hnone).1
  · exact Session.forall_calls_iff (fun reached => reached.slots.HasRoom) value 9
      (fun hpace requests hcalls => (hgood hpace requests hcalls).2) fun hnone => (hbad hnone).2

theorem Arena.ofSettings_eighth :
    Arena.ofSettings { expected := 0, loadFactor := 0.125 } {} =
      .ok ((.vacant 4 0.125 : Arena V), .sized 0 4 0.125) := by
  have hcheck : Settings.check { expected := 0, loadFactor := 0.125 } = .ok () :=
    Settings.check_eq_ok_iff.2 (by decide +kernel)
  have hslots : Settings.slots { expected := 0, loadFactor := 0.125 } = .ok 4 :=
    slotsFor_eq_ok_iff.2 (by decide +kernel)
  unfold Arena.ofSettings
  rw [hcheck, hslots]
  rfl

theorem Arena.withinBounds_iff_keepsPace_eighth :
    ((∀ requests : List (Request Nat), (∀ request ∈ requests, request.isCall = true) →
        ((⟨.vacant 4 0.125, {}⟩ : Session Nat).run requests).1.arena.WithinBounds) ↔
      Settings.KeepsPace { expected := 0, loadFactor := 0.125 } ∨
        Memory.permits {} 8 = false) ∧
    ((∀ requests : List (Request Nat), (∀ request ∈ requests, request.isCall = true) →
        ((⟨.vacant 4 0.125, {}⟩ : Session Nat).run requests).1.arena.slots.HasRoom) ↔
      Settings.KeepsPace { expected := 0, loadFactor := 0.125 } ∨
        Memory.permits {} 8 = false) :=
  Arena.withinBounds_iff_keepsPace Arena.ofSettings_eighth 7

/-- Three objects take the count of this arena past its threshold, and nine take its last slot. -/
theorem Arena.withinBounds_fails_eighth :
    ∃ (arena : Arena Nat) (event : Event),
      Arena.ofSettings { expected := 0, loadFactor := 0.125 } {} = .ok (arena, event) ∧
      ¬ ((⟨arena, {}⟩ : Session Nat).run [.add 1, .add 2, .add 3]).1.arena.WithinBounds ∧
      ¬ ((⟨arena, {}⟩ : Session Nat).run
        [.add 1, .add 2, .add 3, .add 4, .add 5, .add 6, .add 7, .add 8,
          .add 9]).1.arena.slots.HasRoom :=
  ⟨_, _, Arena.ofSettings_eighth, by decide +kernel, by decide +kernel⟩

end KeyedArena
