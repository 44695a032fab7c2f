import KeyedArena.Arena.Change
/-!
Sessions: an arena, the memory there is for it, and requests answered one after another.
-/

namespace KeyedArena

universe u v

variable {V : Type u}

/-- What can be asked of an arena, and what can happen to it from outside. -/
inductive Request (V : Type u) where
  | add (value : V)
  | get (key : Key)
  | remove (key : Key)
  | duplicate (key : Key)
  | contains (key : Key)
  | size
  | isEmpty
  /-- Keys below the given one are passed over. -/
  | advance (key : Nat)
  /-- Growth gets another ceiling. -/
  | setCeiling (ceiling : Nat)
  /-- There is more or less memory from now on. -/
  | setMemory (memory : Memory)
deriving Repr

inductive Answer (V : Type u) where
  | key (key : Key)
  | value (value : V)
  | truth (holds : Bool)
  | count (n : Nat)
  | done
  | refused (failure : Failure)
deriving Repr

/-- An arena and the memory there is for it. -/
structure Session (V : Type u) where
  arena : Arena V
  memory : Memory := {}

/-- A session after a request, with the answer and what was reported on the way. -/
structure Reply (V : Type u) where
  session : Session V
  answer : Answer V
  log : List Event

/-- The reply to a request that changes nothing. -/
def Session.tell (session : Session V) (answer : Answer V) : Reply V := ⟨session, answer, []⟩

/-- The reply that an outcome makes under a reading of its successes. -/
def Outcome.reply {α : Type v} (outcome : Outcome V α) (memory : Memory) (read : α → Answer V) :
    Reply V :=
  match outcome with
  | ⟨.ok result, arena, log⟩ => ⟨⟨arena, memory⟩, read result, log⟩
  | ⟨.error failure, arena, log⟩ => ⟨⟨arena, memory⟩, .refused failure, log⟩

def Session.handle (session : Session V) (request : Request V) : Reply V :=
  match session, request with
  | ⟨arena, memory⟩, .add value => (arena.add memory value).reply memory .key
  | ⟨arena, memory⟩, .remove key => (arena.remove key).reply memory .value
  | ⟨arena, memory⟩, .duplicate key => (arena.duplicate memory key).reply memory .key
  | session, .get key =>
      session.tell (match session.arena.get key with
        | .ok value => .value value
        | .error failure => .refused failure)
  | session, .contains key => session.tell (.truth (session.arena.contains key))
  | session, .size => session.tell (.count session.arena.size)
  | session, .isEmpty => session.tell (.truth session.arena.isEmpty)
  | ⟨arena, memory⟩, .advance key => ⟨⟨arena.advance key, memory⟩, .done, []⟩
  | ⟨arena, memory⟩, .setCeiling ceiling => ⟨⟨arena.withCeiling ceiling, memory⟩, .done, []⟩
  | ⟨arena, _⟩, .setMemory memory => ⟨⟨arena, memory⟩, .done, []⟩

def Session.run (session : Session V) : List (Request V) → Session V × List (Answer V)
  | [] => (session, [])
  | request :: rest =>
      let reply := session.handle request
      let (final, answers) := reply.session.run rest
      (final, reply.answer :: answers)

end KeyedArena
