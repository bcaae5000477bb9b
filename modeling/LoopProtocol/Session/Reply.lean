import LoopProtocol.Instance

/-!
# Replies

What a step of a session answers.
-/

namespace LoopProtocol

/-- What a take from a sequence finds. -/
inductive Taken where
  /-- A body. -/
  | body (site : Site)
  /-- No body yet. -/
  | pending
  /-- No body any more. -/
  | ended
deriving DecidableEq

/-- The producers' side of a sequence, as a state that ends iterations shows it. -/
structure ProducerInfo where
  loop : LoopId
  isClosed : Bool
  text : String
deriving DecidableEq

/-- What can be seen of a state. -/
structure StateInfo where
  site : Site
  isConsumed : Bool
  owner : InstanceId
  producer : Option ProducerInfo
deriving DecidableEq

/-- What a step answers. -/
inductive Reply where
  /-- It succeeded and has nothing to tell. -/
  | done
  /-- The variable that the step works on is empty. -/
  | noState
  /-- The step makes no sense where it was made. -/
  | unsupported
  | fault (fault : Fault)
  /-- A new state at the site. -/
  | state (site : Site)
  /-- A new sequence of the loop, and a new state at the site after it. -/
  | entered (loop : LoopId) (after : Site)
  /-- The body of a callback loop was called with a state at the site. -/
  | called (site : Site)
  /-- The state's own instance was handed back. -/
  | sameInstance
  /-- The number that a parameter had. -/
  | previous (bound : Option UInt64)
  | table (bounds : BoundTable)
  | frame (frame : Option Frame)
  | frames (stack : FrameStack)
  | events (events : Array Event)
  | info (info : StateInfo)
  | loop (id : LoopId)
  | more (b : Bool)
  | taken (t : Taken)
  /-- The end of an iteration, with its fault if it failed, and a take that let it go on. -/
  | endTaking (failure : Option Fault) (t : Taken)
  /-- The step does not return by itself. -/
  | waiting

/-- The fault that a reply raises, be it that of an iteration's end beside which a take went on. -/
def Reply.fault? : Reply → Option Fault
  | fault f => some f
  | endTaking failure _ => failure
  | _ => none

end LoopProtocol
