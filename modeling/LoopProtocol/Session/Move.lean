import LoopProtocol.Session.Action

/-!
# Moves of a session

A driver acts, starts a callback loop, or returns from the body of the innermost callback loop that
it runs. Between the start of a loop and the return of its body the driver is free: whatever a body
function may do is some list of moves.
-/

namespace LoopProtocol

/-- One move of a driver. -/
inductive Move where
  | act (action : Action)
  /-- Starts a callback loop. -/
  | foreach (source : Source) (dest : String)
  /-- Returns the state in a variable from the innermost body. -/
  | returnState (name : String)
  /-- Returns a fault from the innermost body. -/
  | returnFault (fault : Fault)

namespace SessionM

/-- The variable in which a body finds the state that it was called with. -/
def bodyVariable : String := "it"

/-- The fault of a body that does not return a state that ends an iteration. -/
def noTail : Fault := .engineFault (.reported "no tail")

/-- Does what a loop head does next: calls the body, or answers the state after the loop. -/
def takeTurn (loop : RunningLoop) : Except Fault Callback.Turn → SessionM Reply
  | .ok (.body entry) => do
    modify fun s => { s with running := loop :: s.running }
    store bodyVariable (.state ⟨loop.owner, entry⟩)
    pure (.called entry.site)
  | .ok (.finished after) => give loop.dest loop.owner after
  | .error fault => pure (.fault fault)

/-- Starts a callback loop. -/
def foreach (source : Source) (dest : String) : SessionM Reply :=
  withSource source (·.loop? .callback) fun h shape => do
    takeTurn ⟨h.owner, shape, dest⟩ (← on h.owner (Callback.begin shape h.token))

/-- The innermost body returns, and its loop leaves the running ones. -/
def returning (f : RunningLoop → SessionM Reply) : SessionM Reply := do
  match (← get).running with
  | loop :: outer =>
    modify fun s => { s with running := outer }
    f loop
  | [] => pure .unsupported

/-- The body of a loop failed. -/
def bodyFailed (loop : RunningLoop) (fault : Fault) : SessionM Reply := do
  answer .done (← on loop.owner (Act.abort fault : Act Unit))

/-- The body of a loop returned what was in a variable. The state's own instance takes it back,
whatever instance that is, and the loop goes on. -/
def bodyReturned (loop : RunningLoop) : Option Holding → SessionM Reply
  | some (.state tail) =>
    if tail.token.site = loop.shape.tail then do
      match ← on tail.owner tail.token.consume with
      | .ok () => takeTurn loop (← on loop.owner (Callback.advance loop.shape))
      | .error fault => pure (.fault fault)
    else bodyFailed loop noTail
  | held => do
    release held
    bodyFailed loop noTail

/-- Makes a move. -/
def move : Move → SessionM Reply
  | .act action => perform action
  | .foreach source dest => foreach source dest
  | .returnState name => returning fun loop => do bodyReturned loop (← remove name)
  | .returnFault fault => returning (bodyFailed · fault)

end SessionM

end LoopProtocol
