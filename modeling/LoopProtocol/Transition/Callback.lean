import LoopProtocol.Transition.Point

/-!
# Loops by callback

The driver hands the body to the loop head as a function from the first state of an iteration to
its last. Between two calls of the body the head completes the iteration and decides whether there
is another; `begin` and `advance` are what it does up to the first call and between two calls.
-/

namespace LoopProtocol.Callback

/-- What the loop head does next. -/
inductive Turn where
  /-- It calls the body with this state. -/
  | body (entry : Token)
  /-- It answers the state after the loop. -/
  | finished (after : Token)
deriving DecidableEq

/-- Goes on with a loop whose frame was just advanced or started. -/
def turn (shape : LoopShape) (frame : Frame) : Act Turn := do
  if frame.canEnter then
    Act.iteration frame
    pure (.body (← Act.issue shape.body none))
  else
    Act.exit shape.head.id
    pure (.finished (← Act.issue shape.after none))

/-- Starts the loop. -/
def begin (shape : LoopShape) (head : Token) : Act Turn := do
  head.consume
  let frame ← Act.activate shape.head.id shape.head.param
  turn shape frame

/-- Goes on after a body whose last state is consumed. -/
def advance (shape : LoopShape) : Act Turn := do
  let frame ← Act.complete shape.head.id
  turn shape frame

end LoopProtocol.Callback
