import LoopProtocol.Transition.Point

/-!
# Loops by polling

The driver stands at the loop head, asks whether there is more, and either enters the body or
leaves the loop. Every iteration ends at a new state of the head.
-/

namespace LoopProtocol.Polling

/-- Enters the body of the next iteration. -/
def enter (shape : LoopShape) (head : Token) : Act Token := do
  head.consume
  let frame ← Act.activate shape.head.id shape.head.param
  if frame.canEnter then
    Act.iteration frame
    Act.issue shape.body none
  else Act.abort (.boundsExceeded frame)

/-- Leaves the loop after its last iteration. -/
def exit (shape : LoopShape) (head : Token) : Act Token := do
  head.consume
  Act.exit shape.head.id
  Act.issue shape.after none

end LoopProtocol.Polling
