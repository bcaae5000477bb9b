import LoopProtocol.Fault

/-!
# Transitions of the stack

Entering a loop head, completing an iteration, taking the innermost frame off, and leaving a loop.
Each either fails and leaves the stack as it was, or changes the innermost frame only.
-/

namespace LoopProtocol

/-- How a loop head was entered: with a frame of its own just pushed, or with the frame of the
running loop advanced. -/
inductive Activation where
  | fresh
  | reentered
deriving DecidableEq

namespace FrameStack

section Activate

variable {m : Type → Type} [Monad m] [MonadExceptOf Fault m]

/-- Enters the head of a loop. The innermost loop is advanced; a loop that is not on the stack is
pushed with the bound that `bound` finds, which is run in this case only; a buried loop is
refused. -/
def activate (s : FrameStack) (id : LoopId) (bound : m Bound) :
    m ((Activation × Frame) × FrameStack) :=
  match s.onTop? id with
  | some (top, below) => pure ((.reentered, top.advance), ⟨top.advance :: below⟩)
  | none =>
    if s.contains id then throw (.engineFault (.buried id s))
    else do
      let b ← bound
      pure ((.fresh, Frame.start id b), s.push id b)

end Activate

/-- Completes an iteration of the innermost loop, which must be the given one, and answers its
advanced frame. -/
def complete (s : FrameStack) (id : LoopId) : Except Fault (Frame × FrameStack) :=
  match s.onTop? id with
  | some (top, below) => .ok (top.advance, ⟨top.advance :: below⟩)
  | none => .error (.missingFrame id)

/-- Takes the innermost frame off, however far its loop has come. -/
def pop (s : FrameStack) : Except Fault (Frame × FrameStack) :=
  match s.frames with
  | top :: below => .ok (top, ⟨below⟩)
  | [] => .error .stackUnderflow

/-- Leaves the innermost loop, which must be the given one and in its last iteration or past it,
and answers its frame. -/
def exit (s : FrameStack) (id : LoopId) : Except Fault (Frame × FrameStack) :=
  match s.onTop? id with
  | some (top, _) => if top.hasNext then .error (.prematureExit top) else s.pop
  | none => .error (.missingFrame id)

end FrameStack

end LoopProtocol
