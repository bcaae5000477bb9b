import LoopProtocol.Frame

/-!
# The stack of active loops

The frames of the loops that are running, each inside the one below it. A loop that is on the
stack but not innermost is buried.
-/

namespace LoopProtocol

/-- The frames of the active loops, the innermost loop first. -/
structure FrameStack where
  frames : List Frame
deriving DecidableEq

namespace FrameStack

/-- No loop is active. -/
def empty : FrameStack := ⟨[]⟩

/-- Whether no loop is active. -/
def isEmpty (s : FrameStack) : Bool := s.frames.isEmpty

/-- How many loops are active. -/
def depth (s : FrameStack) : Nat := s.frames.length

/-- The frame of the innermost loop. -/
def top? (s : FrameStack) : Option Frame := s.frames.head?

/-- The frames as nesting reads, the outermost loop first. -/
def outermostFirst (s : FrameStack) : List Frame := s.frames.reverse

/-- The innermost frame of a loop. -/
def find? (s : FrameStack) (id : LoopId) : Option Frame := s.frames.find? (·.id = id)

/-- Whether a frame of the loop is anywhere on the stack. -/
def contains (s : FrameStack) (id : LoopId) : Bool := (s.find? id).isSome

/-- Puts a loop that starts with the given bound inside all others. -/
def push (s : FrameStack) (id : LoopId) (bound : Bound) : FrameStack :=
  ⟨Frame.start id bound :: s.frames⟩

/-- The innermost frame and the frames below it, when it belongs to the loop. -/
def onTop? (s : FrameStack) (id : LoopId) : Option (Frame × List Frame) :=
  match s.frames with
  | top :: below => if top.id = id then some (top, below) else none
  | [] => none

/-- Whether the loop's head may enter its body. A loop that is not innermost has not been entered
yet, and no bound is zero. -/
def hasMore (s : FrameStack) (id : LoopId) : Bool :=
  match s.onTop? id with
  | some (top, _) => top.hasNext
  | none => true

/-- The text of a stack, the outermost frame first. -/
def text (s : FrameStack) : String :=
  "stack [" ++ ", ".intercalate (s.outermostFirst.map Frame.text) ++ "]"

theorem onTop?_eq_some_iff {s : FrameStack} {id : LoopId} {top : Frame} {below : List Frame} :
    s.onTop? id = some (top, below) ↔ s.frames = top :: below ∧ top.id = id := by
  unfold onTop?
  split <;> simp_all [and_comm]

end FrameStack

end LoopProtocol
