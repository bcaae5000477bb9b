import LoopProtocol.Bound

/-!
# Loop frames

A frame records how far one active loop has come: the index of the iteration in progress and the
index of the last one. Both are 64-bit words, and a loop with bound `b` runs the iterations
`0, …, b - 1`.
-/

namespace LoopProtocol

/-- The number that a protocol gives to each of its loops. -/
structure LoopId where
  number : UInt32
deriving DecidableEq

/-- The decimal text of the loop's number. -/
def LoopId.text (id : LoopId) : String := toString id.number.toNat

/-- Progress of one active loop: iteration `current` of `0, …, last`. -/
structure Frame where
  id : LoopId
  current : UInt64
  last : UInt64
deriving DecidableEq

namespace Frame

/-- The frame of a loop that is about to run its first iteration. -/
def start (id : LoopId) (bound : Bound) : Frame :=
  ⟨id, 0, bound.count - 1⟩

/-- How many iterations the loop runs in all. -/
def bound (f : Frame) : UInt64 := f.last + 1

/-- Whether the current index is one of the loop's iterations. -/
def canEnter (f : Frame) : Bool := f.current ≤ f.last

/-- Whether an iteration follows the current one. -/
def hasNext (f : Frame) : Bool := f.current < f.last

/-- The number of iterations not yet completed, the current one included. -/
def remaining (f : Frame) : UInt64 :=
  if f.current ≤ f.bound then f.bound - f.current else 0

/-- Moves on to the next index. -/
def advance (f : Frame) : Frame := { f with current := f.current + 1 }

/-- The text of an index and the last index, as in `1/2`. -/
def progressText (f : Frame) : String :=
  toString f.current.toNat ++ "/" ++ toString f.last.toNat

/-- The text of a frame: number, index and last index in braces. -/
def text (f : Frame) : String :=
  "\x7b" ++ f.id.text ++ ": " ++ f.progressText ++ "\x7d"

@[simp] theorem bound_start (id : LoopId) (b : Bound) : (start id b).bound = b.count := by
  simp [start, bound]

@[simp] theorem canEnter_start (id : LoopId) (b : Bound) : (start id b).canEnter = true := by
  simp [start, canEnter]

@[simp] theorem id_advance (f : Frame) : f.advance.id = f.id := rfl

@[simp] theorem last_advance (f : Frame) : f.advance.last = f.last := rfl

end Frame

end LoopProtocol
