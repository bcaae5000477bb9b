import LoopProtocol.BoundTable.Basic
import LoopProtocol.Event
import LoopProtocol.FrameStack.Transition
import LoopProtocol.Guards
import LoopProtocol.HandOff
import LoopProtocol.LogLine

/-!
# Protocol instances

An instance is one run of a protocol: its parameters, its stack of active loops, the states that
it gave to its driver and the sequences through which it delivers loop bodies. All that it does is
written down twice, as events and as log lines.
-/

namespace LoopProtocol

/-- A sequence of loop bodies: its position among the sequences of its instance, and its loop. -/
structure SequenceId where
  index : Nat
  loop : LoopId
deriving DecidableEq

/-- A state of a protocol: where its holder stands, the guard that lets it be used once, and the
sequence whose bodies depend on it, if any. Copies of a token are aliases of one state. -/
structure Token where
  guard : GuardId
  site : Site
  feed : Option SequenceId
deriving DecidableEq

/-- One run of a protocol. -/
structure Instance where
  id : InstanceId
  bounds : BoundTable
  recorder : Option RecorderId
  stack : FrameStack
  aborted : Bool
  guards : Guards
  sequences : Array (HandOff Token)
  events : Array Event
  lines : Array LogLine

namespace Instance

/-- An instance on which no loop has started. -/
def create (id : InstanceId) (bounds : BoundTable) (recorder : Option RecorderId) : Instance where
  id
  bounds
  recorder
  stack := .empty
  aborted := false
  guards := .empty
  sequences := #[]
  events := #[]
  lines := #[.created]

/-- Whether the head of a loop may enter its body; on an aborted instance no head may. -/
def hasMore (x : Instance) (id : LoopId) : Bool := !x.aborted && x.stack.hasMore id

/-- The passage of a sequence. Nothing goes through a sequence that was never opened. -/
def handOff (x : Instance) (s : SequenceId) : HandOff Token := x.sequences.getD s.index .gone

/-- Replaces the passage of a sequence. -/
def setHandOff (x : Instance) (s : SequenceId) (h : HandOff Token) : Instance :=
  { x with sequences := x.sequences.setIfInBounds s.index h }

/-- The sequences alone decide what waits in them. -/
theorem handOff_of_sequences {x y : Instance} (h : y.sequences = x.sequences) (s : SequenceId) :
    y.handOff s = x.handOff s := by
  rw [handOff, h, handOff]

end Instance

end LoopProtocol
