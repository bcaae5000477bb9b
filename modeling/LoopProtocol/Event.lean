import LoopProtocol.Frame

/-!
# Events

What an engine reports about the loops and messages of a run, and the recorders that collect the
reports. Several instances may report to one recorder.
-/

namespace LoopProtocol

/-- One step of a run as an observer sees it. -/
inductive Event where
  /-- A loop started, with its number of iterations. -/
  | activated (id : LoopId) (bound : UInt64)
  /-- A body of the loop was entered, with the index of its iteration. -/
  | iteration (id : LoopId) (index : UInt64)
  /-- A message was sent. -/
  | sent (label : String)
  /-- A loop ended. -/
  | exited (id : LoopId)
  /-- The protocol ended. -/
  | terminated
deriving DecidableEq

/-- The position of a recorder among the recorders of a world. -/
structure RecorderId where
  index : Nat
deriving DecidableEq

/-- The events that each recorder has heard, the earliest first. -/
structure Recorders where
  logs : Array (Array Event)

namespace Recorders

/-- No recorder. -/
def empty : Recorders := ⟨#[]⟩

/-- Adds a recorder that has heard nothing. -/
def create (r : Recorders) : RecorderId × Recorders := (⟨r.logs.size⟩, ⟨r.logs.push #[]⟩)

/-- What a recorder has heard; one that does not exist has heard nothing. -/
def events (r : Recorders) (id : RecorderId) : Array Event := r.logs.getD id.index #[]

/-- A recorder hears some events. -/
def hear (r : Recorders) (id : RecorderId) (heard : Array Event) : Recorders :=
  ⟨r.logs.modify id.index (· ++ heard)⟩

/-- A recorder forgets all that it heard. -/
def clear (r : Recorders) (id : RecorderId) : Recorders := ⟨r.logs.setIfInBounds id.index #[]⟩

end Recorders

end LoopProtocol
