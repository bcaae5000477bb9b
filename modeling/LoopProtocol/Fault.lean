import LoopProtocol.FrameStack.Basic
import LoopProtocol.Text.Quoted

/-!
# Faults

Every way in which driving a protocol can go wrong, and the text of each. A fault is either a
misuse of the protocol by its driver or a sign that the engine's own state was already broken.
-/

namespace LoopProtocol

/-- The position of a protocol instance among the instances of a world. -/
structure InstanceId where
  index : Nat
deriving DecidableEq

/-- The short name of an instance. -/
def InstanceId.text (i : InstanceId) : String := "#" ++ toString i.index

/-- Why the engine refuses to go on. -/
inductive EngineFault where
  /-- The instance had a fault before. -/
  | abortedEarlier (instanceId : InstanceId)
  /-- A loop was entered anew while it runs further out. -/
  | buried (id : LoopId) (stack : FrameStack)
  /-- A fault raised by the driver of the protocol, in its own words. -/
  | reported (text : String)
deriving DecidableEq

/-- What is wrong, without the words that all engine faults share. -/
def EngineFault.text : EngineFault → String
  | abortedEarlier i => "instance " ++ i.text ++ " was aborted by an earlier fault"
  | buried id stack =>
    "loop " ++ id.text ++ " activated while its frame is buried in " ++ stack.text
  | reported text => text

/-- A fault in driving a protocol. -/
inductive Fault where
  /-- A protocol state was used a second time. -/
  | linearityViolation (point : String)
  /-- A frame was popped from the empty stack. -/
  | stackUnderflow
  /-- A loop was entered after its last iteration. -/
  | boundsExceeded (frame : Frame)
  /-- A loop was left, or its end relied on, before its last iteration. -/
  | prematureExit (frame : Frame)
  /-- An iteration or a loop was ended that is not innermost. -/
  | missingFrame (id : LoopId)
  | engineFault (cause : EngineFault)
  /-- A parameter does not hold a positive bound. -/
  | invalidBound (param : String) (bound : UInt64)
  /-- A parameter holds nothing. -/
  | unknownParameter (param : String)
  /-- A body state had nowhere to go: its sequence is closed or its consumer is gone. -/
  | handOffClosed (id : LoopId)
deriving DecidableEq

namespace Fault

/-- The text of a fault. -/
def message : Fault → String
  | linearityViolation point => "State " ++ point ++ " already used"
  | stackUnderflow => "Cannot pop: loop stack empty"
  | boundsExceeded f =>
    "Cannot enter body of loop " ++ f.id.text ++ " (index: " ++ f.progressText ++ ")"
  | prematureExit f =>
    "Premature exit of loop " ++ f.id.text ++ " (index: " ++ f.progressText ++ ")"
  | missingFrame id => "No loop " ++ id.text ++ " to end here"
  | engineFault cause => "Protocol engine fault: " ++ cause.text
  | invalidBound param bound =>
    "Invalid bound " ++ toString bound.toNat ++ " for parameter " ++ Text.quoted param
      ++ ": bounds must be positive"
  | unknownParameter param => "No bound configured for parameter " ++ Text.quoted param
  | handOffClosed id =>
    "Body sequence of loop " ++ id.text ++ " was dropped before it was drained"

/-- Whether the driver of the protocol is to blame, and not an engine that was already broken. -/
def isUsage : Fault → Bool
  | stackUnderflow | engineFault _ => false
  | _ => true

end Fault

end LoopProtocol
