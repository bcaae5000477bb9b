import LoopProtocol.Fault
import LoopProtocol.Site

/-!
# Log lines

The second account of a run, for people: one line for each thing that an engine does, with a level,
a message and the values it is about.
-/

namespace LoopProtocol

/-- How much a line matters. -/
inductive LogLevel where
  | warn
  | debug
  | trace
deriving DecidableEq

/-- The name of a level. -/
def LogLevel.text : LogLevel → String
  | warn => "WARN"
  | debug => "DEBUG"
  | trace => "TRACE"

/-- One line of the log. -/
inductive LogLine where
  | created
  | consumed (point : String) (role : Role)
  | activated (id : LoopId) (bound : UInt64)
  | reentered (frame : Frame)
  | entered (frame : Frame)
  | completed (frame : Frame)
  | exited (frame : Frame)
  | handedOver (id : LoopId)
  | waiting (id : LoopId)
  | sequenceClosed (id : LoopId)
  | accepted (label : String)
  | terminated
  | aborted (fault : Fault)
deriving DecidableEq

namespace LogLine

/-- Faults are warnings; what starts or ends is for debugging, and the rest traces each move. -/
def level : LogLine → LogLevel
  | aborted _ => .warn
  | created | activated _ _ | exited _ | terminated => .debug
  | _ => .trace

/-- What happened. -/
def message : LogLine → String
  | created => "protocol instance created"
  | consumed _ _ => "state consumed"
  | activated _ _ => "loop activated"
  | reentered _ => "loop re-entered"
  | entered _ => "body entered"
  | completed _ => "body completed"
  | exited _ => "loop exited"
  | handedOver _ => "body state handed over"
  | waiting _ => "hand-off full, waiting for consumer"
  | sequenceClosed _ => "sequence closed"
  | accepted _ => "payload accepted"
  | terminated => "protocol terminated"
  | aborted _ => "protocol instance aborted"

/-- The values of a line by name. -/
def fields : LogLine → List (String × String)
  | created | terminated => []
  | consumed point role => [("point", point), ("role", role.text)]
  | activated id bound => [("loop_id", id.text), ("bound", toString bound.toNat)]
  | reentered f | entered f | completed f | exited f => [("frame", f.text)]
  | handedOver id | waiting id | sequenceClosed id => [("loop_id", id.text)]
  | accepted label => [("label", label)]
  | aborted fault => [("error", fault.message)]

/-- The values of a line as text, each as a name, an equals sign and the value. -/
def fieldTexts (line : LogLine) : List String :=
  line.fields.map fun (name, value) => name ++ "=" ++ value

end LogLine

end LoopProtocol
