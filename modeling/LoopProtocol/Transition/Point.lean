import LoopProtocol.Act.Loop

/-!
# Using a state

What every state allows, whatever its site: it can be consumed, on its own, with a message, or with
the end of the protocol. Every other transition consumes its state first.
-/

namespace LoopProtocol

namespace Token

/-- Whether the state was used, through this token or an alias. -/
def isConsumed (t : Token) (x : Instance) : Bool := x.guards.isConsumed t.guard

/-- Uses the state. A second use aborts the instance. -/
def consume (t : Token) : Act Unit := do
  if ← Act.look t.isConsumed then Act.abort (.linearityViolation t.site.name)
  else
    modify fun x => { x with guards := x.guards.spend t.guard }
    Act.note (.consumed t.site.name t.site.role)

/-- Uses the state for sending a message. -/
def send (t : Token) (label : String) : Act Unit := do
  t.consume
  Act.accept label

/-- Uses the state for sending a message that may only follow the end of a loop. -/
def sendAfter (t : Token) (id : LoopId) (label : String) : Act Unit := do
  t.consume
  Act.ensureClosed id
  Act.accept label

/-- Uses the state for ending the protocol. -/
def terminate (t : Token) : Act Unit := do
  t.consume
  Act.terminate

/-- Uses the state for ending the protocol, which may only follow the end of a loop. -/
def terminateAfter (t : Token) (id : LoopId) : Act Unit := do
  t.consume
  Act.ensureClosed id
  Act.terminate

/-- Sends the message of a send point and answers the state after it, which feeds the same
sequence. -/
def sendAt (t : Token) (point : SendPoint) : Act Token := do
  match point.closes with
  | some id => t.sendAfter id point.label
  | none => t.send point.label
  Act.issue point.next t.feed

/-- Ends the protocol at a site that may rely on the end of a loop. -/
def finish (t : Token) (closes : Option LoopId) : Act Unit :=
  match closes with
  | some id => t.terminateAfter id
  | none => t.terminate

end Token

end LoopProtocol
