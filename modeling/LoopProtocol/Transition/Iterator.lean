import LoopProtocol.Transition.Point

/-!
# Loops by iteration

Entering a loop answers a sequence of bodies and the state after the loop. The sequence delivers
one body at a time: the end of a body completes the iteration and hands the next body over, and the
end of the last body leaves the loop and closes the sequence.
-/

namespace LoopProtocol.Iterator

/-- What an iteration's end led to. -/
inductive Progress where
  /-- The next body is in the slot. -/
  | delivered
  /-- The next body waits for the slot, and the end of the iteration with it. -/
  | waiting
  /-- The loop is over. -/
  | closed
deriving DecidableEq

/-- Opens a sequence for the bodies of a loop. -/
def openSequence (id : LoopId) : Act SequenceId := do
  let index ← Act.look (·.sequences.size)
  modify fun x => { x with sequences := x.sequences.push .fresh }
  pure ⟨index, id⟩

/-- Hands a body over to the consumer of its sequence; aborts if the sequence does not accept it. -/
def handOver (s : SequenceId) (body : Token) : Act Progress := do
  let (offer, h) ← Act.look fun x => (x.handOff s).offer body
  match offer with
  | .delivered =>
    modify (·.setHandOff s h)
    Act.note (.handedOver s.loop)
    pure .delivered
  | .waiting =>
    modify (·.setHandOff s h)
    Act.note (.waiting s.loop)
    pure .waiting
  | .refused => Act.abort (.handOffClosed s.loop)

/-- Closes a sequence. -/
def closeSequence (s : SequenceId) : Act Unit := do
  modify fun x => x.setHandOff s (x.handOff s).close
  Act.note (.sequenceClosed s.loop)

/-- Goes on with a loop whose frame was just advanced or started: hands the next body over, or
leaves the loop and closes its sequence. -/
def turn (s : SequenceId) (frame : Frame) (body : Site) : Act Progress := do
  if frame.canEnter then
    Act.iteration frame
    let token ← Act.issue body (some s)
    handOver s token
  else
    Act.exit s.loop
    closeSequence s
    pure .closed

/-- Enters a loop: answers the sequence of its bodies and the state after it, which feeds the
sequence that the head belongs to. -/
def enter (shape : LoopShape) (head : Token) : Act (SequenceId × Token) := do
  head.consume
  let frame ← Act.activate shape.head.id shape.head.param
  let s ← openSequence shape.head.id
  let _ ← turn s frame shape.body
  let after ← Act.issue shape.after head.feed
  pure (s, after)

/-- Ends an iteration of the loop that the sequence belongs to. -/
def endIteration (tail : Token) (s : SequenceId) (nextBody : Site) : Act Progress := do
  tail.consume
  let frame ← Act.complete s.loop
  turn s frame nextBody

/-- Takes the body in the slot; the first body that waited, if any, is handed over in turn. -/
def take? (s : SequenceId) : Act (Option Token) := do
  match ← Act.look fun x => (x.handOff s).take? with
  | none => pure none
  | some (token, h) =>
    modify (·.setHandOff s h)
    unless h.queue.isEmpty do Act.note (.handedOver s.loop)
    pure (some token)

/-- The consumer gives the sequence up: the bodies in it are lost, and the iterations whose ends
wait for the slot fail. -/
def abandon (s : SequenceId) : Act Unit := do
  let h ← Act.look (·.handOff s)
  modify (·.setHandOff s h.abandon)
  unless h.waiting.isEmpty do Act.markAborted (.handOffClosed s.loop)

/-- The text of the producers' side of a sequence. -/
def producerText (s : SequenceId) (x : Instance) : String :=
  "Sequencer \x7b id: LoopId(" ++ s.loop.text ++ "), closed: "
    ++ toString (x.handOff s).isClosed ++ " \x7d"

end LoopProtocol.Iterator
