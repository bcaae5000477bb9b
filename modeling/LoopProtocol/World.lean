import LoopProtocol.Act.Basic

/-!
# Worlds

Several instances side by side, with the recorders that they report to and one log of all their
lines. The instances share nothing else: an action works on one instance, and what it reported is
then published.
-/

namespace LoopProtocol

/-- Instances, recorders, and the log of all instances together. -/
structure World where
  instances : Array Instance
  recorders : Recorders
  log : Array (InstanceId × LogLine)

namespace World

/-- Nothing at all. -/
def empty : World := ⟨#[], .empty, #[]⟩

/-- The instance at a position. -/
def instance? (w : World) (i : InstanceId) : Option Instance := w.instances[i.index]?

/-- Adds a recorder. -/
def addRecorder (w : World) : RecorderId × World :=
  let (r, recorders) := w.recorders.create
  (r, { w with recorders })

/-- Puts an instance back into its place, and makes known what it reported after its first `events`
events and `lines` lines. -/
def publish (w : World) (i : InstanceId) (x : Instance) (events lines : Nat) : World where
  instances := w.instances.setIfInBounds i.index x
  recorders :=
    match x.recorder with
    | some r => w.recorders.hear r (x.events.extract events x.events.size)
    | none => w.recorders
  log := w.log ++ (x.lines.extract lines x.lines.size).map (i, ·)

/-- Adds an instance that reports to the recorder, if one is given. -/
def addInstance (w : World) (bounds : BoundTable) (recorder : Option RecorderId) :
    InstanceId × World :=
  let i : InstanceId := ⟨w.instances.size⟩
  let x := Instance.create i bounds recorder
  (i, { w with instances := w.instances.push x }.publish i x 0 0)

/-- Performs an action on an instance. One that does not exist answers as if it were aborted. -/
def on {α : Type} (w : World) (i : InstanceId) (a : Act α) : Except Fault α × World :=
  match w.instance? i with
  | some x =>
    let (result, y) := a.on x
    (result, w.publish i y x.events.size x.lines.size)
  | none => (.error (.engineFault (.abortedEarlier i)), w)

end World

end LoopProtocol
