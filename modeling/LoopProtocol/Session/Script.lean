import LoopProtocol.Session.Move

/-!
# Scripts

A script is a driver written down: steps, of which a callback loop has a script for each call of its
body. Running a script makes the moves that it describes and tells after each step what it
answered and what could be seen then.
-/

namespace LoopProtocol

mutual

/-- One step of a script. A fault of a step inside a body ends the body unless it is caught. -/
inductive Step where
  | act (action : Action) (caught : Bool)
  /-- A callback loop. Its iterations run the bodies in order, and then the last one again. -/
  | foreach (source : Source) (dest : String) (bodies : List Script) (caught : Bool)

/-- Steps, and the variable whose state a body returns after them. -/
inductive Script where
  | mk (steps : List Step) (result : String)

end

/-- What can be seen after a step: for each instance its stack and whether it is aborted, and for
each recorder what it heard since the step before. -/
structure Observation where
  instances : List (FrameStack × Bool)
  heard : List (Array Event)

/-- The answer to a step. -/
inductive Answer where
  | step (reply : Reply) (seen : Observation)
  /-- The answers of each call of the body, and then that of the loop. -/
  | foreach (iterations : List (List Answer)) (result : Reply) (seen : Observation)

/-- A session, and how many events of each recorder were already seen. -/
structure Transcript where
  session : Session
  seen : List Nat

/-- A step of a transcript. -/
abbrev TranscriptM := StateM Transcript

/-- The answers of a body and the move that returns from it. -/
abbrev BodyRun := TranscriptM (List Answer × Move)

namespace TranscriptM

/-- Makes a move. -/
def move (m : Move) : TranscriptM Reply :=
  modifyGet fun t =>
    let (reply, session) := (SessionM.move m).run t.session
    (reply, { t with session })

/-- Looks at the world. -/
def observe : TranscriptM Observation :=
  modifyGet fun t =>
    let logs := t.session.world.recorders.logs.toList
    let heard := logs.mapIdx fun i log => log.extract (t.seen.getD i 0) log.size
    (⟨t.session.world.instances.toList.map fun x => (x.stack, x.aborted), heard⟩,
      { t with seen := logs.map Array.size })

/-- The run of the body's `i`-th call. After the last script comes the last script again; without
scripts a body does and returns nothing. -/
def bodyRun (bodies : List BodyRun) (i : Nat) : BodyRun :=
  bodies.getD i (bodies.getLastD (pure ([], .returnState "")))

/-- Calls the body of a loop as long as the loop head does, from the given reply of the head on. A
loop that outlasts the rounds is left waiting. -/
def callBodies (bodies : List BodyRun) :
    Nat → Nat → Reply → TranscriptM (List (List Answer) × Reply)
  | 0, _, _ => pure ([], .waiting)
  | rounds + 1, i, .called _ => do
    let (answers, returned) ← bodyRun bodies i
    let reply ← move returned
    let (rest, result) ← callBodies bodies rounds (i + 1) reply
    pure (answers :: rest, result)
  | _, _, reply => pure ([], reply)

end TranscriptM

open TranscriptM

/-- The fault that a step raises. -/
def raised (caught : Bool) (reply : Reply) : Option Fault :=
  if caught then none else reply.fault?

mutual

/-- Runs a step: its answer, and the fault that it raises. -/
def Step.run : Step → TranscriptM (Answer × Option Fault)
  | .act action caught => do
    let reply ← move (.act action)
    pure (.step reply (← observe), raised caught reply)
  | .foreach source dest bodies caught => do
    let entered ← move (.foreach source dest)
    let (iterations, result) ← callBodies (Script.runs bodies) Bound.limit 0 entered
    pure (.foreach iterations result (← observe), raised caught result)

/-- Runs steps up to the first that raises a fault. -/
def Step.runUntilFault : List Step → TranscriptM (List Answer × Option Fault)
  | [] => pure ([], none)
  | step :: rest => do
    let (answer, fault) ← step.run
    match fault with
    | some fault => pure ([answer], some fault)
    | none => do
      let (answers, fault) ← Step.runUntilFault rest
      pure (answer :: answers, fault)

/-- Runs a body: its answers, and the move that returns from it. -/
def Script.run : Script → BodyRun
  | .mk steps result => do
    let (answers, fault) ← Step.runUntilFault steps
    match fault with
    | some fault => pure (answers, .returnFault fault)
    | none => pure (answers, .returnState result)

/-- The runs of several bodies. -/
def Script.runs : List Script → List BodyRun
  | [] => []
  | script :: rest => script.run :: Script.runs rest

end

/-- Runs steps one after another, whatever they answer. -/
def Step.runAll (steps : List Step) : TranscriptM (List Answer) :=
  steps.mapM fun step => return (← step.run).1

/-- Runs steps on a new session: their answers and the log. -/
def runSession (recorders : Nat) (instances : List (BoundTable × Option RecorderId))
    (steps : List Step) : List Answer × Array (InstanceId × LogLine) :=
  let (answers, t) := (Step.runAll steps).run ⟨.start recorders instances, []⟩
  (answers, t.session.world.log)

end LoopProtocol
