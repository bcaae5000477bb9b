import LoopProtocol.Transition.Iterator
import LoopProtocol.Transition.Callback
import LoopProtocol.World

/-!
# Sessions

A session is a driver at work on a world: named variables hold the states and sequences that it
was given, and the callback loops whose bodies it is running are stacked, the innermost first.
-/

namespace LoopProtocol

/-- A state of one of the instances. -/
structure Handle where
  owner : InstanceId
  token : Token
deriving DecidableEq

/-- What a variable holds. -/
inductive Holding where
  | state (handle : Handle)
  | sequence (owner : InstanceId) (s : SequenceId)
deriving DecidableEq

/-- Variables and what they hold, each name at most once. -/
abbrev Variables := List (String × Holding)

namespace Variables

/-- What a variable holds. -/
def get? (vs : Variables) (name : String) : Option Holding := vs.lookup name

/-- Takes a variable out. -/
def erase (vs : Variables) (name : String) : Variables := vs.filter (·.1 ≠ name)

/-- Puts something into a variable, in place of what was there. -/
def insert (vs : Variables) (name : String) (h : Holding) : Variables :=
  (name, h) :: Variables.erase vs name

/-- Whether some variable holds a state that feeds the sequence. -/
def feeds (vs : Variables) (owner : InstanceId) (s : SequenceId) : Bool :=
  vs.any fun
    | (_, .state h) => h.owner = owner && h.token.feed = some s
    | (_, .sequence _ _) => false

end Variables

/-- A callback loop that waits for its body to return. -/
structure RunningLoop where
  owner : InstanceId
  shape : LoopShape
  /-- The variable for the state after the loop. -/
  dest : String
deriving DecidableEq

/-- A driver at work. -/
structure Session where
  world : World
  vars : Variables
  running : List RunningLoop

namespace Session

/-- A session on a world with recorders and instances, of which each may report to one of them. -/
def start (recorders : Nat) (instances : List (BoundTable × Option RecorderId)) : Session where
  world :=
    instances.foldl (fun w (bounds, recorder) => (w.addInstance bounds recorder).2)
      (recorders.repeat (fun w => w.addRecorder.2) .empty)
  vars := []
  running := []

end Session

/-- A step of a session. -/
abbrev SessionM := StateM Session

namespace SessionM

variable {α : Type}

/-- Performs an action on an instance. -/
def on (i : InstanceId) (a : Act α) : SessionM (Except Fault α) :=
  modifyGet fun s =>
    let (result, world) := s.world.on i a
    (result, { s with world })

/-- Lets go of what a variable held: a sequence loses its consumer. -/
def release : Option Holding → SessionM Unit
  | some (.sequence owner s) => discard <| on owner (Iterator.abandon s)
  | _ => pure ()

/-- Takes a variable out of the session, with what it holds. -/
def remove (name : String) : SessionM (Option Holding) :=
  modifyGet fun s =>
    (s.vars.get? name, { s with vars := Variables.erase s.vars name })

/-- Puts something into a variable, and lets go of what was there. -/
def store (name : String) (h : Holding) : SessionM Unit := do
  let before ← remove name
  modify fun s => { s with vars := Variables.insert s.vars name h }
  release before

end SessionM

end LoopProtocol
