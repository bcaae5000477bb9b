import LoopProtocol.Drive

/-!
# Complete runs of the nested protocol

One driver per surface takes the nested protocol from its start to its end and stops at the first
fault. A plan says how the parameter changes on the way: its `i`-th entry, if it is a number,
becomes the parameter's number when the `i`-th outer body starts.
-/

namespace LoopProtocol.CompleteRun

/-- The numbers that the parameter takes at the start of each outer body. -/
abbrev Plan := List (Option UInt64)

/-- A driver that holds the rest of its plan. -/
abbrev Planned := Drive Plan

open Drive

/-- Follows the plan at the start of an outer body. -/
def followPlan : Planned Unit := do
  match ← get with
  | [] => pure ()
  | entry :: rest =>
    set rest
    match entry with
    | some bound => discard <| act (Act.setParam Nested.param bound)
    | none => pure ()

/-- The state at which a run through the surface starts. -/
def start (surface : Surface) : Planned Token := act (Act.issue (Nested.start surface) none)

/-- The run that asks each loop head whether there is more. -/
def polling : Planned Unit := do
  let outer ← repeatWhile (hasMore Nested.outerId) outerBody Bound.limit (← start .polling)
  let done ← act (Polling.exit (Nested.outer .polling) outer)
  act (done.finish (Nested.closesAtEnd .polling))
where
  innerBody (inner : Token) : Planned Token := do
    let body ← act (Polling.enter (Nested.inner .polling) inner)
    act (body.sendAt (Nested.foo .polling))
  outerBody (outer : Token) : Planned Token := do
    let inner ← act (Polling.enter (Nested.outer .polling) outer)
    followPlan
    let inner ← repeatWhile (hasMore Nested.innerId) innerBody Bound.limit inner
    let after ← act (Polling.exit (Nested.inner .polling) inner)
    act (after.sendAt (Nested.bar .polling))

/-- Ends an iteration at a state that belongs to a sequence. -/
def endIteration (tail : Token) (loop : LoopShape) : Planned Unit :=
  match tail.feed with
  | some s => discard <| act (Iterator.endIteration tail s loop.body)
  | none => throw .stalled

/-- The run that drains the sequence of each loop before it uses the state after the loop. -/
def iterator : Planned Unit := do
  let (bodies, done) ← act (Iterator.enter (Nested.outer .iterator) (← start .iterator))
  drain bodies outerBody Bound.limit
  act (done.finish (Nested.closesAtEnd .iterator))
where
  innerBody (body : Token) : Planned Unit := do
    let tail ← act (body.sendAt (Nested.foo .iterator))
    endIteration tail (Nested.inner .iterator)
  outerBody (inner : Token) : Planned Unit := do
    followPlan
    let (bodies, after) ← act (Iterator.enter (Nested.inner .iterator) inner)
    drain bodies innerBody Bound.limit
    let tail ← act (after.sendAt (Nested.bar .iterator))
    endIteration tail (Nested.outer .iterator)

/-- The run that gives each loop head its body as a function. -/
def callback : Planned Unit := do
  let done ← foreach (Nested.outer .callback) (← start .callback) outerBody
  act (done.finish (Nested.closesAtEnd .callback))
where
  innerBody (body : Token) : Planned Token := act (body.sendAt (Nested.foo .callback))
  outerBody (inner : Token) : Planned Token := do
    followPlan
    let after ← foreach (Nested.inner .callback) inner innerBody
    act (after.sendAt (Nested.bar .callback))

/-- The complete run through a surface. -/
def driver : Surface → Planned Unit
  | .polling => polling
  | .iterator => iterator
  | .callback => callback

/-- How a run ended, and what it left behind. -/
structure Outcome where
  result : Except Halt Unit
  stack : FrameStack
  aborted : Bool
  events : Array Event

/-- Runs the nested protocol on an instance of its own. -/
def run (surface : Surface) (bounds : BoundTable) (plan : Plan) : Outcome :=
  let start := Instance.create ⟨0⟩ bounds (some ⟨0⟩)
  let ((result, _), x) := ((driver surface).run.run plan).run start
  ⟨result, x.stack, x.aborted, x.events⟩

end LoopProtocol.CompleteRun
