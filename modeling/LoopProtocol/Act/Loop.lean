import LoopProtocol.Act.Basic

/-!
# The life of a loop

What an engine does from the start of a loop to its end, and at the points in between. Each of
these reports itself as an event, as a log line, or as both.
-/

namespace LoopProtocol

namespace Act

/-- Gives a parameter a number, for loops that start from now on, and answers the one before. -/
def setParam (name : String) (bound : UInt64) : Act (Option UInt64) := do
  let before ← look (·.bounds.get? name)
  modify fun x => { x with bounds := x.bounds.insert name bound }
  pure before

/-- Enters a loop head: starts the loop with the bound that `param` holds, or goes on to its next
iteration. -/
def activate (id : LoopId) (param : String) : Act Frame := do
  let (activation, frame) ← onStack fun x => x.stack.activate id (x.bounds.bound param)
  match activation with
  | .fresh =>
    note (.activated id frame.bound)
    emit (.activated id frame.bound)
  | .reentered => note (.reentered frame)
  pure frame

/-- The body of the frame's current iteration was given out. -/
def iteration (frame : Frame) : Act Unit := do
  note (.entered frame)
  emit (.iteration frame.id frame.current)

/-- Completes the current iteration of a loop. -/
def complete (id : LoopId) : Act Frame := do
  let frame ← onStack fun x => x.stack.complete id
  note (.completed frame)
  pure frame

/-- Leaves a loop. -/
def exit (id : LoopId) : Act Unit := do
  let frame ← onStack fun x => x.stack.exit id
  note (.exited frame)
  emit (.exited id)

/-- Fails while a loop is active. -/
def ensureClosed (id : LoopId) : Act Unit :=
  onStack fun x =>
    match x.stack.find? id with
    | some frame => .error (.prematureExit frame)
    | none => .ok ((), x.stack)

/-- Accepts a message for sending. What the message holds is not looked at. -/
def accept (label : String) : Act Unit := do
  note (.accepted label)
  emit (.sent label)

/-- Ends the protocol, on which no loop may be active. -/
def terminate : Act Unit := do
  onStack fun x =>
    match x.stack.top? with
    | some frame => .error (.prematureExit frame)
    | none => .ok ((), x.stack)
  note .terminated
  emit .terminated

/-- Gives out a state at a site. -/
def issue (site : Site) (feed : Option SequenceId) : Act Token := do
  let guard ← look (·.guards.next)
  modify fun x => { x with guards := x.guards.issue }
  pure ⟨guard, site, feed⟩

/-! ## What these actions do -/

theorem on_setParam (name : String) (bound : UInt64) (x : Instance) :
    (setParam name bound).on x =
      (.ok (x.bounds.get? name), { x with bounds := x.bounds.insert name bound }) := by
  simp [setParam, on_bind, Except.map]

theorem on_iteration (frame : Frame) (x : Instance) :
    (iteration frame).on x =
      (.ok (), { x with
        lines := x.lines.push (.entered frame)
        events := x.events.push (.iteration frame.id frame.current) }) := by
  simp [iteration, on_bind]

theorem on_accept (label : String) (x : Instance) :
    (accept label).on x =
      (.ok (), { x with
        lines := x.lines.push (.accepted label)
        events := x.events.push (.sent label) }) := by
  simp [accept, on_bind]

theorem on_issue (site : Site) (feed : Option SequenceId) (x : Instance) :
    (issue site feed).on x =
      (.ok ⟨x.guards.next, site, feed⟩, { x with guards := x.guards.issue }) := by
  simp [issue, on_bind, Except.map]

end Act

end LoopProtocol
