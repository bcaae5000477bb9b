import LoopProtocol.Instance

/-!
# Actions

An action on an instance answers a value or a fault. A fault does not undo what the action did
before it: the first fault aborts the instance, and from then on every action on its stack fails.
The `on` lemmas say what each basic action answers and what it leaves behind.
-/

namespace LoopProtocol

/-- An action on an instance that can fail. What it did before it failed remains. -/
abbrev Act := ExceptT Fault (StateM Instance)

namespace Act

variable {α β : Type}

/-- Performs an action: its answer, and the instance after it. -/
def on (a : Act α) (x : Instance) : Except Fault α × Instance := a.run.run x

/-- Looks at the instance. -/
def look (f : Instance → α) : Act α := return f (← get)

/-- Writes a log line. -/
def note (line : LogLine) : Act Unit := modify fun x => { x with lines := x.lines.push line }

/-- Reports an event. -/
def emit (event : Event) : Act Unit := modify fun x => { x with events := x.events.push event }

/-- Aborts the instance because of a fault; only the first abort is written down. -/
def markAborted (fault : Fault) : Act Unit := do
  unless ← look (·.aborted) do
    modify fun x => { x with aborted := true }
    note (.aborted fault)

/-- Aborts the instance and fails. -/
def abort (fault : Fault) : Act α := do
  markAborted fault
  throw fault

/-- Changes the stack, or looks at it. Refused on an aborted instance, and a failure aborts. -/
def onStack (f : Instance → Except Fault (α × FrameStack)) : Act α := do
  let x ← get
  if x.aborted then throw (.engineFault (.abortedEarlier x.id))
  match f x with
  | .ok (a, stack) =>
    modify fun x => { x with stack }
    pure a
  | .error fault => abort fault

/-! ## What the basic actions do -/

@[simp] theorem on_pure (a : α) (x : Instance) : (pure a : Act α).on x = (.ok a, x) := rfl

@[simp] theorem on_throw (f : Fault) (x : Instance) : (throw f : Act α).on x = (.error f, x) := rfl

@[simp] theorem on_get (x : Instance) : (get : Act Instance).on x = (.ok x, x) := rfl

@[simp] theorem on_modify (f : Instance → Instance) (x : Instance) :
    (modify f : Act Unit).on x = (.ok (), f x) := rfl

/-- One action after another: the second runs on what the first left, unless the first failed. -/
theorem on_bind (a : Act α) (f : α → Act β) (x : Instance) :
    (a >>= f).on x =
      match a.on x with
      | (.ok v, y) => (f v).on y
      | (.error e, y) => (.error e, y) := by
  simp only [on, ExceptT.run_bind, StateT.run_bind]
  cases h : a.run.run x with
  | mk r y => cases r <;> rfl

/-- A function of an answer is taken of the answer alone. -/
@[simp] theorem on_map (g : α → β) (a : Act α) (x : Instance) :
    (g <$> a).on x = ((a.on x).1.map g, (a.on x).2) := by
  rw [map_eq_pure_bind, on_bind]
  cases h : a.on x with
  | mk r y => cases r <;> rfl

@[simp] theorem on_look (f : Instance → α) (x : Instance) : (look f).on x = (.ok (f x), x) := rfl

@[simp] theorem on_note (line : LogLine) (x : Instance) :
    (note line).on x = (.ok (), { x with lines := x.lines.push line }) := rfl

@[simp] theorem on_emit (event : Event) (x : Instance) :
    (emit event).on x = (.ok (), { x with events := x.events.push event }) := rfl

theorem on_markAborted (f : Fault) (x : Instance) :
    (markAborted f).on x =
      (.ok (), if x.aborted then x
        else { x with aborted := true, lines := x.lines.push (.aborted f) }) := by
  cases h : x.aborted <;> simp [markAborted, on_bind, h]

theorem on_abort (f : Fault) (x : Instance) :
    (abort f : Act α).on x =
      (.error f, if x.aborted then x
        else { x with aborted := true, lines := x.lines.push (.aborted f) }) := by
  simp [abort, on_bind, on_markAborted]

theorem on_onStack (f : Instance → Except Fault (α × FrameStack)) (x : Instance) :
    (onStack f).on x =
      if x.aborted then (.error (.engineFault (.abortedEarlier x.id)), x)
      else
        match f x with
        | .ok (a, stack) => (.ok a, { x with stack })
        | .error e =>
          (.error e, { x with aborted := true, lines := x.lines.push (.aborted e) }) := by
  unfold onStack
  cases h : x.aborted
  · cases hf : f x with
    | ok p => simp [on_bind, h, hf, Except.map]
    | error e => simp [on_bind, h, hf, on_abort]
  · simp [on_bind, h]

end Act

end LoopProtocol
