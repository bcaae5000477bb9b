import LoopProtocol.Proofs.Call
import Mathlib.Data.List.Chain

/-!
# Calls as routines

An action answers and changes an instance, and what the instance was in between is lost. A routine
keeps it: it is a tree of operations, each of them one step on the stack, the guards, the sequences
or the reports, and `Routine.points` is the list of all instances from before its first operation to
after its last. Every call is a routine (`Call.run_routine`), so what holds at the points of the
routine of a call holds at every point of the call.
-/

namespace LoopProtocol

/-- One step of a call. -/
inductive Operation : Type → Type 1 where
  | consume (t : Token) : Operation Unit
  | activate (head : LoopHead) : Operation Frame
  | iteration (frame : Frame) : Operation Unit
  | complete (id : LoopId) : Operation Frame
  | exit (id : LoopId) : Operation Unit
  | ensureClosed (id : LoopId) : Operation Unit
  | accept (label : String) : Operation Unit
  | terminate : Operation Unit
  | issue (site : Site) (feed : Option SequenceId) : Operation Token
  | setParam (name : String) (bound : UInt64) : Operation (Option UInt64)
  | openSequence (id : LoopId) : Operation SequenceId
  | handOver (s : SequenceId) (body : Token) : Operation Iterator.Progress
  | closeSequence (s : SequenceId) : Operation Unit
  | take (s : SequenceId) : Operation (Option Token)
  | abandon (s : SequenceId) : Operation Unit
  | abort {α : Type} (fault : Fault) : Operation α

/-- What an operation does. -/
def Operation.act {α : Type} : Operation α → Act α
  | consume t => t.consume
  | activate head => Act.activate head.id head.param
  | iteration frame => Act.iteration frame
  | complete id => Act.complete id
  | exit id => Act.exit id
  | ensureClosed id => Act.ensureClosed id
  | accept label => Act.accept label
  | terminate => Act.terminate
  | issue site feed => Act.issue site feed
  | setParam name bound => Act.setParam name bound
  | openSequence id => Iterator.openSequence id
  | handOver s body => Iterator.handOver s body
  | closeSequence s => Iterator.closeSequence s
  | take s => Iterator.take? s
  | abandon s => Iterator.abandon s
  | abort fault => Act.abort fault

/-- Operations one after another, of which each may depend on the answers to those before. -/
inductive Routine : Type → Type 1 where
  | done {α : Type} (answer : α) : Routine α
  | step {α β : Type} (o : Operation β) (next : β → Routine α) : Routine α

namespace Routine

variable {α β γ : Type}

/-- A routine, and then the one that its answer leads to. -/
def bind : Routine α → (α → Routine β) → Routine β
  | done a, f => f a
  | step o next, f => step o fun b => (next b).bind f

instance : Monad Routine where
  pure := done
  bind := bind

/-- A single operation. -/
def once (o : Operation α) : Routine α := step o done

/-- What a routine does. -/
def run : Routine α → Act α
  | done a => pure a
  | step o next => do (next (← o.act)).run

/-- The instances from before the first operation to after the last. -/
def points : Routine α → Instance → List Instance
  | done _, x => [x]
  | step o next, x =>
    x :: match o.act.on x with
      | (.ok b, y) => (next b).points y
      | (.error _, y) => [y]

@[simp] theorem run_pure (a : α) : (pure a : Routine α).run = pure a := rfl

@[simp] theorem run_once (o : Operation α) : (once o).run = o.act := bind_pure o.act

@[simp] theorem run_bind (r : Routine α) (f : α → Routine β) :
    (r >>= f).run = r.run >>= fun a => (f a).run := by
  induction r with
  | done a =>
    show (f a).run = (pure a : Act _) >>= fun a => (f a).run
    rw [pure_bind]
  | step o next ih =>
    show o.act >>= (fun b => (next b >>= f).run) = (o.act >>= fun b => (next b).run) >>= _
    rw [bind_assoc]
    exact congrArg (o.act >>= ·) (funext ih)

@[simp] theorem run_map (g : α → β) (r : Routine α) : (g <$> r).run = g <$> r.run := by
  show (r >>= fun a => done (g a)).run = _
  rw [run_bind, map_eq_pure_bind]
  rfl

/-! ## The routines of all calls -/

/-- Uses a state. -/
def use (t : Token) : Use → Routine Unit
  | .consume => once (.consume t)
  | .send label => do
    once (.consume t)
    once (.accept label)
  | .sendAfter id label => do
    once (.consume t)
    once (.ensureClosed id)
    once (.accept label)
  | .terminate => do
    once (.consume t)
    once .terminate
  | .terminateAfter id => do
    once (.consume t)
    once (.ensureClosed id)
    once .terminate

def sendAt (t : Token) (point : SendPoint) : Routine Token := do
  match point.closes with
  | some id => use t (.sendAfter id point.label)
  | none => use t (.send point.label)
  once (.issue point.next t.feed)

def finish (t : Token) : Option LoopId → Routine Unit
  | some id => use t (.terminateAfter id)
  | none => use t .terminate

def pollingEnter (shape : LoopShape) (head : Token) : Routine Token := do
  once (.consume head)
  let frame ← once (.activate shape.head)
  if frame.canEnter then
    once (.iteration frame)
    once (.issue shape.body none)
  else once (.abort (.boundsExceeded frame))

def pollingExit (shape : LoopShape) (head : Token) : Routine Token := do
  once (.consume head)
  once (.exit shape.head.id)
  once (.issue shape.after none)

def callbackTurn (shape : LoopShape) (frame : Frame) : Routine Callback.Turn := do
  if frame.canEnter then
    once (.iteration frame)
    return .body (← once (.issue shape.body none))
  else
    once (.exit shape.head.id)
    return .finished (← once (.issue shape.after none))

def callbackBegin (shape : LoopShape) (head : Token) : Routine Callback.Turn := do
  once (.consume head)
  let frame ← once (.activate shape.head)
  callbackTurn shape frame

def callbackAdvance (shape : LoopShape) : Routine Callback.Turn := do
  let frame ← once (.complete shape.head.id)
  callbackTurn shape frame

def iteratorTurn (s : SequenceId) (frame : Frame) (body : Site) : Routine Iterator.Progress := do
  if frame.canEnter then
    once (.iteration frame)
    let token ← once (.issue body (some s))
    once (.handOver s token)
  else
    once (.exit s.loop)
    once (.closeSequence s)
    return .closed

def iteratorEnter (shape : LoopShape) (head : Token) : Routine (SequenceId × Token) := do
  once (.consume head)
  let frame ← once (.activate shape.head)
  let s ← once (.openSequence shape.head.id)
  let _ ← iteratorTurn s frame shape.body
  let after ← once (.issue shape.after head.feed)
  return (s, after)

def endIteration (tail : Token) (s : SequenceId) (nextBody : Site) :
    Routine Iterator.Progress := do
  once (.consume tail)
  let frame ← once (.complete s.loop)
  iteratorTurn s frame nextBody

/-! ## What the routines do -/

theorem run_use (t : Token) (u : Use) : (use t u).run = u.act t := by
  cases u <;> simp [use, Use.act, Operation.act, Token.send, Token.sendAfter, Token.terminate,
    Token.terminateAfter]

theorem run_sendAt (t : Token) (point : SendPoint) : (sendAt t point).run = t.sendAt point := by
  unfold sendAt Token.sendAt
  cases point.closes <;> simp [run_use, Operation.act, Use.act]

theorem run_finish (t : Token) (closes : Option LoopId) :
    (finish t closes).run = t.finish closes := by
  cases closes <;> simp [finish, Token.finish, run_use, Use.act]

theorem run_pollingEnter (shape : LoopShape) (head : Token) :
    (pollingEnter shape head).run = Polling.enter shape head := by
  simp [pollingEnter, Polling.enter, Operation.act, apply_ite Routine.run]

theorem run_pollingExit (shape : LoopShape) (head : Token) :
    (pollingExit shape head).run = Polling.exit shape head := by
  simp [pollingExit, Polling.exit, Operation.act]

theorem run_callbackTurn (shape : LoopShape) (frame : Frame) :
    (callbackTurn shape frame).run = Callback.turn shape frame := by
  unfold callbackTurn Callback.turn
  split <;> simp [Operation.act]

theorem run_callbackBegin (shape : LoopShape) (head : Token) :
    (callbackBegin shape head).run = Callback.begin shape head := by
  simp [callbackBegin, Callback.begin, Operation.act, run_callbackTurn]

theorem run_callbackAdvance (shape : LoopShape) :
    (callbackAdvance shape).run = Callback.advance shape := by
  simp [callbackAdvance, Callback.advance, Operation.act, run_callbackTurn]

theorem run_iteratorTurn (s : SequenceId) (frame : Frame) (body : Site) :
    (iteratorTurn s frame body).run = Iterator.turn s frame body := by
  unfold iteratorTurn Iterator.turn
  split <;> simp [Operation.act]

theorem run_iteratorEnter (shape : LoopShape) (head : Token) :
    (iteratorEnter shape head).run = Iterator.enter shape head := by
  simp [iteratorEnter, Iterator.enter, Operation.act, run_iteratorTurn]

theorem run_endIteration (tail : Token) (s : SequenceId) (nextBody : Site) :
    (endIteration tail s nextBody).run = Iterator.endIteration tail s nextBody := by
  simp [endIteration, Iterator.endIteration, Operation.act, run_iteratorTurn]

end Routine

namespace Call

open Routine

/-- The steps of a call. -/
def routine : Call → Routine Grant
  | issue site => .state <$> once (.issue site none)
  | fork t => .state <$> once (.issue .item t.feed)
  | setParam name bound => (fun _ => .nothing) <$> once (.setParam name bound)
  | use t u => (fun _ => .nothing) <$> Routine.use t u
  | send t point => .state <$> sendAt t point
  | finish t closes => (fun _ => .nothing) <$> Routine.finish t closes
  | enter shape head => .state <$> pollingEnter shape head
  | exit shape head => .state <$> pollingExit shape head
  | iterate shape head => (fun p => .sequence p.1 p.2) <$> iteratorEnter shape head
  | endIteration tail s nextBody =>
    (fun _ => .nothing) <$> Routine.endIteration tail s nextBody
  | take s => (fun t => t.elim .nothing .state) <$> once (.take s)
  | abandon s => (fun _ => .nothing) <$> once (.abandon s)
  | begin shape head => .ofTurn <$> callbackBegin shape head
  | giveBack tail => (fun _ => .nothing) <$> once (.consume tail)
  | advance shape _ => .ofTurn <$> callbackAdvance shape
  | fail fault => (fun _ => .nothing) <$> once (.abort fault : Operation Unit)

/-- **A call does what its routine does.** -/
theorem run_routine (c : Call) : c.routine.run = c.act := by
  cases c <;>
    simp [routine, act, Operation.act, run_use, run_sendAt, run_finish, run_pollingEnter,
      run_pollingExit, run_callbackBegin, run_callbackAdvance, run_iteratorEnter, run_endIteration]

end Call

/-! ## What a routine is made of -/

namespace Routine

variable {α β : Type} {p : ∀ {γ : Type}, Operation γ → Prop}

/-- All operations of the routine are of one kind, whatever they are answered. -/
def MadeOf (p : ∀ {γ : Type}, Operation γ → Prop) : Routine α → Prop
  | done _ => True
  | step o next => p o ∧ ∀ b, (next b).MadeOf p

@[simp] theorem madeOf_pure (a : α) : (pure a : Routine α).MadeOf p := trivial

@[simp] theorem madeOf_once (o : Operation α) : (once o).MadeOf p ↔ p o :=
  ⟨fun h => h.1, fun h => ⟨h, fun _ => trivial⟩⟩

@[simp] theorem madeOf_once_bind (o : Operation α) (f : α → Routine β) :
    (once o >>= f).MadeOf p ↔ p o ∧ ∀ a, (f a).MadeOf p := Iff.rfl

theorem MadeOf.bind {r : Routine α} {f : α → Routine β} (h : r.MadeOf p)
    (hf : ∀ a, (f a).MadeOf p) : (r >>= f).MadeOf p := by
  induction r with
  | done a => exact hf a
  | step o next ih => exact ⟨h.1, fun b => ih b (h.2 b)⟩

@[simp] theorem madeOf_map {r : Routine α} {g : α → β} : (g <$> r).MadeOf p ↔ r.MadeOf p := by
  induction r with
  | done a => exact Iff.rfl
  | step o next ih => exact and_congr_right fun _ => forall_congr' ih

/-- **What the operations of a kind have and sequencing keeps, their routines have.** -/
theorem MadeOf.run {C : ∀ {γ : Type}, Act γ → Prop} {r : Routine α} (h : r.MadeOf p)
    (hpure : ∀ {γ : Type} (a : γ), C (pure a : Act γ))
    (hbind : ∀ {γ δ : Type} (a : Act γ) (f : γ → Act δ), C a → (∀ v, C (f v)) → C (a >>= f))
    (hop : ∀ {γ : Type} (o : Operation γ), p o → C o.act) : C r.run := by
  induction r with
  | done a => exact hpure a
  | step o next ih => exact hbind o.act _ (hop o h.1) fun b => ih b (h.2 b)

end Routine

namespace Routine

/-! ## What holds between the steps -/

variable {α β γ : Type}

/-- `R` relates the instances before and after each operation of the routine, and in the end `Q`
holds of its answer, or `E` holds after a fault. -/
def Always (R : Instance → Instance → Prop) (E : Instance → Prop) :
    Routine α → Instance → (α → Instance → Prop) → Prop
  | done a, x, Q => Q a x
  | step o next, x, Q =>
    o.act.Ends x (fun b y => R x y ∧ (next b).Always R E y Q) fun _ y => R x y ∧ E y

variable {R : Instance → Instance → Prop} {E : Instance → Prop} {x : Instance}
  {Q : α → Instance → Prop} {Q' : β → Instance → Prop}

theorem always_once {o : Operation α}
    (h : o.act.Ends x (fun a y => R x y ∧ Q a y) fun _ y => R x y ∧ E y) :
    (once o).Always R E x Q := h

theorem Always.bind {r : Routine α} {f : α → Routine β}
    (h : r.Always R E x fun a y => (f a).Always R E y Q') : (r >>= f).Always R E x Q' := by
  induction r generalizing x with
  | done a => exact h
  | step o next ih =>
    exact Act.Ends.mono h (fun b y hy => ⟨hy.1, ih b hy.2⟩) fun _ _ he => he

theorem Always.mono {r : Routine α} {Q' : α → Instance → Prop} (h : r.Always R E x Q)
    (hQ : ∀ a y, Q a y → Q' a y) : r.Always R E x Q' := by
  induction r generalizing x with
  | done a => exact hQ a x h
  | step o next ih =>
    exact Act.Ends.mono h (fun b y hy => ⟨hy.1, ih b hy.2⟩) fun _ _ he => he

/-- One routine after another, with what holds in between. -/
theorem Always.andThen {r : Routine α} {f : α → Routine β} (h : r.Always R E x Q)
    (hf : ∀ a y, Q a y → (f a).Always R E y Q') : (r >>= f).Always R E x Q' :=
  (h.mono hf).bind

theorem Always.ends {r : Routine α} (h : r.Always R E x Q) : r.run.Ends x Q fun _ => E := by
  induction r generalizing x with
  | done a => exact Act.ends_pure h
  | step o next ih =>
    refine Act.Ends.bind ?_
    exact Act.Ends.mono h (fun b y hy => ih b hy.2) fun _ _ he => he.2

/-- The points of a routine begin with where it starts and end with what it leaves. -/
theorem head?_points (r : Routine α) (x : Instance) : (r.points x).head? = some x := by
  cases r with
  | done a => rfl
  | step o next => simp [points]

theorem getLast?_points (r : Routine α) (x : Instance) :
    (r.points x).getLast? = some (r.run.on x).2 := by
  induction r generalizing x with
  | done a => rfl
  | step o next ih =>
    unfold points run
    rw [Act.on_bind]
    cases h : o.act.on x with
    | mk result y =>
      cases result with
      | error e => rfl
      | ok b =>
        dsimp only
        rw [List.getLast?_cons, ih b y]
        rfl

/-- **What every operation relates, the points of the routine are a chain of.** -/
theorem Always.isChain {r : Routine α} (h : r.Always R E x Q) : (r.points x).IsChain R := by
  induction r generalizing x with
  | done a => exact .singleton x
  | step o next ih =>
    unfold Always Act.Ends at h
    unfold points
    cases hon : o.act.on x with
    | mk result y =>
      rw [hon] at h
      cases result with
      | error e => exact .cons_cons h.1 (.singleton y)
      | ok b =>
        refine List.isChain_cons.2 ⟨fun z hz => ?_, ih b h.2⟩
        rw [head?_points] at hz
        exact Option.some.inj hz ▸ h.1

end Routine

end LoopProtocol
