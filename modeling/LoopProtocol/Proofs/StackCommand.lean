import LoopProtocol.Proofs.FrameCount

/-!
# Commands to a stack in its place

The operations on a stack, done to a stack that is kept in a cell, with any lookup of bounds and
from any stack, also one on which a loop is found twice. What a command did before it failed would
remain in the cell; but a command that fails has not touched the stack, and one that succeeds has
changed it at the top only.

Nothing keeps a loop from being on the stack twice but the refusal to enter a buried loop. This is
enough for all runs of commands from the empty stack.
-/

namespace LoopProtocol

/-- The frame of the same loop one iteration on, unless the index is the largest of its word. -/
structure Frame.AdvancesTo (f g : Frame) : Prop where
  id : g.id = f.id
  last : g.last = f.last
  current : f.current.toNat + 1 < Bound.limit → g.current.toNat = f.current.toNat + 1

theorem Frame.advancesTo_advance (f : Frame) : f.AdvancesTo f.advance where
  id := rfl
  last := rfl
  current h := toNat_current_advance_of_lt h

namespace FrameStack

/-- Whether a frame of the loop is on the stack. -/
def Holds (s : FrameStack) (id : LoopId) : Prop := ∃ f ∈ s.frames, f.id = id

/-- Whether the innermost frame belongs to the loop. -/
def IsOnTop (s : FrameStack) (id : LoopId) : Prop := ∃ top, s.top? = some top ∧ top.id = id

/-- Whether every loop is on the stack once. -/
def Distinct (s : FrameStack) : Prop := (s.frames.map (·.id)).Nodup

end FrameStack

/-- A stack in its place, among the surroundings in which bounds are looked up. -/
structure StackCell (σ : Type) where
  stack : FrameStack
  surroundings : σ
  /-- How often a bound was looked up. -/
  lookups : Nat

/-- An action on a cell. What it did before it failed remains. -/
abbrev StackAct (σ : Type) := ExceptT Fault (StateM (StackCell σ))

/-- A command to a stack. A lookup works on its surroundings, which it may change whether it finds a
bound or fails, and does not see the stack. -/
inductive StackCommand (σ : Type) where
  | activate (id : LoopId) (bound : ExceptT Fault (StateM σ) Bound)
  | complete (id : LoopId)
  | exit (id : LoopId)
  | pop

namespace StackCommand

variable {σ α : Type}

/-- Looks a bound up. -/
def lookUp (bound : ExceptT Fault (StateM σ) Bound) : StackAct σ Bound :=
  ExceptT.mk fun cell =>
    let (result, surroundings) := bound.run.run cell.surroundings
    (result, { cell with surroundings, lookups := cell.lookups + 1 })

/-- Replaces the stack by the one that an operation on it finds. -/
def replace (operation : FrameStack → StackAct σ (α × FrameStack)) : StackAct σ α := do
  let (answer, stack) ← operation (← get).stack
  modify fun cell => { cell with stack }
  pure answer

/-- An operation that answers a frame and nothing else. -/
def plain (result : Except Fault (Frame × FrameStack)) :
    StackAct σ ((Option Activation × Frame) × FrameStack) :=
  ExceptT.mk (pure (result.map fun (f, s) => ((none, f), s)))

/-- What a command does. It answers a frame, and of a loop head also how it was entered. -/
def act : StackCommand σ → StackAct σ (Option Activation × Frame)
  | activate id bound => replace fun s => do
    let ((how, f), s') ← s.activate id (lookUp bound)
    pure ((some how, f), s')
  | complete id => replace fun s => plain (s.complete id)
  | exit id => replace fun s => plain (s.exit id)
  | pop => replace fun s => plain s.pop

/-- The answer of a command, and the cell after it. -/
def on (q : StackCommand σ) (cell : StackCell σ) :
    Except Fault (Option Activation × Frame) × StackCell σ := q.act.run.run cell

/-! ## The whole effect of each command -/

theorem run_bind {β : Type} (a : StackAct σ α) (f : α → StackAct σ β) (cell : StackCell σ) :
    (a >>= f).run.run cell =
      match a.run.run cell with
      | (.ok v, after) => (f v).run.run after
      | (.error e, after) => (.error e, after) := by
  simp only [ExceptT.run_bind, StateT.run_bind]
  cases a.run.run cell with
  | mk r after => cases r <;> rfl

theorem run_replace (operation : FrameStack → StackAct σ (α × FrameStack)) (cell : StackCell σ) :
    (replace operation).run.run cell =
      match (operation cell.stack).run.run cell with
      | (.ok (answer, stack), after) => (.ok answer, { after with stack })
      | (.error e, after) => (.error e, after) := by
  have hget : (get : StackAct σ (StackCell σ)).run.run cell = (.ok cell, cell) := rfl
  rw [replace, run_bind, hget]
  change (operation cell.stack >>= _).run.run cell = _
  rw [run_bind]
  cases (operation cell.stack).run.run cell with
  | mk r after => cases r <;> rfl

theorem run_lookUp (bound : ExceptT Fault (StateM σ) Bound) (cell : StackCell σ) :
    (lookUp bound).run.run cell =
      ((bound.run.run cell.surroundings).1,
        ⟨cell.stack, (bound.run.run cell.surroundings).2, cell.lookups + 1⟩) := rfl

variable (cell : StackCell σ) (id : LoopId)

theorem run_plain (operation : FrameStack → Except Fault (Frame × FrameStack)) :
    (replace fun s => plain (operation s)).run.run cell =
      match operation cell.stack with
      | .ok (f, stack) => (.ok (none, f), { cell with stack })
      | .error e => (.error e, cell) := by
  rw [run_replace]
  cases h : operation cell.stack <;> rfl

theorem on_complete :
    (complete id).on cell =
      match cell.stack.onTop? id with
      | some (top, below) =>
        (.ok (none, top.advance), { cell with stack := ⟨top.advance :: below⟩ })
      | none => (.error (.missingFrame id), cell) := by
  refine (run_plain cell (·.complete id)).trans ?_
  cases h : cell.stack.onTop? id <;> simp [FrameStack.complete, h]

theorem on_exit :
    (exit id).on cell =
      match cell.stack.onTop? id with
      | some (top, below) =>
        if top.hasNext then (.error (.prematureExit top), cell)
        else (.ok (none, top), { cell with stack := ⟨below⟩ })
      | none => (.error (.missingFrame id), cell) := by
  refine (run_plain cell (·.exit id)).trans ?_
  rw [FrameStack.exit_eq]
  cases cell.stack.onTop? id with
  | none => rfl
  | some p => cases h : p.1.hasNext <;> simp [h]

theorem on_pop :
    pop.on cell =
      match cell.stack.frames with
      | top :: below => (.ok (none, top), { cell with stack := ⟨below⟩ })
      | [] => (.error .stackUnderflow, cell) := by
  refine (run_plain cell (·.pop)).trans ?_
  cases h : cell.stack.frames <;> simp [FrameStack.pop, h]

/-- Entering a loop head on the three kinds of stack: with the loop on top, with it buried, and
without it, where alone the bound is looked up. -/
theorem on_activate (bound : ExceptT Fault (StateM σ) Bound) :
    (activate id bound).on cell =
      match cell.stack.onTop? id with
      | some (top, below) =>
        (.ok (some .reentered, top.advance), { cell with stack := ⟨top.advance :: below⟩ })
      | none =>
        if cell.stack.contains id then (.error (.engineFault (.buried id cell.stack)), cell)
        else
          match bound.run.run cell.surroundings with
          | (.ok b, surroundings) =>
            (.ok (some .fresh, Frame.start id b),
              ⟨cell.stack.push id b, surroundings, cell.lookups + 1⟩)
          | (.error e, surroundings) =>
            (.error e, ⟨cell.stack, surroundings, cell.lookups + 1⟩) := by
  rw [on, act, run_replace, run_bind, FrameStack.activate]
  cases cell.stack.onTop? id with
  | some p => rfl
  | none =>
    cases cell.stack.contains id with
    | true => rfl
    | false =>
      simp only [Bool.false_eq_true, if_false]
      rw [run_bind, run_lookUp]
      cases bound.run.run cell.surroundings with
      | mk r surroundings => cases r <;> rfl

end StackCommand

/-! ## Where a loop is -/

namespace FrameStack

variable {s : FrameStack} {id : LoopId}

theorem contains_eq_true_iff : s.contains id = true ↔ s.Holds id := by
  simp [contains, find?, Holds]

theorem exists_onTop? (h : s.IsOnTop id) :
    ∃ top below, s.onTop? id = some (top, below) ∧ s.frames = top :: below ∧ top.id = id := by
  obtain ⟨top, htop, hid⟩ := h
  obtain ⟨below, hs⟩ := List.head?_eq_some_iff.1 htop
  exact ⟨top, below, onTop?_eq_some_iff.2 ⟨hs, hid⟩, hs, hid⟩

theorem isOnTop_of_onTop? {top : Frame} {below : List Frame} (h : s.onTop? id = some (top, below)) :
    s.IsOnTop id := by
  obtain ⟨hs, hid⟩ := onTop?_eq_some_iff.1 h
  exact ⟨top, by rw [top?, hs]; rfl, hid⟩

theorem onTop?_eq_none_iff : s.onTop? id = none ↔ ¬ s.IsOnTop id := by
  constructor
  · intro hnone htop
    obtain ⟨top, below, h, -⟩ := exists_onTop? htop
    rw [hnone] at h
    cases h
  · intro hnot
    cases h : s.onTop? id with
    | none => rfl
    | some p => exact absurd (isOnTop_of_onTop? h) hnot

theorem IsOnTop.holds (h : s.IsOnTop id) : s.Holds id := by
  obtain ⟨top, htop, hid⟩ := h
  exact ⟨top, List.mem_of_mem_head? htop, hid⟩

/-- The three places of a loop: on top, further down, or nowhere. -/
inductive Place (s : FrameStack) (id : LoopId) : Prop where
  | onTop {top : Frame} {below : List Frame} : s.onTop? id = some (top, below) → Place s id
  | buried : ¬ s.IsOnTop id → s.Holds id → Place s id
  | absent : ¬ s.Holds id → Place s id

theorem place (s : FrameStack) (id : LoopId) : s.Place id := by
  by_cases htop : s.IsOnTop id
  · obtain ⟨top, below, h, -⟩ := exists_onTop? htop
    exact .onTop h
  · by_cases hholds : s.Holds id
    · exact .buried htop hholds
    · exact .absent hholds

end FrameStack

namespace StackCommand

variable {σ : Type} {cell : StackCell σ} {id : LoopId}
  {bound : ExceptT Fault (StateM σ) Bound}

theorem on_activate_onTop {top : Frame} {below : List Frame}
    (h : cell.stack.onTop? id = some (top, below)) :
    (activate id bound).on cell =
      (.ok (some .reentered, top.advance), { cell with stack := ⟨top.advance :: below⟩ }) := by
  rw [on_activate, h]

theorem on_activate_buried (htop : ¬ cell.stack.IsOnTop id) (hholds : cell.stack.Holds id) :
    (activate id bound).on cell = (.error (.engineFault (.buried id cell.stack)), cell) := by
  rw [on_activate, FrameStack.onTop?_eq_none_iff.2 htop]
  exact if_pos (FrameStack.contains_eq_true_iff.2 hholds)

theorem on_activate_absent (hholds : ¬ cell.stack.Holds id) :
    (activate id bound).on cell =
      match bound.run.run cell.surroundings with
      | (.ok b, surroundings) =>
        (.ok (some .fresh, Frame.start id b),
          ⟨cell.stack.push id b, surroundings, cell.lookups + 1⟩)
      | (.error e, surroundings) => (.error e, ⟨cell.stack, surroundings, cell.lookups + 1⟩) := by
  rw [on_activate, FrameStack.onTop?_eq_none_iff.2 (mt FrameStack.IsOnTop.holds hholds)]
  exact if_neg (mt FrameStack.contains_eq_true_iff.1 hholds)

/-! ## Changes at the top -/

/-- What a command that succeeds does to the frames, and what it answers: one frame is put on top,
or advanced there, or taken off, and the frames below it are as they were. -/
inductive Changes (surroundings : σ) :
    StackCommand σ → List Frame → Option Activation × Frame → List Frame → Prop where
  | start {id : LoopId} {bound : ExceptT Fault (StateM σ) Bound} {b : Bound} {f : Frame}
    {frames : List Frame} : (bound.run.run surroundings).1 = .ok b → (∀ g ∈ frames, g.id ≠ id) →
    f.id = id → f.current = 0 → f.last.toNat + 1 = b.count.toNat →
    Changes surroundings (.activate id bound) frames (some .fresh, f) (f :: frames)
  | reenter {id : LoopId} {bound : ExceptT Fault (StateM σ) Bound} {top f : Frame}
    {below : List Frame} : top.id = id → top.AdvancesTo f →
    Changes surroundings (.activate id bound) (top :: below) (some .reentered, f) (f :: below)
  | complete {id : LoopId} {top f : Frame} {below : List Frame} : top.id = id →
    top.AdvancesTo f → Changes surroundings (.complete id) (top :: below) (none, f) (f :: below)
  | exit {id : LoopId} {top : Frame} {below : List Frame} : top.id = id →
    Changes surroundings (.exit id) (top :: below) (none, top) below
  | pop {top : Frame} {below : List Frame} :
    Changes surroundings .pop (top :: below) (none, top) below

/-- A command fails and leaves the stack, or succeeds and changes it at the top. -/
def IsAtomic (q : StackCommand σ) (cell : StackCell σ) : Prop :=
  (∃ e, (q.on cell).1 = .error e ∧ (q.on cell).2.stack = cell.stack) ∨
  ∃ answer, (q.on cell).1 = .ok answer ∧
    q.Changes cell.surroundings cell.stack.frames answer (q.on cell).2.stack.frames

theorem isAtomic_activate (cell : StackCell σ) (id : LoopId)
    (bound : ExceptT Fault (StateM σ) Bound) : (activate id bound).IsAtomic cell := by
  cases cell.stack.place id with
  | @onTop top below h =>
    obtain ⟨hs, hid⟩ := FrameStack.onTop?_eq_some_iff.1 h
    rw [IsAtomic, on_activate_onTop h, hs]
    exact .inr ⟨_, rfl, .reenter hid top.advancesTo_advance⟩
  | buried htop hholds =>
    rw [IsAtomic, on_activate_buried htop hholds]
    exact .inl ⟨_, rfl, rfl⟩
  | absent hholds =>
    rw [IsAtomic, on_activate_absent hholds]
    cases hb : bound.run.run cell.surroundings with
    | mk r surroundings =>
      cases r with
      | error e => exact .inl ⟨e, rfl, rfl⟩
      | ok b =>
        have hnew : ∀ g ∈ cell.stack.frames, g.id ≠ id := fun g hg hgid => hholds ⟨g, hg, hgid⟩
        have hfound : (bound.run.run cell.surroundings).1 = .ok b := by rw [hb]
        exact .inr ⟨_, rfl, .start hfound hnew rfl rfl (Frame.toNat_last_start id b)⟩

theorem isAtomic (q : StackCommand σ) (cell : StackCell σ) : q.IsAtomic cell := by
  cases q with
  | activate id bound => exact isAtomic_activate cell id bound
  | complete id =>
    rw [IsAtomic, on_complete]
    cases h : cell.stack.onTop? id with
    | none => exact .inl ⟨_, rfl, rfl⟩
    | some p =>
      obtain ⟨hs, hid⟩ := FrameStack.onTop?_eq_some_iff.1 h
      rw [hs]
      exact .inr ⟨_, rfl, .complete hid p.1.advancesTo_advance⟩
  | exit id =>
    rw [IsAtomic, on_exit]
    cases h : cell.stack.onTop? id with
    | none => exact .inl ⟨_, rfl, rfl⟩
    | some p =>
      obtain ⟨hs, hid⟩ := FrameStack.onTop?_eq_some_iff.1 h
      cases hn : p.1.hasNext with
      | true => exact .inl ⟨.prematureExit p.1, by simp [hn], by simp [hn]⟩
      | false =>
        rw [hs]
        exact .inr ⟨(none, p.1), by simp [hn], by simpa [hn] using .exit hid⟩
  | pop =>
    rw [IsAtomic, on_pop]
    cases hs : cell.stack.frames with
    | nil => exact .inl ⟨_, rfl, rfl⟩
    | cons top below => exact .inr ⟨_, rfl, .pop⟩

/-! ## Runs -/

/-- A change at the top lets no loop onto the stack a second time. -/
theorem Changes.nodup {q : StackCommand σ} {surroundings : σ} {frames frames' : List Frame}
    {answer : Option Activation × Frame} (h : q.Changes surroundings frames answer frames')
    (hnodup : (frames.map (·.id)).Nodup) : (frames'.map (·.id)).Nodup := by
  cases h with
  | start _ hnew hid =>
    refine List.nodup_cons.2 ⟨?_, hnodup⟩
    simpa [hid] using hnew
  | reenter _ hadvance => simpa [hadvance.id] using hnodup
  | complete _ hadvance => simpa [hadvance.id] using hnodup
  | exit => exact (List.nodup_cons.1 hnodup).2
  | pop => exact (List.nodup_cons.1 hnodup).2

theorem distinct_on (q : StackCommand σ) (h : cell.stack.Distinct) :
    (q.on cell).2.stack.Distinct := by
  rcases q.isAtomic cell with ⟨e, -, hstack⟩ | ⟨answer, -, hchanges⟩
  · rw [hstack]
    exact h
  · exact hchanges.nodup h

end StackCommand

namespace StackCell

variable {σ : Type}

/-- The cell after commands one after another. -/
def after (cell : StackCell σ) (qs : List (StackCommand σ)) : StackCell σ :=
  qs.foldl (fun c q => (q.on c).2) cell

/-- **Every run of commands keeps the loops of a stack distinct.** -/
theorem distinct_after {cell : StackCell σ} (h : cell.stack.Distinct)
    (qs : List (StackCommand σ)) : (cell.after qs).stack.Distinct := by
  induction qs generalizing cell with
  | nil => exact h
  | cons q qs ih => exact ih (q.distinct_on h)

open StackCommand

/-- The commands to the stack of a cell are atomic and local. -/
structure AtomicAndLocal (cell : StackCell σ) : Prop where
  /-- A command fails and leaves the stack as it is, or changes it at the top. -/
  atomic : ∀ q : StackCommand σ, q.IsAtomic cell
  /-- The bound is looked up once for a loop that is not on the stack, -/
  lookups_of_not_holds : ∀ id bound, ¬ cell.stack.Holds id →
    ((activate id bound).on cell).2.lookups = cell.lookups + 1
  /-- and not at all for one that is. -/
  lookups_of_holds : ∀ id bound, cell.stack.Holds id →
    ((activate id bound).on cell).2.lookups = cell.lookups ∧
      ((activate id bound).on cell).2.surroundings = cell.surroundings
  /-- Where it is looked up, a fault is that of the lookup, -/
  lookup_fault : ∀ id bound e, ¬ cell.stack.Holds id →
    (((activate id bound).on cell).1 = .error e ↔ (bound.run.run cell.surroundings).1 = .error e)
  /-- and where it is not, the engine is at fault exactly if the loop is buried. -/
  engine_fault_iff : ∀ id bound,
    (((activate id bound).on cell).2.lookups = cell.lookups ∧
      ∃ cause, ((activate id bound).on cell).1 = .error (.engineFault cause)) ↔
    cell.stack.Holds id ∧ ¬ cell.stack.IsOnTop id
  /-- To enter the head of the innermost loop is to complete its iteration. -/
  reentry : ∀ id bound, cell.stack.IsOnTop id → ∃ f after,
    (activate id bound).on cell = (.ok (some .reentered, f), after) ∧
      (complete id).on cell = (.ok (none, f), after)
  complete_iff : ∀ id, (∃ answer, ((complete id).on cell).1 = .ok answer) ↔ cell.stack.IsOnTop id
  /-- A loop is left exactly if it is innermost and in its last iteration or past it, -/
  exit_iff : ∀ id, (∃ answer, ((exit id).on cell).1 = .ok answer) ↔
    ∃ top, cell.stack.top? = some top ∧ top.id = id ∧ top.last.toNat ≤ top.current.toNat
  /-- and a frame is taken off wherever there is one. -/
  pop_iff : (∃ answer, (pop.on cell).1 = .ok answer) ↔ cell.stack.frames ≠ []

theorem atomicAndLocal (cell : StackCell σ) : cell.AtomicAndLocal where
  atomic q := q.isAtomic cell
  lookups_of_not_holds id bound h := by
    rw [on_activate_absent h]
    cases bound.run.run cell.surroundings with
    | mk r surroundings => cases r <;> rfl
  lookups_of_holds id bound h := by
    cases cell.stack.place id with
    | onTop htop => simp [on_activate_onTop htop]
    | buried htop hholds => simp [on_activate_buried htop hholds]
    | absent hholds => exact absurd h hholds
  lookup_fault id bound e h := by
    rw [on_activate_absent h]
    cases bound.run.run cell.surroundings with
    | mk r surroundings => cases r <;> simp
  engine_fault_iff id bound := by
    cases cell.stack.place id with
    | onTop h => simp [on_activate_onTop h, FrameStack.isOnTop_of_onTop? h]
    | buried htop hholds => simp [on_activate_buried htop hholds, htop, hholds]
    | absent hholds =>
      rw [on_activate_absent hholds]
      cases bound.run.run cell.surroundings with
      | mk r surroundings => cases r <;> simp [hholds]
  reentry id bound h := by
    obtain ⟨top, below, htop, -⟩ := FrameStack.exists_onTop? h
    exact ⟨_, _, on_activate_onTop htop, by rw [on_complete, htop]⟩
  complete_iff id := by
    rw [on_complete]
    cases h : cell.stack.onTop? id with
    | none => simp [FrameStack.onTop?_eq_none_iff.1 h]
    | some p => simp [FrameStack.isOnTop_of_onTop? h]
  exit_iff id := by
    rw [on_exit]
    cases h : cell.stack.onTop? id with
    | none =>
      have hnot := FrameStack.onTop?_eq_none_iff.1 h
      simp only [reduceCtorEq, exists_false, false_iff]
      rintro ⟨top, htop, hid, -⟩
      exact hnot ⟨top, htop, hid⟩
    | some p =>
      obtain ⟨hs, hid⟩ := FrameStack.onTop?_eq_some_iff.1 h
      have htop : cell.stack.top? = some p.1 := by rw [FrameStack.top?, hs]; rfl
      cases hn : p.1.hasNext with
      | true =>
        have hlt := Frame.hasNext_iff.1 hn
        simp [hn, htop, hid, hlt]
      | false =>
        have hle := Frame.hasNext_eq_false_iff.1 hn
        simp [hn, htop, hid, hle]
  pop_iff := by
    rw [on_pop]
    cases cell.stack.frames <;> simp

/-- **Commands are atomic and local, whatever the stack**, and every run of them from the empty
stack keeps its loops distinct, whatever the lookups find. -/
theorem commands_atomic_and_local {σ : Type} :
    (∀ cell : StackCell σ, cell.AtomicAndLocal) ∧
    ∀ (surroundings : σ) (qs : List (StackCommand σ)),
      ((⟨.empty, surroundings, 0⟩ : StackCell σ).after qs).stack.Distinct := by
  have hempty : FrameStack.empty.Distinct := List.nodup_nil
  exact ⟨atomicAndLocal, fun _ qs => distinct_after hempty qs⟩

-- A loop that was put on the stack twice is advanced where it is innermost.
example (bound : ExceptT Fault (StateM Unit) Bound) :
    (activate ⟨3⟩ bound).on ⟨⟨[⟨⟨3⟩, 1, 2⟩, ⟨⟨3⟩, 0, 4⟩]⟩, (), 0⟩ =
      (.ok (some .reentered, ⟨⟨3⟩, 2, 2⟩), ⟨⟨[⟨⟨3⟩, 2, 2⟩, ⟨⟨3⟩, 0, 4⟩]⟩, (), 0⟩) := rfl

end StackCell

end LoopProtocol
