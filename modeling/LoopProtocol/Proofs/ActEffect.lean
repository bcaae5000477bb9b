import LoopProtocol.Transition.Polling
import LoopProtocol.Transition.Iterator
import LoopProtocol.Transition.Callback

/-!
# What the steps of a transition do

Every transition is a chain of a few basic actions. Here is one equation for each of them: what it
answers and the whole instance after it, for every instance. All later facts about transitions are
read off these equations, and none of them opens an action again.
-/

namespace LoopProtocol

/-- The instance after a fault. The first fault aborts it and is written down; a later one changes
nothing. -/
def Instance.fail (x : Instance) (e : Fault) : Instance :=
  if x.aborted then x else { x with aborted := true, lines := x.lines.push (.aborted e) }

namespace Instance

variable (x : Instance) (e : Fault)

@[simp] theorem aborted_fail : (x.fail e).aborted = true := by unfold fail; split <;> simp_all

@[simp] theorem stack_fail : (x.fail e).stack = x.stack := by unfold fail; split <;> rfl

@[simp] theorem events_fail : (x.fail e).events = x.events := by unfold fail; split <;> rfl

@[simp] theorem guards_fail : (x.fail e).guards = x.guards := by unfold fail; split <;> rfl

@[simp] theorem sequences_fail : (x.fail e).sequences = x.sequences := by
  unfold fail; split <;> rfl

@[simp] theorem bounds_fail : (x.fail e).bounds = x.bounds := by unfold fail; split <;> rfl

@[simp] theorem id_fail : (x.fail e).id = x.id := by unfold fail; split <;> rfl

@[simp] theorem recorder_fail : (x.fail e).recorder = x.recorder := by unfold fail; split <;> rfl

variable {x}

theorem fail_of_aborted (h : x.aborted = true) : x.fail e = x := by simp [fail, h]

end Instance

namespace FrameStack

variable {s : FrameStack} {id : LoopId}

theorem eq_of_frames {frames : List Frame} (h : s.frames = frames) : s = ⟨frames⟩ := by
  cases s
  simpa using h

/-- A loop that is on top is not sought further down. -/
theorem contains_of_onTop? {p : Frame × List Frame} (h : s.onTop? id = some p) :
    s.contains id = true := by
  obtain ⟨top, below⟩ := p
  obtain ⟨hs, rfl⟩ := onTop?_eq_some_iff.1 h
  simp [contains, find?, hs]

theorem contains_eq_false_iff : s.contains id = false ↔ ∀ f ∈ s.frames, f.id ≠ id := by
  simp [contains, find?]

theorem onTop?_of_contains_eq_false (h : s.contains id = false) : s.onTop? id = none := by
  cases ht : s.onTop? id with
  | none => rfl
  | some p => rw [contains_of_onTop? ht] at h; cases h

/-- Entering a loop head, with the bound already looked up. -/
theorem activate_eq (s : FrameStack) (id : LoopId) (bound : Except Fault Bound) :
    s.activate id bound =
      match s.onTop? id with
      | some (top, below) => .ok ((.reentered, top.advance), ⟨top.advance :: below⟩)
      | none =>
        if s.contains id then .error (.engineFault (.buried id s))
        else bound.map fun b => ((.fresh, Frame.start id b), s.push id b) := by
  unfold activate
  cases s.onTop? id with
  | some p => rfl
  | none =>
    cases s.contains id with
    | true => rfl
    | false => cases bound <;> rfl

theorem activate_eq_ok {bound : Except Fault Bound} {a : Activation} {f : Frame} {s' : FrameStack}
    (h : s.activate id bound = .ok ((a, f), s')) :
    (∃ top below, s.frames = top :: below ∧ top.id = id ∧
      a = .reentered ∧ f = top.advance ∧ s' = ⟨top.advance :: below⟩) ∨
    (s.contains id = false ∧ ∃ b, bound = .ok b ∧
      a = .fresh ∧ f = Frame.start id b ∧ s' = s.push id b) := by
  rw [activate_eq] at h
  cases ht : s.onTop? id with
  | some p =>
    obtain ⟨hs, hid⟩ := onTop?_eq_some_iff.1 ht
    simp only [ht, Except.ok.injEq, Prod.mk.injEq] at h
    obtain ⟨⟨rfl, rfl⟩, rfl⟩ := h
    exact .inl ⟨p.1, p.2, hs, hid, rfl, rfl, rfl⟩
  | none =>
    cases hc : s.contains id
    · cases bound with
      | error e => simp [ht, hc, Except.map] at h
      | ok b =>
        simp only [ht, hc, Bool.false_eq_true, if_false, Except.map, Except.ok.injEq,
          Prod.mk.injEq] at h
        obtain ⟨⟨rfl, rfl⟩, rfl⟩ := h
        exact .inr ⟨rfl, b, rfl, rfl, rfl, rfl⟩
    · simp [ht, hc] at h

theorem complete_eq_ok {f : Frame} {s' : FrameStack} (h : s.complete id = .ok (f, s')) :
    ∃ top below, s.frames = top :: below ∧ top.id = id ∧
      f = top.advance ∧ s' = ⟨top.advance :: below⟩ := by
  unfold complete at h
  cases ht : s.onTop? id with
  | none => simp [ht] at h
  | some p =>
    obtain ⟨hs, hid⟩ := onTop?_eq_some_iff.1 ht
    simp only [ht, Except.ok.injEq, Prod.mk.injEq] at h
    exact ⟨p.1, p.2, hs, hid, h.1.symm, h.2.symm⟩

/-- A loop that is left has a frame to take off. -/
theorem exit_eq (s : FrameStack) (id : LoopId) :
    s.exit id = match s.onTop? id with
      | some (top, below) =>
        if top.hasNext then .error (.prematureExit top) else .ok (top, ⟨below⟩)
      | none => .error (.missingFrame id) := by
  unfold exit
  cases ht : s.onTop? id with
  | none => rfl
  | some p =>
    obtain ⟨hs, -⟩ := onTop?_eq_some_iff.1 ht
    simp only [pop, hs]

theorem exit_eq_ok {f : Frame} {s' : FrameStack} (h : s.exit id = .ok (f, s')) :
    ∃ top below, s.frames = top :: below ∧ top.id = id ∧ top.hasNext = false ∧
      f = top ∧ s' = ⟨below⟩ := by
  rw [exit_eq] at h
  cases ht : s.onTop? id with
  | none => simp [ht] at h
  | some p =>
    obtain ⟨hs, hid⟩ := onTop?_eq_some_iff.1 ht
    cases hn : p.1.hasNext
    · simp only [ht, hn, Bool.false_eq_true, if_false, Except.ok.injEq, Prod.mk.injEq] at h
      exact ⟨p.1, p.2, hs, hid, hn, h.1.symm, h.2.symm⟩
    · simp [ht, hn] at h

theorem onTop?_cons {top : Frame} {below : List Frame} (h : s.frames = top :: below) :
    s.onTop? top.id = some (top, below) := onTop?_eq_some_iff.2 ⟨h, rfl⟩

end FrameStack

namespace Act

variable {α : Type}

/-- A stack operation that fails aborts, or finds the instance aborted. -/
theorem on_onStack_fail (f : Instance → Except Fault (α × FrameStack)) (x : Instance) :
    (onStack f).on x =
      if x.aborted then (.error (.engineFault (.abortedEarlier x.id)), x)
      else
        match f x with
        | .ok (a, stack) => (.ok a, { x with stack })
        | .error e => (.error e, x.fail e) := by
  rw [on_onStack]
  cases h : x.aborted
  · cases hf : f x <;> simp [Instance.fail, h]
  · simp

theorem on_abort_fail (e : Fault) (x : Instance) : (abort e : Act α).on x = (.error e, x.fail e) :=
  on_abort e x

theorem on_consume (t : Token) (x : Instance) :
    t.consume.on x =
      if t.isConsumed x then
        (.error (.linearityViolation t.site.name), x.fail (.linearityViolation t.site.name))
      else
        (.ok (), { x with
          guards := x.guards.spend t.guard
          lines := x.lines.push (.consumed t.site.name t.site.role) }) := by
  unfold Token.consume
  cases h : t.isConsumed x <;> simp [on_bind, h, on_abort_fail]

/-- Entering a loop head on the three kinds of stack: with the loop on top, without it, and with
it buried. -/
theorem on_activate (id : LoopId) (param : String) (x : Instance) :
    (activate id param).on x =
      if x.aborted then (.error (.engineFault (.abortedEarlier x.id)), x)
      else
        match x.stack.onTop? id with
        | some (top, below) =>
          (.ok top.advance, { x with
            stack := ⟨top.advance :: below⟩
            lines := x.lines.push (.reentered top.advance) })
        | none =>
          if x.stack.contains id then
            (.error (.engineFault (.buried id x.stack)),
              x.fail (.engineFault (.buried id x.stack)))
          else
            match x.bounds.bound param with
            | .ok b =>
              (.ok (Frame.start id b), { x with
                stack := x.stack.push id b
                lines := x.lines.push (.activated id b.count)
                events := x.events.push (.activated id b.count) })
            | .error e => (.error e, x.fail e) := by
  unfold activate
  rw [on_bind, on_onStack_fail]
  cases ha : x.aborted
  · cases ht : x.stack.onTop? id with
    | some p => simp [FrameStack.activate_eq, ht, Except.map]
    | none =>
      cases hc : x.stack.contains id
      · cases x.bounds.bound param <;>
          simp [FrameStack.activate_eq, ht, hc, on_bind, Except.map]
      · simp [FrameStack.activate_eq, ht, hc]
  · simp

theorem on_complete (id : LoopId) (x : Instance) :
    (complete id).on x =
      if x.aborted then (.error (.engineFault (.abortedEarlier x.id)), x)
      else
        match x.stack.onTop? id with
        | some (top, below) =>
          (.ok top.advance, { x with
            stack := ⟨top.advance :: below⟩
            lines := x.lines.push (.completed top.advance) })
        | none => (.error (.missingFrame id), x.fail (.missingFrame id)) := by
  unfold complete
  rw [on_bind, on_onStack_fail]
  cases ha : x.aborted
  · cases ht : x.stack.onTop? id <;> simp [FrameStack.complete, ht, Except.map]
  · simp

theorem on_exit (id : LoopId) (x : Instance) :
    (exit id).on x =
      if x.aborted then (.error (.engineFault (.abortedEarlier x.id)), x)
      else
        match x.stack.onTop? id with
        | some (top, below) =>
          if top.hasNext then (.error (.prematureExit top), x.fail (.prematureExit top))
          else
            (.ok (), { x with
              stack := ⟨below⟩
              lines := x.lines.push (.exited top)
              events := x.events.push (.exited id) })
        | none => (.error (.missingFrame id), x.fail (.missingFrame id)) := by
  unfold exit
  rw [on_bind, on_onStack_fail]
  cases ha : x.aborted
  · cases ht : x.stack.onTop? id with
    | some p => cases hn : p.1.hasNext <;> simp [FrameStack.exit_eq, ht, hn, on_bind]
    | none => simp [FrameStack.exit_eq, ht]
  · simp

theorem on_ensureClosed (id : LoopId) (x : Instance) :
    (ensureClosed id).on x =
      if x.aborted then (.error (.engineFault (.abortedEarlier x.id)), x)
      else
        match x.stack.find? id with
        | some f => (.error (.prematureExit f), x.fail (.prematureExit f))
        | none => (.ok (), x) := by
  unfold ensureClosed
  rw [on_onStack_fail]
  cases x.stack.find? id <;> rfl

theorem on_terminate (x : Instance) :
    terminate.on x =
      if x.aborted then (.error (.engineFault (.abortedEarlier x.id)), x)
      else
        match x.stack.top? with
        | some f => (.error (.prematureExit f), x.fail (.prematureExit f))
        | none =>
          (.ok (), { x with
            lines := x.lines.push .terminated
            events := x.events.push .terminated }) := by
  unfold terminate
  rw [on_bind, on_onStack_fail]
  cases ha : x.aborted
  · cases ht : x.stack.top? <;> simp [on_bind]
  · simp

/-! ## The hand-off of a sequence -/

theorem on_openSequence (id : LoopId) (x : Instance) :
    (Iterator.openSequence id).on x =
      (.ok ⟨x.sequences.size, id⟩, { x with sequences := x.sequences.push .fresh }) := by
  simp [Iterator.openSequence, on_bind, Except.map]

/-- A body is handed over, or waits for the slot, or aborts the instance. -/
theorem on_handOver (s : SequenceId) (body : Token) (x : Instance) :
    (Iterator.handOver s body).on x =
      if (x.handOff s).isClosed then
        (.error (.handOffClosed s.loop), x.fail (.handOffClosed s.loop))
      else if (x.handOff s).queue.isEmpty then
        (.ok .delivered, { x.setHandOff s ((x.handOff s).offer body).2 with
          lines := x.lines.push (.handedOver s.loop) })
      else
        (.ok .waiting, { x.setHandOff s ((x.handOff s).offer body).2 with
          lines := x.lines.push (.waiting s.loop) }) := by
  unfold Iterator.handOver
  rw [on_bind, on_look]
  cases hc : (x.handOff s).isClosed
  · cases hq : (x.handOff s).queue.isEmpty <;>
      simp [HandOff.offer, hc, hq, on_bind, Instance.setHandOff, Except.map]
  · simp [HandOff.offer_of_isClosed hc, on_abort_fail]

theorem on_closeSequence (s : SequenceId) (x : Instance) :
    (Iterator.closeSequence s).on x =
      (.ok (), { x.setHandOff s (x.handOff s).close with
        lines := x.lines.push (.sequenceClosed s.loop) }) := by
  simp [Iterator.closeSequence, on_bind, Instance.setHandOff]

theorem on_take? (s : SequenceId) (x : Instance) :
    (Iterator.take? s).on x =
      match (x.handOff s).take? with
      | none => (.ok none, x)
      | some (t, h) =>
        (.ok (some t),
          if h.queue.isEmpty then x.setHandOff s h
          else { x.setHandOff s h with lines := x.lines.push (.handedOver s.loop) }) := by
  unfold Iterator.take?
  rw [on_bind, on_look]
  cases h : (x.handOff s).take? with
  | none => simp
  | some p => cases hq : p.2.queue.isEmpty <;> simp [on_bind, hq, Instance.setHandOff, Except.map]

theorem on_abandon (s : SequenceId) (x : Instance) :
    (Iterator.abandon s).on x =
      (.ok (),
        if (x.handOff s).waiting.isEmpty then x.setHandOff s (x.handOff s).abandon
        else (x.setHandOff s (x.handOff s).abandon).fail (.handOffClosed s.loop)) := by
  unfold Iterator.abandon
  rw [on_bind, on_look]
  cases hw : (x.handOff s).waiting.isEmpty <;>
    simp [on_bind, hw, on_markAborted, Instance.fail]

end Act

end LoopProtocol
