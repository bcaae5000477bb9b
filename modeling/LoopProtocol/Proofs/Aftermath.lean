import LoopProtocol.Proofs.FaultSource
import LoopProtocol.Proofs.Linearity
import LoopProtocol.Proofs.PollingHead

/-!
# What a failed transition leaves behind

A transition is several steps, and the ones before the step that fails are not taken back. Its state
is used up in any case. Beyond that only two failures find something changed already: an entry into
a polled loop that has had its last iteration comes after the frame was advanced past it, and a body
that its sequence refuses was reported before. Everything else fails at the first step that would
change the stack, and a step after it cannot fail: a loop past its last iteration is left without a
fault, and a sequence that was just opened takes its first body.
-/

namespace LoopProtocol

open Act

/-- `y` has the stack, the parameters, the events and the sequences that `x` had. -/
structure Instance.Untouched (x y : Instance) : Prop where
  stack : y.stack = x.stack
  bounds : y.bounds = x.bounds
  events : y.events = x.events
  sequences : y.sequences = x.sequences

namespace Instance.Untouched

variable {x y : Instance}

theorem refl (x : Instance) : x.Untouched x := ⟨rfl, rfl, rfl, rfl⟩

theorem spend (h : x.Untouched y) (t : Token) : x.Untouched (y.spend t) :=
  ⟨h.stack, h.bounds, h.events, h.sequences⟩

theorem fail (h : x.Untouched y) (e : Fault) : x.Untouched (y.fail e) where
  stack := (y.stack_fail e).trans h.stack
  bounds := (y.bounds_fail e).trans h.bounds
  events := (y.events_fail e).trans h.events
  sequences := (y.sequences_fail e).trans h.sequences

end Instance.Untouched

namespace Call

/-- Whether a call that fails so has advanced a frame before. -/
def advancesBefore : Call → Fault → Bool
  | enter _ _, .boundsExceeded _ | endIteration _ _ _, .handOffClosed _ => true
  | _, _ => false

/-- The stack that a failed call leaves on `x`, and the events that it reported. -/
inductive Leaves (x : Instance) : Call → Fault → FrameStack → Array Event → Prop where
  | same {c : Call} {e : Fault} : c.advancesBefore e = false → Leaves x c e x.stack #[]
  /-- A polled loop is past its last iteration now. -/
  | exhausted {shape : LoopShape} {t : Token} {top : Frame} {below : List Frame} :
    x.aborted = false → x.stack.onTop? shape.head.id = some (top, below) →
    top.advance.canEnter = false →
    Leaves x (enter shape t) (.boundsExceeded top.advance) ⟨top.advance :: below⟩ #[]
  /-- An iteration was reported whose body came nowhere. -/
  | lost {t : Token} {q : SequenceId} {body : Site} {top : Frame} {below : List Frame} :
    x.aborted = false → x.stack.onTop? q.loop = some (top, below) →
    top.advance.canEnter = true →
    Leaves x (endIteration t q body) (.handOffClosed q.loop) ⟨top.advance :: below⟩
      #[.iteration q.loop top.advance.current]

/-- `y` is what a failed call leaves of `x`. No body has come into a sequence. -/
structure LeavesBehind (x : Instance) (c : Call) (e : Fault) (y : Instance) : Prop where
  bounds : y.bounds = x.bounds
  queue : ∀ q, (y.handOff q).queue <:+ (x.handOff q).queue
  reports : ∃ es, y.events = x.events ++ es ∧ Leaves x c e y.stack es

variable {x y z : Instance} {c : Call} {e : Fault}

theorem leaves_of_untouched (h : x.Untouched y)
    (hc : c.advancesBefore e = false) : LeavesBehind x c e y where
  bounds := h.bounds
  queue q := Instance.handOff_of_sequences h.sequences q ▸ List.suffix_rfl
  reports := ⟨#[], by simp [h.events], h.stack ▸ .same hc⟩

/-- Bodies may leave their sequences after a failure. -/
theorem LeavesBehind.drained (h : LeavesBehind x c e y) (hd : y.Drained z) :
    LeavesBehind x c e z where
  bounds := hd.bounds.trans h.bounds
  queue q := (hd.queue q).trans (h.queue q)
  reports := by
    obtain ⟨es, hes, hleaves⟩ := h.reports
    exact ⟨es, hd.events.trans hes, hd.stack ▸ hleaves⟩

/-! ## Call by call -/

variable {t : Token} {shape : LoopShape} {q : SequenceId} {f : Frame} {below : List Frame}

/-- What every state allows fails before it changes anything. -/
theorem leaves_use (hc : ∀ e, c.advancesBefore e = false) (t : Token) (u : Use) :
    (u.act t).Ends x (fun _ _ => True) (LeavesBehind x c) := by
  have hfail {y : Instance} (hy : x.Untouched y) (e : Fault) : LeavesBehind x c e (y.fail e) :=
    leaves_of_untouched (hy.fail e) (hc e)
  have hfirst := hfail (.refl x)
  have hthen := hfail ((Instance.Untouched.refl x).spend t)
  cases u with
  | consume => exact ends_consume hfirst fun _ => trivial
  | send label => exact Ends.bind (ends_consume hfirst fun _ => ends_accept trivial)
  | sendAfter id label =>
    refine Ends.bind (ends_consume hfirst fun _ => Ends.bind ?_)
    exact ends_ensureClosed hthen fun _ _ => ends_accept trivial
  | terminate =>
    exact Ends.bind (ends_consume hfirst fun _ => ends_terminate hthen fun _ _ => trivial)
  | terminateAfter id =>
    refine Ends.bind (ends_consume hfirst fun _ => Ends.bind ?_)
    exact ends_ensureClosed hthen fun _ _ => ends_terminate hthen fun _ _ => trivial

theorem leaves_send (t : Token) (point : SendPoint) :
    (t.sendAt point).Ends x (fun _ _ => True) (LeavesBehind x (send t point)) := by
  have huse (u : Use) := leaves_use (x := x) (c := send t point) (fun _ => rfl) t u
  unfold Token.sendAt
  cases point.closes with
  | none => exact (huse (.send point.label)).andThen fun _ _ _ => ends_issue trivial
  | some id => exact (huse (.sendAfter id point.label)).andThen fun _ _ _ => ends_issue trivial

theorem leaves_finish (t : Token) (closes : Option LoopId) :
    (t.finish closes).Ends x (fun _ _ => True) (LeavesBehind x (finish t closes)) := by
  have huse (u : Use) := leaves_use (x := x) (c := finish t closes) (fun _ => rfl) t u
  cases closes with
  | none => exact huse .terminate
  | some id => exact huse (.terminateAfter id)

theorem leaves_exit (shape : LoopShape) (t : Token) :
    (Polling.exit shape t).Ends x (fun _ _ => True) (LeavesBehind x (exit shape t)) := by
  have hused := (Instance.Untouched.refl x).spend t
  refine Ends.bind (ends_consume (fun e => ?_) fun _ => Ends.bind ?_)
  · exact leaves_of_untouched ((Instance.Untouched.refl x).fail e) rfl
  · refine Act.ends_exit (fun e => ?_) fun _ _ _ _ _ _ => ends_issue trivial
    exact leaves_of_untouched (hused.fail e) rfl

/-- The use of a state can fail only because it was used. -/
theorem leaves_consume (hc : ∀ point, c.advancesBefore (.linearityViolation point) = false)
    {α : Type} {rest : Unit → Act α}
    (hrest : (rest ()).Ends (x.spend t) (fun _ _ => True) (LeavesBehind x c)) :
    (t.consume >>= rest).Ends x (fun _ _ => True) (LeavesBehind x c) := by
  refine Ends.bind (ends_consume_either (fun _ => ?_) fun _ => hrest)
  exact leaves_of_untouched ((Instance.Untouched.refl x).fail _) (hc _)

/-- A head that cannot be entered has changed nothing, and a loop that was just started cannot
fail. -/
theorem leaves_activate {head : LoopHead} {α : Type} {rest : Frame → Act α}
    (hc : ∀ e, (∃ cause, e = .engineFault cause) ∨ x.bounds.bound head.param = .error e →
      c.advancesBefore e = false)
    (hfresh : ∀ f below y, y.aborted = false → y.stack.onTop? head.id = some (f, below) →
      f.canEnter = true → (rest f).Ends y (fun _ _ => True) fun _ _ => False)
    (hreentered : ∀ top below, x.aborted = false → x.stack.onTop? head.id = some (top, below) →
      (rest top.advance).Ends { x.spend t with
        stack := ⟨top.advance :: below⟩
        lines := (x.spend t).lines.push (.reentered top.advance) } (fun _ _ => True)
        (LeavesBehind x c)) :
    (Act.activate head.id head.param >>= rest).Ends (x.spend t) (fun _ _ => True)
      (LeavesBehind x c) := by
  have hused := (Instance.Untouched.refl x).spend t
  refine Ends.bind (ends_activate_either (fun _ => ?_) (fun _ _ _ => ?_) (fun e _ _ hb => ?_)
    hreentered fun b ha _ _ => ?_)
  · exact leaves_of_untouched hused (hc _ (.inl ⟨_, rfl⟩))
  · exact leaves_of_untouched (hused.fail _) (hc _ (.inl ⟨_, rfl⟩))
  · exact leaves_of_untouched (hused.fail _) (hc e (.inr hb))
  · let y : Instance := { x.spend t with
      stack := x.stack.push head.id b
      lines := (x.spend t).lines.push (.activated head.id b.count)
      events := x.events.push (.activated head.id b.count) }
    have hon : y.stack.onTop? head.id = some (Frame.start head.id b, x.stack.frames) :=
      FrameStack.onTop?_eq_some_iff.2 ⟨rfl, rfl⟩
    have hends := hfresh _ _ y ha hon (Frame.canEnter_start head.id b)
    exact hends.mono (fun _ _ hQ => hQ) fun _ _ he => he.elim

theorem leaves_enter (shape : LoopShape) (t : Token) :
    (Polling.enter shape t).Ends x (fun _ _ => True) (LeavesBehind x (enter shape t)) := by
  refine leaves_consume (fun _ => rfl) (leaves_activate (fun e he => ?_) ?_ ?_)
  · rcases he with ⟨cause, rfl⟩ | hb
    · rfl
    · rcases BoundTable.bound_error hb with rfl | ⟨count, rfl⟩ <;> rfl
  · intro f below y _ _ hf
    rw [hf]
    exact Ends.bind (ends_iteration (ends_issue trivial))
  · intro top below hrun htop
    cases hf : top.advance.canEnter with
    | true => exact Ends.bind (ends_iteration (ends_issue trivial))
    | false =>
      refine ends_abort ⟨?_, fun q => ?_, #[], ?_, ?_⟩
      · exact Instance.bounds_fail _ _
      · rw [Instance.handOff, Instance.sequences_fail]
        exact List.suffix_rfl
      · simp [Instance.spend]
      · rw [Instance.stack_fail]
        exact .exhausted hrun htop hf

/-- A loop by iteration or callback goes on without a fault once its head is entered. -/
theorem leaves_activate_only {head : LoopHead} {α : Type} {rest : Frame → Act α}
    (hc : ∀ e, c.advancesBefore e = false)
    (hrest : ∀ f below y, y.aborted = false → y.stack.onTop? head.id = some (f, below) →
      (rest f).Ends y (fun _ _ => True) fun _ _ => False) :
    (Act.activate head.id head.param >>= rest).Ends (x.spend t) (fun _ _ => True)
      (LeavesBehind x c) := by
  refine leaves_activate (fun e _ => hc e) (fun f below y hrun htop _ => hrest f below y hrun htop)
    fun top below hrun htop => ?_
  obtain ⟨-, hid⟩ := FrameStack.onTop?_eq_some_iff.1 htop
  let y : Instance := { x.spend t with
    stack := ⟨top.advance :: below⟩
    lines := (x.spend t).lines.push (.reentered top.advance) }
  have hon : y.stack.onTop? head.id = some (top.advance, below) :=
    FrameStack.onTop?_eq_some_iff.2 ⟨rfl, hid⟩
  exact (hrest _ _ y hrun hon).mono (fun _ _ hQ => hQ) fun _ _ he => he.elim

theorem leaves_iterate (shape : LoopShape) (t : Token) :
    (Iterator.enter shape t).Ends x (fun _ _ => True) (LeavesBehind x (iterate shape t)) :=
  leaves_consume (fun _ => rfl) (leaves_activate_only (fun _ => rfl) fun _ _ _ hrun htop =>
    ends_opened hrun htop)

theorem leaves_begin (shape : LoopShape) (t : Token) :
    (Callback.begin shape t).Ends x (fun _ _ => True) (LeavesBehind x (begin shape t)) :=
  leaves_consume (fun _ => rfl) (leaves_activate_only (fun _ => rfl) fun _ _ _ hrun htop =>
    ends_callbackTurn hrun htop)

/-- A body that is refused is handed over to nobody, and neither is one that waits until the
consumer leaves. -/
theorem leaves_handOver (hy : LeavesBehind x c (.handOffClosed q.loop) y) (body : Token) :
    (Iterator.handOver q body).Ends y
      (fun _ z => LeavesBehind x c (.handOffClosed q.loop)
        (z.setHandOff q (z.handOff q).abandon))
      (LeavesBehind x c) := by
  have hlost (p : HandOff Token) (lines : Array LogLine) :
      let z : Instance := { y.setHandOff q p with lines }
      LeavesBehind x c (.handOffClosed q.loop) (z.setHandOff q (z.handOff q).abandon) := by
    intro z
    have hset : z.setHandOff q (z.handOff q).abandon =
        { y.setHandOff q (z.handOff q).abandon with lines } := by simp [z, Instance.setHandOff]
    rw [hset]
    exact hy.drained (((Instance.Drained.refl y).setHandOff List.nil_suffix).withLines lines)
  unfold Ends
  rw [on_handOver]
  cases (y.handOff q).isClosed with
  | true => exact hy.drained ((Instance.Drained.refl y).fail _)
  | false => cases (y.handOff q).queue.isEmpty <;> exact hlost _ _

/-- The end of an iteration that fails, and one that waits until its consumer leaves. -/
theorem leaves_endIteration (t : Token) (q : SequenceId) (body : Site) :
    (Iterator.endIteration t q body).Ends x
      (fun progress y => progress = .waiting → LeavesBehind x (endIteration t q body)
        (.handOffClosed q.loop) (y.setHandOff q (y.handOff q).abandon))
      (LeavesBehind x (endIteration t q body)) := by
  have hused := (Instance.Untouched.refl x).spend t
  refine Ends.bind (ends_consume_either (fun _ => ?_) fun _ => Ends.bind ?_)
  · exact leaves_of_untouched ((Instance.Untouched.refl x).fail _) rfl
  refine ends_complete_either (fun _ => ?_) (fun _ _ => ?_) fun top below hrun htop => ?_
  · exact leaves_of_untouched hused rfl
  · exact leaves_of_untouched (hused.fail _) rfl
  obtain ⟨-, hid⟩ := FrameStack.onTop?_eq_some_iff.1 htop
  unfold Iterator.turn
  cases hf : top.advance.canEnter with
  | false =>
    refine Ends.bind (ends_exit_top hrun rfl hid (hasNext_of_canEnter hf) ?_)
    exact Ends.bind (ends_closeSequence (ends_pure nofun))
  | true =>
    have hlost (z : Instance) (hbounds : z.bounds = x.bounds) (hseq : z.sequences = x.sequences)
        (hstack : z.stack = ⟨top.advance :: below⟩)
        (hevents : z.events = x.events.push (.iteration top.advance.id top.advance.current)) :
        LeavesBehind x (endIteration t q body) (.handOffClosed q.loop) z := by
      refine ⟨hbounds, fun q' => ?_, #[.iteration q.loop top.advance.current], ?_, ?_⟩
      · exact Instance.handOff_of_sequences hseq q' ▸ List.suffix_rfl
      · rw [hevents, Frame.id_advance, hid]
        rfl
      · rw [hstack]
        exact .lost hrun htop hf
    refine Ends.bind (ends_iteration (Ends.bind (ends_issue ?_)))
    refine Ends.mono (leaves_handOver ?_ _) (fun _ _ h _ => h) fun _ _ he => he
    exact hlost _ rfl rfl rfl rfl

/-- **What a failed transition leaves of its instance.** -/
theorem leavesBehind (huses : c.uses = some t) (he : (c.act.on x).1 = .error e) :
    LeavesBehind x c e (c.act.on x).2 := by
  have hends : c.act.Ends x (fun _ _ => True) (LeavesBehind x c) := by
    cases c with
    | use t u => exact Ends.map (leaves_use (fun _ => rfl) t u)
    | send t point => exact Ends.map (leaves_send t point)
    | finish t closes => exact Ends.map (leaves_finish t closes)
    | enter shape t => exact Ends.map (leaves_enter shape t)
    | exit shape t => exact Ends.map (leaves_exit shape t)
    | iterate shape t => exact Ends.map (leaves_iterate shape t)
    | endIteration t q body =>
      exact Ends.map ((leaves_endIteration t q body).mono (fun _ _ _ => trivial) fun _ _ h => h)
    | begin shape t => exact Ends.map (leaves_begin shape t)
    | giveBack t => exact Ends.map (leaves_use (fun _ => rfl) t .consume)
    | _ => cases huses
  exact hends.of_error he

end Call

namespace Session

open SessionM

variable {s : Session} {m : Move} {h : Handle} {c : Call} {e : Fault} {x : Instance}

/-- What the move that failed so leaves of the instance `x` of its state, which is `y` then. -/
structure LeftBehind (s : Session) (m : Move) (h : Handle) (c : Call) (e : Fault)
    (x y : Instance) : Prop where
  before : s.world.instance? h.owner = some x
  after : (s.after [m]).world.instance? h.owner = some y
  bounds : y.bounds = x.bounds
  /-- No body comes into a sequence. -/
  queue : ∀ q, (y.handOff q).queue <:+ (x.handOff q).queue
  used : h.token.isConsumed y = true
  /-- But for two faults nothing else has changed. -/
  unchanged : c.advancesBefore e = false →
    y.stack = x.stack ∧ y.events = x.events ∧ (s.after [m]).world.recorders = s.world.recorders
  /-- An entry into a polled loop after its last iteration moves the frame past it. -/
  exhausted : ∀ shape t f, c = .enter shape t → e = .boundsExceeded f → ∃ top below,
    x.stack.frames = top :: below ∧ top.id = shape.head.id ∧ top.current = top.last ∧
      f = top.advance ∧ f.current.toNat = top.last.toNat + 1 ∧ y.stack.frames = f :: below ∧
      y.events = x.events ∧ (s.after [m]).world.recorders = s.world.recorders
  /-- An end whose next body comes nowhere moves the frame to the next iteration and reports it. -/
  lost : ∀ t q body id, c = .endIteration t q body → e = .handOffClosed id → ∃ top below,
    x.stack.frames = top :: below ∧ top.id = q.loop ∧ id = q.loop ∧
      top.current.toNat < top.last.toNat ∧
      top.advance.current.toNat = top.current.toNat + 1 ∧ y.stack.frames = top.advance :: below ∧
      y.events = x.events.push (.iteration q.loop top.advance.current) ∧
      (s.after [m]).world.recorders = x.recorder.elim s.world.recorders
        (s.world.recorders.hear · #[.iteration q.loop top.advance.current])

/-- A sequence that is given up, and the abort of its instance if a producer waits. -/
theorem drained_abandon (x : Instance) (q : SequenceId) :
    (x.setHandOff q (x.handOff q).abandon).Drained ((Call.abandon q).act.on x).2 := by
  rw [Call.act, on_map, on_abandon]
  dsimp only
  split
  · exact .refl _
  · exact (Instance.Drained.refl _).fail _

/-- What comes of the instance and of the recorders when the call is refused, or waits and loses its
consumer. -/
theorem leavesBehind_after (hattempt : s.attempt? m = some (h, c))
    (hreturn : ∀ name, m ≠ .returnState name)
    (hown : ∀ source sequence q, m = .act (.finishDropping source sequence) →
      h.token.feed = some q → s.sequenceIn? sequence = some (h.owner, q))
    (hx : s.world.instance? h.owner = some x) (he : (s.reply m).fault? = some e) :
    ∃ y, (s.after [m]).world.instance? h.owner = some y ∧ Call.LeavesBehind x c e y ∧
      ∀ es, y.events = x.events ++ es → (s.after [m]).world.recorders =
        x.recorder.elim s.world.recorders (s.world.recorders.hear · es) := by
  have huses := uses_of_attempt? hattempt
  have hz := World.instance?_on_self hx c.act
  cases hr : (s.world.on h.owner c.act).1 with
  | error fault =>
    obtain ⟨hfault, hsteps⟩ := (opens_attempt hattempt).refused fault hr
    obtain rfl : e = fault := Option.some.inj (he.symm.trans hfault)
    obtain ⟨y, hy, hdrained⟩ := hsteps.related Instance.Drained.refl Instance.Drained.trans
      (fun _ x hc => Call.drained hc x) hz
    rw [World.on_eq hx] at hr
    refine ⟨y, hy, (Call.leavesBehind huses hr).drained hdrained, fun es hes => ?_⟩
    refine hsteps.recorders_of_drains.trans (World.recorders_call hx ?_)
    rw [← hdrained.events, hes]
  | ok grant =>
    cases hgoes : m.goesOn with
    | false =>
      have hnone := (opens_attempt hattempt).accepted hgoes grant hr
      unfold reply at he
      rw [hnone] at he
      cases he
    | true =>
      match m, hgoes with
      | .returnState name, _ => exact absurd rfl (hreturn name)
      | .act (.finishDropping source sequence), _ =>
        obtain ⟨q, body, rfl, rfl, hv, hworld⟩ :=
          waits_of_dropping hattempt (fun q => hown source sequence q rfl) hr he
        rw [World.on_eq hx] at hv
        have hwaits := (Call.leaves_endIteration h.token q body).of_ok hv rfl
        have hsame : ((Call.endIteration h.token q body).act.on x).2 =
            ((Iterator.endIteration h.token q body).on x).2 := by rw [Call.act, on_map]
        rw [← hsame] at hwaits
        refine ⟨_, hworld ▸ World.instance?_on_self hz _, hwaits.drained (drained_abandon _ q), ?_⟩
        intro es hes
        rw [hworld, World.recorders_on fun z _ =>
          (Call.drained (i := h.owner) (c := .abandon q) trivial z).events]
        refine World.recorders_call hx ?_
        rw [← hes, (Call.drained (i := h.owner) (c := .abandon q) trivial _).events]

variable {recorders : Nat} {instances : List (BoundTable × Option RecorderId)} {moves : List Move}

/-- **A failed transition changes its instance in two ways only**, whatever the session did before,
besides the use of its state. An end that waits for a dropped sequence fails if the sequence is the
one that it feeds. -/
theorem left_after_fault (hreached : s = (start recorders instances).after moves)
    (hattempt : s.attempt? m = some (h, c)) (hreturn : ∀ name, m ≠ .returnState name)
    (hown : ∀ source sequence q, m = .act (.finishDropping source sequence) →
      h.token.feed = some q → s.sequenceIn? sequence = some (h.owner, q))
    (he : (s.reply m).fault? = some e) : ∃ x y, s.LeftBehind m h c e x y := by
  have hs : s.Issued := by
    rw [hreached]
    exact issued_after recorders instances moves
  obtain ⟨name, -, hget, -⟩ := attempt?_eq_some_iff.1 hattempt
  obtain ⟨x, hx, -⟩ := hs.vars name h hget
  have hfaithful : Faithful x := by
    rw [hreached] at hx
    exact faithful_after hx
  obtain ⟨y, hy, hleft, hheard⟩ := leavesBehind_after hattempt hreturn hown hx he
  obtain ⟨y', hy', -, hused⟩ := used_after_attempt hs hattempt
  obtain rfl : y = y' := Option.some.inj (hy.symm.trans hy')
  obtain ⟨es, hes, hleaves⟩ := hleft.reports
  have hrecorders := hheard es hes
  have hquiet (hnone : es = #[]) :
      y.events = x.events ∧ (s.after [m]).world.recorders = s.world.recorders := by
    subst hnone
    refine ⟨by simpa using hes, hrecorders.trans ?_⟩
    cases x.recorder with
    | none => rfl
    | some r => exact Recorders.hear_nothing _ r
  refine ⟨x, y, hx, hy, hleft.bounds, hleft.queue, hused, ?_, ?_, ?_⟩
  · intro hadvances
    generalize hstack : y.stack = stack at hleaves
    cases hleaves with
    | same => exact ⟨rfl, hquiet rfl⟩
    | exhausted | lost => cases hadvances
  · rintro shape t f rfl rfl
    generalize hstack : y.stack = stack at hleaves
    cases hleaves with
    | same hnot => cases hnot
    | @exhausted _ _ top below hrun htop hcan =>
      obtain ⟨hframes, hid⟩ := FrameStack.onTop?_eq_some_iff.1 htop
      obtain ⟨hle, hlimit⟩ := hfaithful.current_le hrun (f := top) (by simp [hframes])
      have hnext := Frame.toNat_current_advance hle hlimit
      have hlast : top.current = top.last := by
        have hout : ¬top.advance.current.toNat ≤ top.advance.last.toNat := by
          rw [← Frame.canEnter_iff, hcan]
          exact Bool.false_ne_true
        rw [hnext, Frame.last_advance] at hout
        exact UInt64.toNat_inj.1 (by omega)
      exact ⟨top, below, hframes, hid, hlast, rfl, hlast ▸ hnext, rfl, hquiet rfl⟩
  · rintro t q body id rfl rfl
    generalize hstack : y.stack = stack at hleaves
    cases hleaves with
    | same hnot => cases hnot
    | @lost _ _ _ top below hrun htop hcan =>
      obtain ⟨hframes, hid⟩ := FrameStack.onTop?_eq_some_iff.1 htop
      obtain ⟨hle, hlimit⟩ := hfaithful.current_le hrun (f := top) (by simp [hframes])
      have hnext := Frame.toNat_current_advance hle hlimit
      have hmore : top.current.toNat < top.last.toNat := by
        have hin := Frame.canEnter_iff.1 hcan
        rw [hnext, Frame.last_advance] at hin
        omega
      exact ⟨top, below, hframes, hid, rfl, hmore, hnext, rfl, hes, hrecorders⟩

/-- A head of a loop with one iteration is issued and entered twice. -/
theorem left_after_second_entry :
    let head : Site := .free ⟨"Loop", ⟨7⟩, "k"⟩
    let s := (start 1 [(BoundTable.ofList [("k", 1)], some ⟨0⟩)]).after
      [.act (.issue head ⟨0⟩ "a"), .act (.enter ⟨"a", false⟩ (some .polling) "body" "unused"),
        .act (.issue head ⟨0⟩ "b")]
    let m : Move := .act (.enter ⟨"b", false⟩ (some .polling) "body" "unused")
    (s.reply m).fault? = some (.boundsExceeded ⟨⟨7⟩, 1, 0⟩) ∧ ∃ h c x y,
      s.attempt? m = some (h, c) ∧ s.LeftBehind m h c (.boundsExceeded ⟨⟨7⟩, 1, 0⟩) x y := by
  intro head s m
  have he : (s.reply m).fault? = some (.boundsExceeded ⟨⟨7⟩, 1, 0⟩) := by decide +kernel
  obtain ⟨⟨h, c⟩, hattempt⟩ : ∃ p, s.attempt? m = some p := ⟨_, rfl⟩
  obtain ⟨x, y, hleft⟩ := left_after_fault rfl hattempt (by simp [m]) (by simp [m]) he
  exact ⟨he, h, c, x, y, hattempt, hleft⟩

end Session

end LoopProtocol
