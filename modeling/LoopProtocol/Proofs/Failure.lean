import LoopProtocol.Proofs.Call
import LoopProtocol.Proofs.Success

/-!
# Why calls fail

The program logic asks of a fault only that it leaves `x.fail e` behind. Here each action that can
fail tells which fault it answers and why, and from that each call: it found its state used, or its
instance aborted, or an `Obstacle` on the stack, in the bounds or in the sequence that it hands a
body over to. Two steps of a call cannot fail: a loop that was advanced past its last iteration is
left without a fault, and a fresh sequence takes its first body.
-/

namespace LoopProtocol

/-! ## The basic actions -/

namespace Act

variable {α : Type} {x : Instance} {E : Fault → Instance → Prop}

theorem ends_consume_either {t : Token} {Q : Unit → Instance → Prop}
    (hused : t.isConsumed x = true →
      E (.linearityViolation t.site.name) (x.fail (.linearityViolation t.site.name)))
    (hQ : t.isConsumed x = false → Q () (x.spend t)) : t.consume.Ends x Q E := by
  unfold Ends
  rw [on_consume]
  cases h : t.isConsumed x with
  | true => exact hused h
  | false => exact hQ h

/-- An action that an abort stops, and how it ends on an instance that runs. -/
theorem ends_unless_aborted {a : Act α} {Q : α → Instance → Prop} {q : Except Fault α × Instance}
    (haborted : x.aborted = true → E (.engineFault (.abortedEarlier x.id)) x)
    (hruns : x.aborted = false →
      match q with
      | (.ok v, y) => Q v y
      | (.error e, y) => E e y)
    (hon : a.on x = if x.aborted then (.error (.engineFault (.abortedEarlier x.id)), x) else q) :
    a.Ends x Q E := by
  unfold Ends
  rw [hon]
  cases ha : x.aborted with
  | true => exact haborted ha
  | false => exact hruns ha

theorem ends_activate_either {id : LoopId} {param : String} {Q : Frame → Instance → Prop}
    (haborted : x.aborted = true → E (.engineFault (.abortedEarlier x.id)) x)
    (hburied : x.aborted = false → x.stack.onTop? id = none → x.stack.contains id = true →
      E (.engineFault (.buried id x.stack)) (x.fail (.engineFault (.buried id x.stack))))
    (hunbounded : ∀ e, x.aborted = false → x.stack.contains id = false →
      x.bounds.bound param = .error e → E e (x.fail e))
    (hreentered : ∀ top below, x.aborted = false → x.stack.onTop? id = some (top, below) →
      Q top.advance { x with
        stack := ⟨top.advance :: below⟩
        lines := x.lines.push (.reentered top.advance) })
    (hfresh : ∀ b, x.aborted = false → x.stack.contains id = false →
      x.bounds.bound param = .ok b →
      Q (Frame.start id b) { x with
        stack := x.stack.push id b
        lines := x.lines.push (.activated id b.count)
        events := x.events.push (.activated id b.count) }) :
    (activate id param).Ends x Q E := by
  refine ends_unless_aborted haborted (fun ha => ?_) (on_activate id param x)
  cases ht : x.stack.onTop? id with
  | some p => exact hreentered p.1 p.2 ha ht
  | none =>
    cases hc : x.stack.contains id with
    | true => exact hburied ha ht hc
    | false =>
      cases hb : x.bounds.bound param with
      | ok b => exact hfresh b ha hc hb
      | error e => exact hunbounded e ha hc hb

theorem ends_complete_either {id : LoopId} {Q : Frame → Instance → Prop}
    (haborted : x.aborted = true → E (.engineFault (.abortedEarlier x.id)) x)
    (hmissing : x.aborted = false → x.stack.onTop? id = none →
      E (.missingFrame id) (x.fail (.missingFrame id)))
    (hQ : ∀ top below, x.aborted = false → x.stack.onTop? id = some (top, below) →
      Q top.advance { x with
        stack := ⟨top.advance :: below⟩
        lines := x.lines.push (.completed top.advance) }) :
    (complete id).Ends x Q E := by
  refine ends_unless_aborted haborted (fun ha => ?_) (on_complete id x)
  cases ht : x.stack.onTop? id with
  | some p => exact hQ p.1 p.2 ha ht
  | none => exact hmissing ha ht

theorem ends_exit_either {id : LoopId} {Q : Unit → Instance → Prop}
    (haborted : x.aborted = true → E (.engineFault (.abortedEarlier x.id)) x)
    (hmissing : x.aborted = false → x.stack.onTop? id = none →
      E (.missingFrame id) (x.fail (.missingFrame id)))
    (hearly : ∀ top below, x.aborted = false → x.stack.onTop? id = some (top, below) →
      top.hasNext = true → E (.prematureExit top) (x.fail (.prematureExit top)))
    (hQ : ∀ top below, x.aborted = false → x.stack.onTop? id = some (top, below) →
      top.hasNext = false →
      Q () { x with
        stack := ⟨below⟩
        lines := x.lines.push (.exited top)
        events := x.events.push (.exited id) }) :
    (exit id).Ends x Q E := by
  refine ends_unless_aborted haborted (fun ha => ?_) (on_exit id x)
  cases ht : x.stack.onTop? id with
  | none => exact hmissing ha ht
  | some p =>
    cases hn : p.1.hasNext with
    | true =>
      simp only [hn, if_true]
      exact hearly p.1 p.2 ha ht hn
    | false =>
      simp only [hn, Bool.false_eq_true, if_false]
      exact hQ p.1 p.2 ha ht hn

theorem ends_ensureClosed_either {id : LoopId} {Q : Unit → Instance → Prop}
    (haborted : x.aborted = true → E (.engineFault (.abortedEarlier x.id)) x)
    (hopen : ∀ f, x.aborted = false → x.stack.find? id = some f →
      E (.prematureExit f) (x.fail (.prematureExit f)))
    (hQ : x.aborted = false → x.stack.contains id = false → Q () x) :
    (ensureClosed id).Ends x Q E := by
  refine ends_unless_aborted haborted (fun ha => ?_) (on_ensureClosed id x)
  cases hf : x.stack.find? id with
  | some f => exact hopen f ha hf
  | none => exact hQ ha (by simp [FrameStack.contains, hf])

theorem ends_terminate_either {Q : Unit → Instance → Prop}
    (haborted : x.aborted = true → E (.engineFault (.abortedEarlier x.id)) x)
    (hopen : ∀ f, x.aborted = false → x.stack.top? = some f →
      E (.prematureExit f) (x.fail (.prematureExit f)))
    (hQ : x.aborted = false → x.stack.top? = none →
      Q () { x with
        lines := x.lines.push .terminated
        events := x.events.push .terminated }) : terminate.Ends x Q E := by
  refine ends_unless_aborted haborted (fun ha => ?_) (on_terminate x)
  cases hf : x.stack.top? with
  | some f => exact hopen f ha hf
  | none => exact hQ ha hf

theorem ends_handOver_either {s : SequenceId} {body : Token}
    {Q : Iterator.Progress → Instance → Prop}
    (hclosed : (x.handOff s).isClosed = true →
      E (.handOffClosed s.loop) (x.fail (.handOffClosed s.loop)))
    (hQ : ∀ p y, (x.handOff s).isClosed = false → Q p y) :
    (Iterator.handOver s body).Ends x Q E := by
  unfold Ends
  rw [on_handOver]
  cases hc : (x.handOff s).isClosed with
  | true => exact hclosed hc
  | false =>
    cases hq : (x.handOff s).queue.isEmpty with
    | true => exact hQ _ _ hc
    | false => exact hQ _ _ hc

end Act

/-! ## Calls -/

namespace Call

/-- The loop that has to be innermost for a call. -/
def needsTop? : Call → Option LoopId
  | exit shape _ | advance shape _ => some shape.head.id
  | endIteration _ s _ => some s.loop
  | _ => none

/-- The loop that has to be over for a call. -/
def closes? : Call → Option LoopId
  | use _ (.sendAfter id _) | use _ (.terminateAfter id) => some id
  | send _ point => point.closes
  | finish _ closes => closes
  | _ => none

/-- Whether a call ends the protocol. -/
def terminates : Call → Bool
  | use _ .terminate | use _ (.terminateAfter _) | finish _ _ => true
  | _ => false

/-- What is wrong with a call on a running instance when its state is unused, and the fault that it
answers. -/
inductive Obstacle (x : Instance) : Call → Fault → Prop where
  /-- The loop to be entered runs further out. -/
  | buried {c : Call} {head : LoopHead} : c.enters? = some head →
    x.stack.onTop? head.id = none → x.stack.contains head.id = true →
    Obstacle x c (.engineFault (.buried head.id x.stack))
  /-- The loop to be entered has no bound. -/
  | unbounded {c : Call} {head : LoopHead} {e : Fault} : c.enters? = some head →
    x.stack.contains head.id = false → x.bounds.bound head.param = .error e → Obstacle x c e
  /-- A polled loop has had its last iteration. -/
  | exhausted {shape : LoopShape} {t : Token} {top : Frame} {below : List Frame} :
    x.stack.onTop? shape.head.id = some (top, below) → top.advance.canEnter = false →
    Obstacle x (.enter shape t) (.boundsExceeded top.advance)
  /-- The loop to be gone on with is not innermost. -/
  | notOnTop {c : Call} {id : LoopId} : c.needsTop? = some id → x.stack.onTop? id = none →
    Obstacle x c (.missingFrame id)
  /-- A polled loop has iterations to come. -/
  | early {shape : LoopShape} {t : Token} {top : Frame} {below : List Frame} :
    x.stack.onTop? shape.head.id = some (top, below) → top.hasNext = true →
    Obstacle x (.exit shape t) (.prematureExit top)
  /-- The loop that has to be over is not. -/
  | unclosed {c : Call} {id : LoopId} {f : Frame} : c.closes? = some id →
    x.stack.find? id = some f → Obstacle x c (.prematureExit f)
  /-- The protocol is to end while a loop runs. -/
  | unfinished {c : Call} {f : Frame} : c.terminates = true → x.stack.top? = some f →
    Obstacle x c (.prematureExit f)
  /-- The sequence takes no body any more. -/
  | refused {t : Token} {s : SequenceId} {body : Site} {top : Frame} {below : List Frame} :
    x.stack.onTop? s.loop = some (top, below) → top.advance.canEnter = true →
    (x.handOff s).isClosed = true → Obstacle x (.endIteration t s body) (.handOffClosed s.loop)

/-- Why a call fails on an instance, and with which fault. -/
inductive Fails (x : Instance) : Call → Fault → Prop where
  | used {c : Call} {t : Token} : c.uses = some t → t.isConsumed x = true →
    Fails x c (.linearityViolation t.site.name)
  | aborted {c : Call} : x.aborted = true → Fails x c (.engineFault (.abortedEarlier x.id))
  /-- The body of a callback loop failed on its own. -/
  | own (e : Fault) : Fails x (.fail e) e
  | obstacle {c : Call} {e : Fault} : (∀ t, c.uses = some t → t.isConsumed x = false) →
    x.aborted = false → c.Obstacle x e → Fails x c e

variable {α : Type} {x y : Instance} {c : Call} {e : Fault} {t : Token} {f : Frame}
  {below : List Frame}

open Act

/-- What a call fails with that uses its state first. -/
theorem ends_of_consume {rest : Unit → Act α} (hc : c.uses = some t)
    (hrest : t.isConsumed x = false →
      (rest ()).Ends (x.spend t) (fun _ _ => True) fun e _ =>
        x.aborted = true ∧ e = .engineFault (.abortedEarlier x.id) ∨
          x.aborted = false ∧ c.Obstacle x e) :
    (t.consume >>= rest).Ends x (fun _ _ => True) fun e _ => Fails x c e := by
  refine Ends.bind (ends_consume_either (fun hused => .used hc hused) fun hunused => ?_)
  refine (hrest hunused).mono (fun _ _ hQ => hQ) fun e _ he => ?_
  rcases he with ⟨hab, rfl⟩ | ⟨hrun, hobstacle⟩
  · exact .aborted hab
  · refine .obstacle (fun t' ht' => ?_) hrun hobstacle
    obtain rfl : t = t' := Option.some.inj (hc.symm.trans ht')
    exact hunused

/-- A frame past its last iteration has no next one. -/
theorem hasNext_of_canEnter (h : f.canEnter = false) : f.hasNext = false := by
  rw [← Bool.not_eq_true, Frame.canEnter_iff] at h
  rw [Frame.hasNext_eq_false_iff]
  omega

/-- A loop whose frame was just advanced or started is left without a fault, and goes on unless its
sequence takes no body. -/
theorem ends_iteratorTurn {s : SequenceId} {body : Site} {E : Fault → Prop}
    (hrun : y.aborted = false) (htop : y.stack.onTop? s.loop = some (f, below))
    (hrefused : f.canEnter = true → (y.handOff s).isClosed = true → E (.handOffClosed s.loop)) :
    (Iterator.turn s f body).Ends y (fun _ _ => True) fun e _ => E e := by
  obtain ⟨hs, hid⟩ := FrameStack.onTop?_eq_some_iff.1 htop
  unfold Iterator.turn
  cases hf : f.canEnter with
  | true =>
    refine Ends.bind (ends_iteration (Ends.bind (ends_issue ?_)))
    exact ends_handOver_either (fun hclosed => hrefused hf hclosed) fun _ _ _ => trivial
  | false =>
    refine Ends.bind (ends_exit_top hrun hs hid (hasNext_of_canEnter hf) ?_)
    exact Ends.bind (ends_closeSequence (ends_pure trivial))

theorem ends_callbackTurn {shape : LoopShape} {E : Fault → Prop} (hrun : y.aborted = false)
    (htop : y.stack.onTop? shape.head.id = some (f, below)) :
    (Callback.turn shape f).Ends y (fun _ _ => True) fun e _ => E e := by
  obtain ⟨hs, hid⟩ := FrameStack.onTop?_eq_some_iff.1 htop
  unfold Callback.turn
  cases hf : f.canEnter with
  | true => exact Ends.bind (ends_iteration (Ends.bind (ends_issue (ends_pure trivial))))
  | false =>
    refine Ends.bind (ends_exit_top hrun hs hid (hasNext_of_canEnter hf) ?_)
    exact Ends.bind (ends_issue (ends_pure trivial))

/-- A head is entered unless it is buried or has no bound. -/
theorem ends_of_activate {head : LoopHead} {rest : Frame → Act α} (hc : c.enters? = some head)
    (hrest : ∀ f below y, x.aborted = false → y.aborted = false → y.bounds = x.bounds →
      y.sequences = x.sequences → y.stack.onTop? head.id = some (f, below) →
      (f.canEnter = true ∨
        ∃ top, x.stack.onTop? head.id = some (top, below) ∧ f = top.advance) →
      (rest f).Ends y (fun _ _ => True) fun e _ => c.Obstacle x e) :
    (Act.activate head.id head.param >>= rest).Ends (x.spend t) (fun _ _ => True) fun e _ =>
      x.aborted = true ∧ e = .engineFault (.abortedEarlier x.id) ∨
        x.aborted = false ∧ c.Obstacle x e := by
  refine Ends.bind (ends_activate_either (fun hab => .inl ⟨hab, rfl⟩) ?_ ?_ ?_ ?_)
  · exact fun hrun htop hs => .inr ⟨hrun, .buried hc htop hs⟩
  · exact fun e hrun hs hb => .inr ⟨hrun, .unbounded hc hs hb⟩
  · intro top below hrun htop
    obtain ⟨-, hid⟩ := FrameStack.onTop?_eq_some_iff.1 htop
    let y : Instance := { x.spend t with
      stack := ⟨top.advance :: below⟩
      lines := (x.spend t).lines.push (.reentered top.advance) }
    have hon : y.stack.onTop? head.id = some (top.advance, below) :=
      FrameStack.onTop?_eq_some_iff.2 ⟨rfl, hid⟩
    have hends := hrest top.advance below y hrun hrun rfl rfl hon (.inr ⟨top, htop, rfl⟩)
    exact hends.mono (fun _ _ hQ => hQ) fun e _ he => .inr ⟨hrun, he⟩
  · intro b hrun hs hb
    let y : Instance := { x.spend t with
      stack := x.stack.push head.id b
      lines := (x.spend t).lines.push (.activated head.id b.count)
      events := x.events.push (.activated head.id b.count) }
    have hon : y.stack.onTop? head.id = some (Frame.start head.id b, x.stack.frames) :=
      FrameStack.onTop?_eq_some_iff.2 ⟨rfl, rfl⟩
    have hends := hrest _ _ y hrun hrun rfl rfl hon (.inl (Frame.canEnter_start head.id b))
    exact hends.mono (fun _ _ hQ => hQ) fun e _ he => .inr ⟨hrun, he⟩

theorem ends_use (t : Token) (u : Use) :
    (u.act t).Ends x (fun _ _ => True) fun e _ => Fails x (.use t u) e := by
  cases u with
  | consume =>
    exact ends_consume_either (fun hused => .used rfl hused) fun _ => trivial
  | send label => exact ends_of_consume rfl fun _ => ends_accept trivial
  | sendAfter id label =>
    refine ends_of_consume rfl fun _ => ?_
    refine Ends.bind (ends_ensureClosed_either (fun hab => .inl ⟨hab, rfl⟩) ?_ fun _ _ => ?_)
    · exact fun f hrun hf => .inr ⟨hrun, .unclosed rfl hf⟩
    · exact ends_accept trivial
  | terminate =>
    refine ends_of_consume rfl fun _ => ?_
    refine ends_terminate_either (fun hab => .inl ⟨hab, rfl⟩) ?_ fun _ _ => trivial
    exact fun f hrun hf => .inr ⟨hrun, .unfinished rfl hf⟩
  | terminateAfter id =>
    refine ends_of_consume rfl fun _ => ?_
    refine Ends.bind (ends_ensureClosed_either (fun hab => .inl ⟨hab, rfl⟩) ?_ fun _ _ => ?_)
    · exact fun f hrun hf => .inr ⟨hrun, .unclosed rfl hf⟩
    · refine ends_terminate_either (fun hab => .inl ⟨hab, rfl⟩) ?_ fun _ _ => trivial
      exact fun f hrun hf => .inr ⟨hrun, .unfinished rfl hf⟩

theorem ends_send (t : Token) (point : SendPoint) :
    (t.sendAt point).Ends x (fun _ _ => True) fun e _ => Fails x (.send t point) e := by
  unfold Token.sendAt
  cases hcloses : point.closes with
  | none =>
    show ((t.consume >>= fun _ => Act.accept point.label) >>= _).Ends _ _ _
    rw [bind_assoc]
    exact ends_of_consume rfl fun _ => Ends.bind (ends_accept (ends_issue trivial))
  | some id =>
    show ((t.consume >>= fun _ =>
      Act.ensureClosed id >>= fun _ => Act.accept point.label) >>= _).Ends _ _ _
    simp only [bind_assoc]
    refine ends_of_consume rfl fun _ => ?_
    refine Ends.bind (ends_ensureClosed_either (fun hab => .inl ⟨hab, rfl⟩) ?_ fun _ _ => ?_)
    · exact fun f hrun hf => .inr ⟨hrun, .unclosed hcloses hf⟩
    · exact Ends.bind (ends_accept (ends_issue trivial))

theorem ends_finish (t : Token) (closes : Option LoopId) :
    (t.finish closes).Ends x (fun _ _ => True) fun e _ => Fails x (.finish t closes) e := by
  have hterminate : Act.terminate.Ends (x.spend t) (fun _ _ => True) fun e _ =>
      x.aborted = true ∧ e = .engineFault (.abortedEarlier x.id) ∨
        x.aborted = false ∧ Obstacle x (.finish t closes) e := by
    refine ends_terminate_either (fun hab => .inl ⟨hab, rfl⟩) ?_ fun _ _ => trivial
    exact fun f hrun hf => .inr ⟨hrun, .unfinished rfl hf⟩
  cases closes with
  | none => exact ends_of_consume rfl fun _ => hterminate
  | some id =>
    refine ends_of_consume rfl fun _ => ?_
    refine Ends.bind (ends_ensureClosed_either (fun hab => .inl ⟨hab, rfl⟩) ?_ fun _ _ => ?_)
    · exact fun f hrun hf => .inr ⟨hrun, .unclosed rfl hf⟩
    · exact hterminate

theorem ends_enter (shape : LoopShape) (t : Token) :
    (Polling.enter shape t).Ends x (fun _ _ => True) fun e _ => Fails x (.enter shape t) e := by
  refine ends_of_consume rfl fun _ => ends_of_activate rfl ?_
  intro f below y hrun _ _ _ _ hor
  cases hf : f.canEnter with
  | true =>
    rw [if_pos rfl]
    exact Ends.bind (ends_iteration (ends_issue trivial))
  | false =>
    rw [if_neg Bool.false_ne_true]
    rcases hor with hcan | ⟨top, htop, rfl⟩
    · rw [hf] at hcan
      cases hcan
    · exact ends_abort (.exhausted htop hf)

theorem ends_exit (shape : LoopShape) (t : Token) :
    (Polling.exit shape t).Ends x (fun _ _ => True) fun e _ => Fails x (.exit shape t) e := by
  refine ends_of_consume rfl fun _ => Ends.bind ?_
  refine ends_exit_either (fun hab => .inl ⟨hab, rfl⟩) ?_ ?_ fun _ _ _ _ _ => ends_issue trivial
  · exact fun hrun htop => .inr ⟨hrun, .notOnTop rfl htop⟩
  · exact fun top below hrun htop hn => .inr ⟨hrun, .early htop hn⟩

/-- A sequence that was just opened takes its first body, so a loop by iteration that was activated
cannot fail. -/
theorem ends_opened {shape : LoopShape} {feed : Option SequenceId} (hrun : y.aborted = false)
    (htop : y.stack.onTop? shape.head.id = some (f, below)) :
    (do
      let s ← Iterator.openSequence shape.head.id
      let _ ← Iterator.turn s f shape.body
      let after ← Act.issue shape.after feed
      pure (s, after)).Ends y (fun _ _ => True) fun _ _ => False := by
  let s : SequenceId := ⟨y.sequences.size, shape.head.id⟩
  let z : Instance := { y with sequences := y.sequences.push .fresh }
  have hturn : (Iterator.turn s f shape.body).Ends z (fun _ _ => True) fun _ _ => False := by
    refine ends_iteratorTurn (E := fun _ => False) hrun htop fun _ hclosed => ?_
    simp [s, z, Instance.handOff, Array.getD_eq_getD_getElem?, HandOff.fresh, HandOff.isClosed]
      at hclosed
  refine Ends.bind (ends_openSequence (Ends.bind ?_))
  exact hturn.mono (fun _ _ _ => Ends.bind (ends_issue (ends_pure trivial))) fun _ _ he => he

theorem ends_iterate (shape : LoopShape) (t : Token) :
    (Iterator.enter shape t).Ends x (fun _ _ => True) fun e _ => Fails x (.iterate shape t) e := by
  refine ends_of_consume rfl fun _ => ends_of_activate rfl ?_
  intro f below y _ hrun _ _ htop _
  exact (ends_opened hrun htop).mono (fun _ _ hQ => hQ) fun e _ he => he.elim

theorem ends_endIteration (t : Token) (s : SequenceId) (body : Site) :
    (Iterator.endIteration t s body).Ends x (fun _ _ => True)
      fun e _ => Fails x (.endIteration t s body) e := by
  refine ends_of_consume rfl fun _ => Ends.bind ?_
  refine ends_complete_either (fun hab => .inl ⟨hab, rfl⟩) ?_ fun top below hrun htop => ?_
  · exact fun hrun htop => .inr ⟨hrun, .notOnTop rfl htop⟩
  · obtain ⟨-, hid⟩ := FrameStack.onTop?_eq_some_iff.1 htop
    refine (ends_iteratorTurn hrun (FrameStack.onTop?_eq_some_iff.2 ⟨rfl, hid⟩) ?_)
    exact fun hmore hclosed => .inr ⟨hrun, .refused htop hmore hclosed⟩

theorem ends_begin (shape : LoopShape) (t : Token) :
    (Callback.begin shape t).Ends x (fun _ _ => True) fun e _ => Fails x (.begin shape t) e := by
  refine ends_of_consume rfl fun _ => ends_of_activate rfl ?_
  intro f below y _ hrun _ _ htop _
  exact ends_callbackTurn hrun htop

theorem ends_advance (shape : LoopShape) (i : InstanceId) :
    (Callback.advance shape).Ends x (fun _ _ => True)
      fun e _ => Fails x (.advance shape i) e := by
  have hnone : ∀ t, (advance shape i).uses = some t → t.isConsumed x = false := by
    intro t ht
    cases ht
  refine Ends.bind (ends_complete_either .aborted ?_ fun top below hrun htop => ?_)
  · exact fun hrun htop => .obstacle hnone hrun (.notOnTop rfl htop)
  · obtain ⟨-, hid⟩ := FrameStack.onTop?_eq_some_iff.1 htop
    exact ends_callbackTurn hrun (FrameStack.onTop?_eq_some_iff.2 ⟨rfl, hid⟩)

/-- **Every fault of a call has one of these reasons.** -/
theorem fails_of_error (he : (c.act.on x).1 = .error e) : Fails x c e := by
  have hends : c.act.Ends x (fun _ _ => True) fun e _ => Fails x c e := by
    cases c with
    | issue site => exact Ends.map (ends_issue trivial)
    | fork t => exact Ends.map (ends_issue trivial)
    | setParam name bound => exact Ends.map (ends_setParam trivial)
    | use t u => exact Ends.map (ends_use t u)
    | send t point => exact Ends.map (ends_send t point)
    | finish t closes => exact Ends.map (ends_finish t closes)
    | enter shape t => exact Ends.map (ends_enter shape t)
    | exit shape t => exact Ends.map (ends_exit shape t)
    | iterate shape t => exact Ends.map (ends_iterate shape t)
    | endIteration t s body => exact Ends.map (ends_endIteration t s body)
    | take s =>
      exact Ends.map (Act.ends_take? (fun _ => trivial) (fun _ _ => trivial) fun _ _ _ _ => trivial)
    | abandon s => exact Ends.map (ends_abandon trivial fun _ => trivial)
    | begin shape t => exact Ends.map (ends_begin shape t)
    | giveBack t =>
      exact Ends.map (ends_consume_either (fun hused => .used rfl hused) fun _ => trivial)
    | advance shape i => exact Ends.map (ends_advance shape i)
    | fail fault => exact Ends.map (ends_abort (.own fault))
  exact hends.of_error he

/-- **A call succeeds that finds its state unused and nothing in its way.** -/
theorem succeeds (hc : c.uses = some t) (hunused : t.isConsumed x = false)
    (hrun : x.aborted = false) (hnone : ∀ e, ¬c.Obstacle x e) :
    ∃ grant, (c.act.on x).1 = .ok grant := by
  cases hr : (c.act.on x).1 with
  | ok grant => exact ⟨grant, rfl⟩
  | error e =>
    exfalso
    cases fails_of_error hr with
    | used hc' hused =>
      obtain rfl := Option.some.inj (hc.symm.trans hc')
      rw [hunused] at hused
      cases hused
    | aborted hab =>
      rw [hrun] at hab
      cases hab
    | own => cases hc
    | obstacle _ _ hobstacle => exact hnone e hobstacle

/-! ## What nothing is in the way of -/

/-- A message can be sent when the loop that has to be over is. -/
theorem free_send {point : SendPoint}
    (hover : ∀ id, point.closes = some id → x.stack.contains id = false) :
    ¬(Call.send t point).Obstacle x e := by
  intro hobstacle
  cases hobstacle with
  | unclosed hc hfind =>
    have hcontains := hover _ hc
    rw [FrameStack.contains, hfind] at hcontains
    cases hcontains
  | buried hc | unbounded hc | notOnTop hc | unfinished hc => cases hc

/-- The protocol can be ended when no loop runs. -/
theorem free_finish {closes : Option LoopId} (hframes : x.stack.frames = []) :
    ¬(Call.finish t closes).Obstacle x e := by
  intro hobstacle
  cases hobstacle with
  | unfinished _ htop => simp [FrameStack.top?, hframes] at htop
  | unclosed _ hfind => simp [FrameStack.find?, hframes] at hfind
  | buried hc | unbounded hc | notOnTop hc => cases hc

end Call

end LoopProtocol
