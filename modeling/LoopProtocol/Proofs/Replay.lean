import LoopProtocol.Proofs.FrameCount
import LoopProtocol.Proofs.Recording
import Mathlib.Data.List.Forall2

/-!
# Replaying the event log

The events of an instance can be read back without the instance: a loop that is activated goes on
top of the loops that run, each iteration adds one to the count of the innermost loop, and a loop
leaves when its count has reached its bound. `replay?` reads strictly: an event that cannot come at
its point stops it.

`Faithful x` says that the events of `x` can be replayed and that, until `x` is aborted, what the
replay has on its stack is what `x` has on its own. Every transition keeps it. Inside a transition
the frame is for a moment one ahead of its events: `Ahead` is that state, and the three ways out of
it are an iteration, an exit and an abort.
-/

namespace LoopProtocol

/-- A loop as its events tell of it: its bound, and how many iterations were reported. -/
structure CountedLoop where
  id : LoopId
  bound : UInt64
  count : Nat
deriving DecidableEq

namespace CountedLoop

/-- Reads one more event, the innermost of the running loops first. -/
def step (loops : List CountedLoop) : Event → Option (List CountedLoop)
  | .activated id bound =>
    if 0 < bound ∧ ∀ l ∈ loops, l.id ≠ id then some (⟨id, bound, 0⟩ :: loops) else none
  | .iteration id index =>
    match loops with
    | l :: below =>
      if l.id = id ∧ index.toNat = l.count ∧ l.count < l.bound.toNat then
        some ({ l with count := l.count + 1 } :: below)
      else none
    | [] => none
  | .exited id =>
    match loops with
    | l :: below => if l.id = id ∧ l.count = l.bound.toNat then some below else none
    | [] => none
  | .terminated => if loops = [] then some [] else none
  | .sent _ => some loops

/-- The loops that run after some events, if these can come in their order at all. -/
def replay? (events : Array Event) : Option (List CountedLoop) :=
  events.foldlM step []

theorem replay?_push (events : Array Event) (e : Event) :
    replay? (events.push e) = (replay? events).bind (step · e) := by
  simp [replay?]

/-- The loop's frame: its last index is one short of the bound, its current index one short of the
count, and the count is within the bound. -/
structure Tells (l : CountedLoop) (f : Frame) : Prop where
  id : f.id = l.id
  last : f.last.toNat + 1 = l.bound.toNat
  current : f.current.toNat + 1 = l.count
  count_le : l.count ≤ l.bound.toNat

/-- A frame that was advanced, or started, for an iteration that is not reported yet. -/
structure Precedes (l : CountedLoop) (f : Frame) : Prop where
  id : f.id = l.id
  last : f.last.toNat + 1 = l.bound.toNat
  current : f.current.toNat = l.count
  count_le : l.count ≤ l.bound.toNat

theorem Tells.advance {l : CountedLoop} {f : Frame} (h : l.Tells f) : l.Precedes f.advance where
  id := h.id
  last := h.last
  current := by
    have hbound := l.bound.toNat_lt
    rw [Frame.toNat_current_advance, h.current]
    · have := h.last; have := h.current; have := h.count_le; omega
    · rw [h.last]; exact hbound
  count_le := h.count_le

theorem precedes_start (id : LoopId) (b : Bound) :
    Precedes ⟨id, b.count, 0⟩ (Frame.start id b) where
  id := rfl
  last := Frame.toNat_last_start id b
  current := rfl
  count_le := Nat.zero_le _

/-- The frame of an iteration can report it. -/
theorem Precedes.step_iteration {l : CountedLoop} {f : Frame} (h : l.Precedes f)
    (hf : f.canEnter = true) (loops : List CountedLoop) :
    step (l :: loops) (.iteration f.id f.current) =
      some ({ l with count := l.count + 1 } :: loops) := by
  have hle := Frame.canEnter_iff.1 hf
  have := h.last
  have := h.current
  simp only [step]
  rw [if_pos ⟨h.id.symm, h.current, by omega⟩]

theorem Precedes.tells {l : CountedLoop} {f : Frame} (h : l.Precedes f) (hf : f.canEnter = true) :
    Tells { l with count := l.count + 1 } f where
  id := h.id
  last := h.last
  current := by simp [h.current]
  count_le := by
    have hle := Frame.canEnter_iff.1 hf
    have := h.last
    have := h.current
    show l.count + 1 ≤ l.bound.toNat
    omega

/-- A frame past its last iteration has had as many as its loop's bound. -/
theorem Precedes.count_eq {l : CountedLoop} {f : Frame} (h : l.Precedes f)
    (hf : f.canEnter = false) : l.count = l.bound.toNat := by
  have hgt : ¬ f.current.toNat ≤ f.last.toNat := by
    rw [← Frame.canEnter_iff, hf]; simp
  have := h.last
  have := h.current
  have := h.count_le
  omega

theorem Tells.count_eq {l : CountedLoop} {f : Frame} (h : l.Tells f) (hf : f.hasNext = false) :
    l.count = l.bound.toNat := by
  have hle := Frame.hasNext_eq_false_iff.1 hf
  have := h.last
  have := h.current
  have := h.count_le
  omega

end CountedLoop

open CountedLoop

/-- The events can be replayed, and until an abort the stack is what they tell of. -/
def Faithful (x : Instance) : Prop :=
  ∃ loops, replay? x.events = some loops ∧
    (x.aborted = false → List.Forall₂ Tells loops x.stack.frames)

/-- The frame `f` is on top, one ahead of the events, which tell of all else on the stack. -/
def Ahead (f : Frame) (x : Instance) : Prop :=
  x.aborted = false ∧ ∃ l loops below, replay? x.events = some (l :: loops) ∧
    x.stack.frames = f :: below ∧ l.Precedes f ∧ List.Forall₂ Tells loops below

theorem Faithful.fail {x : Instance} (h : Faithful x) (e : Fault) : Faithful (x.fail e) := by
  obtain ⟨loops, hr, -⟩ := h
  refine ⟨loops, ?_, fun ha => ?_⟩
  · rw [Instance.events_fail]
    exact hr
  · rw [Instance.aborted_fail] at ha
    cases ha

/-- What an instance's stack holds is what the replay has on its own. -/
theorem forall_id_ne {loops : List CountedLoop} {frames : List Frame} {id : LoopId}
    (h : List.Forall₂ Tells loops frames) (hid : ∀ f ∈ frames, f.id ≠ id) :
    ∀ l ∈ loops, l.id ≠ id := by
  induction h with
  | nil => simp
  | cons hl _ ih =>
    simp only [List.forall_mem_cons] at hid ⊢
    exact ⟨hl.id ▸ hid.1, ih hid.2⟩

theorem Ahead.fail {f : Frame} {x : Instance} (h : Ahead f x) (e : Fault) :
    Faithful (x.fail e) := by
  obtain ⟨-, l, loops, -, hr, -⟩ := h
  refine ⟨l :: loops, ?_, fun ha => ?_⟩
  · rw [Instance.events_fail]
    exact hr
  · rw [Instance.aborted_fail] at ha
    cases ha

/-- What the events of a running instance say of its innermost loop and of the others. -/
theorem Faithful.top {x : Instance} (h : Faithful x) {top : Frame} {below : List Frame}
    (ha : x.aborted = false) (hs : x.stack.frames = top :: below) :
    ∃ l loops, replay? x.events = some (l :: loops) ∧ l.Tells top ∧
      List.Forall₂ Tells loops below := by
  obtain ⟨loops, hr, htells⟩ := h
  specialize htells ha
  rw [hs] at htells
  obtain ⟨l, rest, hl, hrest, rfl⟩ := List.forall₂_cons_right_iff.1 htells
  exact ⟨l, rest, hr, hl, hrest⟩

/-! ## One step of an action -/

section Steps

variable {x : Instance} {f : Frame} {id : LoopId}

theorem Faithful.ends_activate (h : Faithful x) (param : String) :
    (Act.activate id param).Ends x Ahead (fun _ => Faithful) := by
  refine Act.ends_activate h.fail ?_ ?_
  · intro top below ha hs _
    obtain ⟨l, loops, hr, hl, hrest⟩ := h.top ha hs
    exact ⟨ha, l, loops, below, hr, rfl, hl.advance, hrest⟩
  · intro b ha hc _
    obtain ⟨loops, hr, htells⟩ := h
    specialize htells ha
    have hnew := forall_id_ne htells (FrameStack.contains_eq_false_iff.1 hc)
    have hpos : 0 < b.count := UInt64.lt_iff_toNat_lt.2 b.toNat_count_pos
    have hreplay : replay? (x.events.push (.activated id b.count)) =
        some (⟨id, b.count, 0⟩ :: loops) := by
      rw [replay?_push, hr, Option.bind_some, step, if_pos ⟨hpos, hnew⟩]
    exact ⟨ha, ⟨id, b.count, 0⟩, loops, x.stack.frames, hreplay, rfl, precedes_start id b, htells⟩

theorem Faithful.ends_complete (h : Faithful x) :
    (Act.complete id).Ends x Ahead (fun _ => Faithful) := by
  refine Act.ends_complete h.fail ?_
  intro top below ha hs _
  obtain ⟨l, loops, hr, hl, hrest⟩ := h.top ha hs
  exact ⟨ha, l, loops, below, hr, rfl, hl.advance, hrest⟩

theorem Ahead.ends_iteration {E : Fault → Instance → Prop} (h : Ahead f x)
    (hf : f.canEnter = true) : (Act.iteration f).Ends x (fun _ => Faithful) E := by
  obtain ⟨-, l, loops, below, hr, hs, hl, hrest⟩ := h
  refine Act.ends_iteration ⟨{ l with count := l.count + 1 } :: loops, ?_, fun _ => ?_⟩
  · rw [replay?_push, hr, Option.bind_some, hl.step_iteration hf]
  · show List.Forall₂ Tells _ x.stack.frames
    rw [hs]
    exact .cons (hl.tells hf) hrest

/-- Leaving a loop whose iterations have all been reported. -/
theorem replay?_exit {l : CountedLoop} {loops : List CountedLoop} {events : Array Event}
    (hr : replay? events = some (l :: loops)) (hcount : l.count = l.bound.toNat) :
    replay? (events.push (.exited l.id)) = some loops := by
  have hstep : step (l :: loops) (.exited l.id) = some loops := if_pos ⟨rfl, hcount⟩
  rw [replay?_push, hr, Option.bind_some, hstep]

theorem Ahead.ends_exit (h : Ahead f x) (hf : f.canEnter = false) :
    (Act.exit id).Ends x (fun _ => Faithful) (fun _ => Faithful) := by
  refine Act.ends_exit h.fail ?_
  intro top below ha hs hid _
  obtain ⟨-, l, loops, below', hr, hs', hl, hrest⟩ := h
  rw [hs] at hs'
  obtain ⟨rfl, rfl⟩ := List.cons_eq_cons.1 hs'
  obtain rfl : l.id = id := hl.id.symm.trans hid
  exact ⟨loops, replay?_exit hr (hl.count_eq hf), fun _ => hrest⟩

theorem Faithful.ends_exit (h : Faithful x) :
    (Act.exit id).Ends x (fun _ => Faithful) (fun _ => Faithful) := by
  refine Act.ends_exit h.fail ?_
  intro top below ha hs hid hn
  obtain ⟨l, loops, hr, hl, hrest⟩ := h.top ha hs
  obtain rfl : l.id = id := hl.id.symm.trans hid
  exact ⟨loops, replay?_exit hr (hl.count_eq hn), fun _ => hrest⟩

theorem Faithful.ends_accept {E : Fault → Instance → Prop} (h : Faithful x) (label : String) :
    (Act.accept label).Ends x (fun _ => Faithful) E := by
  obtain ⟨loops, hr, htells⟩ := h
  have hreplay : replay? (x.events.push (.sent label)) = some loops := by
    rw [replay?_push, hr]
    rfl
  exact Act.ends_accept ⟨loops, hreplay, htells⟩

theorem Faithful.ends_terminate (h : Faithful x) :
    Act.terminate.Ends x (fun _ => Faithful) (fun _ => Faithful) := by
  refine Act.ends_terminate h.fail ?_
  intro ha hs
  obtain ⟨loops, hr, htells⟩ := h
  have hempty := htells ha
  rw [hs, List.forall₂_nil_right_iff] at hempty
  subst hempty
  have hreplay : replay? (x.events.push .terminated) = some [] := by
    rw [replay?_push, hr]
    rfl
  exact ⟨[], hreplay, htells⟩

end Steps

/-- **Every call keeps the events a faithful account of the stack.** -/
theorem Faithful.invariant : Invariant Faithful Ahead where
  fail h := h.fail
  failAhead h := h.fail
  consume _ _ _ h := Act.ends_consume h.fail fun _ => h
  issue _ _ _ h := Act.ends_issue h
  setParam _ _ _ h := Act.ends_setParam h
  accept label _ h := h.ends_accept label
  ensureClosed _ _ h := Act.ends_ensureClosed h.fail fun _ _ => h
  terminate _ h := h.ends_terminate
  activate head _ h := h.ends_activate head.param
  complete _ h := h.ends_complete
  iteration h hf := h.ends_iteration hf
  exitAhead _ h hf := h.ends_exit hf
  exit _ _ h := h.ends_exit
  openAhead _ h := Act.ends_openSequence h
  deliver _ _ h hf := (h.ends_iteration hf).andThen fun _ _ hy =>
    Act.Ends.bind (Act.ends_issue (Act.ends_handOver (Faithful.fail hy) fun _ _ _ => hy))
  close _ _ h := Act.ends_closeSequence h
  take _ _ h := Act.ends_take? (fun _ => h) (fun _ _ => h) fun _ _ _ _ => h
  abandon s x h := Act.ends_abandon h
    (Faithful.fail (x := x.setHandOff s (x.handOff s).abandon) h)

/-- An instance on which no loop has started has nothing to replay. -/
theorem faithful_create (i : InstanceId) (bounds : BoundTable) (recorder : Option RecorderId) :
    Faithful (Instance.create i bounds recorder) :=
  ⟨[], rfl, fun _ => .nil⟩

namespace Session

variable {recorders : Nat} {instances : List (BoundTable × Option RecorderId)} {i : InstanceId}
  {r : RecorderId}

/-- **The event log is an exact replay of the stack.** After any moves of a session, what the
recorder of an instance has heard can be replayed, and until the instance is aborted the loops of
the replay are the frames of its stack. -/
theorem events_replay_after (halone : ReportsAlone recorders instances i r) (moves : List Move)
    (hclear : .act (.clearEvents r) ∉ moves) :
    ∃ x loops,
      ((start recorders instances).after moves).world.instance? i = some x ∧
      replay? (((start recorders instances).after moves).world.recorders.events r) = some loops ∧
      (x.aborted = false → List.Forall₂ Tells loops x.stack.frames) := by
  obtain ⟨es, d, hr, hcov, horders, -⟩ :=
    Session.after_deeds (Dealing.covers_start recorders instances) moves
  obtain ⟨-, ⟨x, hx, -, hheard⟩, -⟩ := hr.hears halone.hears_start (clear_not_mem horders hclear)
  have hstart : ∀ j y, (start recorders instances).world.instance? j = some y → Faithful y := by
    intro j y hy
    rw [instance?_start, Option.map_eq_some_iff] at hy
    obtain ⟨p, -, rfl⟩ := hy
    exact faithful_create j p.1 p.2
  obtain ⟨loops, hreplay, htells⟩ := hr.forall_instances Faithful.invariant hstart i x hx
  rw [hcov.world] at hx hheard
  exact ⟨x, loops, hx, by rw [hheard, hreplay], htells⟩

/-- A callback loop, observed from inside its body. -/
theorem events_replay_in_body :
    let instances := [(BoundTable.ofList [("k", 2)], some ⟨0⟩)]
    let moves : List Move :=
      [.act (.issue (.free ⟨"Loop", ⟨7⟩, "k"⟩) ⟨0⟩ "head"), .foreach ⟨"head", false⟩ "after"]
    ReportsAlone 1 instances ⟨0⟩ ⟨0⟩ ∧ .act (.clearEvents ⟨0⟩) ∉ moves ∧ ∃ x loops,
      ((start 1 instances).after moves).world.instance? ⟨0⟩ = some x ∧
      replay? (((start 1 instances).after moves).world.recorders.events ⟨0⟩) = some loops ∧
      (x.aborted = false → List.Forall₂ Tells loops x.stack.frames) := by
  intro instances moves
  have halone : ReportsAlone 1 instances ⟨0⟩ ⟨0⟩ := reportsAlone_single _
  have hclear : .act (.clearEvents ⟨0⟩) ∉ moves := by simp [moves]
  exact ⟨halone, hclear, events_replay_after halone moves hclear⟩

end Session

end LoopProtocol
