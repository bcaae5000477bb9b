import LoopProtocol.Proofs.DriveLogic
import LoopProtocol.Proofs.PollingHead
import LoopProtocol.Proofs.Turn

/-!
# The calls that a callback loop makes

A loop by callback is driven by frames that its own transitions answer, while the frame on the stack
can be changed by the body as well. As long as the body leaves the stack as it found it the two
agree, and so the loop calls its body once for each iteration that is left (`Drive.foreach_calls`).

To speak about the calls, `Drive.noting` makes a body note each of them: what it was called with,
what it returned, and the instance at both times. A loop with such a body does what the loop does
with the body itself (`Drive.foreach_noting`).
-/

namespace LoopProtocol

/-! ## Definitions -/

/-- The instance comes up in some session. -/
def Instance.Reachable (x : Instance) : Prop :=
  ∃ (recorders : Nat) (instances : List (BoundTable × Option RecorderId)) (moves : List Move)
    (i : InstanceId), ((Session.start recorders instances).after moves).world.instance? i = some x

/-- The frame of a loop in its iteration of the given index. -/
def Frame.counting (id : LoopId) (last : UInt64) (i : Nat) : Frame := ⟨id, UInt64.ofNat i, last⟩

/-- A call of the body of a loop. -/
structure BodyCall where
  /-- The state that the body was called with. -/
  entry : Token
  /-- The instance at the call. -/
  before : Instance
  result : Except Halt Token
  /-- The instance at the return. -/
  after : Instance

/-- If the body returned a state, it left the stack as it found it and the instance running, and the
state is unused. -/
def BodyCall.Clean : BodyCall → Prop
  | ⟨_, before, .ok tail, after⟩ =>
    after.stack = before.stack ∧ after.aborted = false ∧ tail.isConsumed after = false
  | ⟨_, _, .error _, _⟩ => True

instance BodyCall.decidableClean : (c : BodyCall) → Decidable c.Clean
  | ⟨_, before, .ok tail, after⟩ => inferInstanceAs (Decidable
    (after.stack = before.stack ∧ after.aborted = false ∧ tail.isConsumed after = false))
  | ⟨_, _, .error _, _⟩ => inferInstanceAs (Decidable True)

/-- The instance after a body that stopped: a fault of the body aborts it. -/
def Instance.stop (x : Instance) : Halt → Instance
  | .fault fault => x.fail fault
  | .stalled => x

/-- A turn of the loop head: it uses up the state `used`, gives out the unused state `given`, leaves
the frames on the stack and reports the events. Nothing else is changed but the log. -/
structure Instance.Turns (x : Instance) (used : Token) (frames : List Frame) (reports : List Event)
    (given : Token) (y : Instance) : Prop where
  new : given.guard = x.guards.next
  unused : given.isConsumed y = false
  spent : used.isConsumed y = true
  guards : y.guards = (x.guards.spend used.guard).issue
  reaches : x.Reaches frames reports y
  bounds : y.bounds = x.bounds
  sequences : y.sequences = x.sequences

namespace Drive

variable {σ : Type}

/-- A body that notes its calls. -/
def noting (body : Token → Drive σ Token) (entry : Token) : Drive (σ × List BodyCall) Token :=
  ExceptT.mk fun (s, noted) x =>
    let ((result, s'), y) := (body entry).on s x
    ((result, s', noted ++ [⟨entry, x, result, y⟩]), y)

/-- Where the loop is when these calls have returned: the instance, and the state that the loop uses
up next. There is none after a call that returned no state. -/
def comeTo (x : Instance) (used : Token) : List BodyCall → Option (Instance × Token)
  | [] => some (x, used)
  | c :: rest =>
    match c.result with
    | .ok tail => comeTo c.after tail rest
    | .error _ => none

/-- The calls of a loop from the iteration `first` on, and how it ends. The loop comes from `x` with
the state `used`, and reports `opening` before the first iteration. -/
structure Rounds (shape : LoopShape) (last : UInt64) (below : List Frame) (first : Nat)
    (opening : List Event) (x : Instance) (used : Token) (calls : List BodyCall)
    (result : Except Halt Token) (y : Instance) : Prop where
  /-- The calls are for one iteration after the other. Each is made with a new state, with the frame
  of its iteration on top, and the iteration is what was reported just before. The state that the
  call before it returned has just been used up. -/
  called : ∀ done c rest, calls = done ++ c :: rest → ∃ z tail,
    comeTo x used done = some (z, tail) ∧ c.entry.site = shape.body ∧
    z.Turns tail (Frame.counting shape.head.id last (first + done.length) :: below)
      ((if done = [] then opening else []) ++
        [.iteration shape.head.id (UInt64.ofNat (first + done.length))]) c.entry c.before
  /-- When every call has returned a state, there was one for each iteration up to the last, and the
  loop is left. -/
  finished : (∀ c ∈ calls, ∃ tail, c.result = .ok tail) → first + calls.length = last.toNat + 1 ∧
    ∃ z tail after, comeTo x used calls = some (z, tail) ∧ result = .ok after ∧
      after.site = shape.after ∧ z.Turns tail below [.exited shape.head.id] after y
  /-- A call that returns no state is the last one, and the loop stops as the call did. Nothing is
  reported any more, and a fault aborts the instance. -/
  stopped : ∀ done c rest halt, calls = done ++ c :: rest → c.result = .error halt →
    rest = [] ∧ result = .error halt ∧ y = c.after.stop halt ∧ y.events = c.after.events ∧
    ∀ fault, halt = .fault fault → y.aborted = true

end Drive

/-- An action that cannot fail succeeds. -/
theorem Act.Ends.exists_ok {α : Type} {a : Act α} {x : Instance} {Q : α → Instance → Prop}
    (h : a.Ends x Q fun _ _ => False) : ∃ v y, a.on x = (.ok v, y) ∧ Q v y := by
  unfold Ends at h
  split at h
  · next v y heq => exact ⟨v, y, heq, h⟩
  · cases h

/-! ## Frames that count -/

namespace Frame

variable {id : LoopId} {last : UInt64} {i : Nat}

@[simp] theorem advance_counting : (counting id last i).advance = counting id last (i + 1) := by
  simp [counting, advance]

theorem counting_toNat (f : Frame) : counting f.id f.last f.current.toNat = f := by
  simp [counting]

theorem toNat_current_counting (hi : i < Bound.limit) : (counting id last i).current.toNat = i := by
  simp only [counting, UInt64.toNat_ofNat']
  exact Nat.mod_eq_of_lt hi

theorem canEnter_counting (hi : i < Bound.limit) :
    (counting id last i).canEnter = decide (i ≤ last.toNat) := by
  rw [Bool.eq_iff_iff, canEnter_iff, toNat_current_counting hi, decide_eq_true_eq]
  rfl

theorem hasNext_counting (hi : i < Bound.limit) :
    (counting id last i).hasNext = decide (i < last.toNat) := by
  rw [Bool.eq_iff_iff, hasNext_iff, toNat_current_counting hi, decide_eq_true_eq]
  rfl

end Frame

/-! ## One turn of the loop head -/

namespace Instance

variable {x y : Instance} {used : Token} {frames : List Frame} {reports : List Event}

theorem events_stop {halt : Halt} : (x.stop halt).events = x.events := by
  cases halt with
  | fault fault => exact x.events_fail fault
  | stalled => rfl

/-- A state is used up, and the stack and the events are brought up to date. -/
structure Moves (x : Instance) (used : Token) (frames : List Frame) (reports : List Event)
    (y : Instance) : Prop where
  guards : y.guards = x.guards.spend used.guard
  reaches : x.Reaches frames reports y
  bounds : y.bounds = x.bounds
  sequences : y.sequences = x.sequences

/-- A state is given out after that. -/
theorem Moves.turns (h : x.Moves used frames reports y) (hunused : used.isConsumed x = false)
    (site : Site) : x.Turns used frames reports ⟨y.guards.next, site, none⟩
      { y with guards := y.guards.issue } := by
  have hspent : used.isConsumed (x.spend used) = true := by
    simp [Token.isConsumed, spend, Guards.isConsumed_spend]
  have hnext : y.guards.next = x.guards.next := by
    simp [h.guards, Guards.next, Guards.spend]
  have hne := (Token.isConsumed_issue hunused).1
  refine ⟨hnext, Guards.isConsumed_issue_next _, ?_, by rw [h.guards],
    ⟨h.reaches.running, h.reaches.frames, h.reaches.events⟩, h.bounds, h.sequences⟩
  show y.guards.issue.isConsumed used.guard = true
  rw [Guards.isConsumed_issue_of_ne (by rwa [hnext]), h.guards]
  exact hspent

end Instance

namespace Callback

variable {x y : Instance} {shape : LoopShape} {used : Token} {last : UInt64} {below : List Frame}
  {reports : List Event} {i : Nat} {E : Fault → Instance → Prop}

/-- The frame is that of an iteration, and the body is called. -/
theorem ends_turn_body (h : x.Moves used (Frame.counting shape.head.id last i :: below) reports y)
    (hunused : used.isConsumed x = false) (hi : i ≤ last.toNat) :
    (turn shape (Frame.counting shape.head.id last i)).Ends y (fun next z =>
      ∃ entry, next = .body entry ∧ entry.site = shape.body ∧
        x.Turns used (Frame.counting shape.head.id last i :: below)
          (reports ++ [.iteration shape.head.id (UInt64.ofNat i)]) entry z) E := by
  have hlimit : i < Bound.limit := Nat.lt_of_le_of_lt hi last.toNat_lt
  unfold turn
  rw [Frame.canEnter_counting hlimit, decide_eq_true hi, if_pos rfl]
  refine Act.Ends.bind (Act.ends_iteration ?_)
  refine Act.Ends.bind (Act.ends_issue (Act.ends_pure ⟨_, rfl, rfl, ?_⟩))
  refine Instance.Moves.turns (y := { y with
    lines := y.lines.push (.entered (Frame.counting shape.head.id last i))
    events := y.events.push (.iteration shape.head.id (UInt64.ofNat i)) }) ?_ hunused shape.body
  refine ⟨h.guards, ⟨h.reaches.running, h.reaches.frames, ?_⟩, h.bounds, h.sequences⟩
  simp [h.reaches.events]

/-- The frame is past the last iteration, and the loop is left. -/
theorem ends_turn_finished
    (h : x.Moves used (Frame.counting shape.head.id last (last.toNat + 1) :: below) reports y)
    (hunused : used.isConsumed x = false) (hlimit : last.toNat + 1 < Bound.limit) :
    (turn shape (Frame.counting shape.head.id last (last.toNat + 1))).Ends y (fun next z =>
      ∃ after, next = .finished after ∧ after.site = shape.after ∧
        x.Turns used below (reports ++ [.exited shape.head.id]) after z) E := by
  have hnext : (Frame.counting shape.head.id last (last.toNat + 1)).hasNext = false := by
    rw [Frame.hasNext_counting hlimit, decide_eq_false (by omega)]
  unfold turn
  rw [Frame.canEnter_counting hlimit, decide_eq_false (by omega), if_neg Bool.false_ne_true]
  refine Act.Ends.bind (Act.ends_exit_top h.reaches.running h.reaches.frames rfl hnext ?_)
  refine Act.Ends.bind (Act.ends_issue (Act.ends_pure ⟨_, rfl, rfl, ?_⟩))
  refine Instance.Moves.turns (y := { y with
    stack := ⟨below⟩
    lines := y.lines.push (.exited (Frame.counting shape.head.id last (last.toNat + 1)))
    events := y.events.push (.exited shape.head.id) }) ?_ hunused shape.after
  refine ⟨h.guards, ⟨h.reaches.running, rfl, ?_⟩, h.bounds, h.sequences⟩
  simp [h.reaches.events]

/-- The loop starts. -/
theorem ends_begin_new {b : Bound} (ha : x.aborted = false)
    (hc : x.stack.contains shape.head.id = false)
    (hb : x.bounds.bound shape.head.param = .ok b) (hunused : used.isConsumed x = false) :
    (begin shape used).Ends x (fun next z => ∃ entry, next = .body entry ∧ entry.site = shape.body ∧
      x.Turns used (Frame.counting shape.head.id (b.count - 1) 0 :: x.stack.frames)
        ([.activated shape.head.id b.count] ++ [.iteration shape.head.id (UInt64.ofNat 0)])
        entry z) E := by
  refine Act.Ends.bind (Act.ends_consume_unused hunused ?_)
  refine Act.Ends.bind (Act.ends_activate_new ha hc hb ?_)
  refine ends_turn_body ?_ hunused (Nat.zero_le _)
  exact ⟨rfl, ⟨ha, rfl, by simp [Instance.spend]⟩, rfl, rfl⟩

/-- The turn after the iteration `i`: a call of the body for the next one, or the end of the loop
after the last. -/
inductive GoesOn (shape : LoopShape) (last : UInt64) (below : List Frame) (i : Nat) (x : Instance)
    (used : Token) : Turn → Instance → Prop where
  | body {entry : Token} {y : Instance} (hi : i + 1 ≤ last.toNat) (site : entry.site = shape.body)
    (turns : x.Turns used (Frame.counting shape.head.id last (i + 1) :: below)
      [.iteration shape.head.id (UInt64.ofNat (i + 1))] entry y) :
    GoesOn shape last below i x used (.body entry) y
  | finished {after : Token} {y : Instance} (hi : i = last.toNat) (site : after.site = shape.after)
    (turns : x.Turns used below [.exited shape.head.id] after y) :
    GoesOn shape last below i x used (.finished after) y

/-- An advanced frame leads to a call of the body, or out of the loop. -/
theorem ends_turn_advanced
    (h : x.Moves used (Frame.counting shape.head.id last (i + 1) :: below) [] y)
    (hunused : used.isConsumed x = false) (hi : i ≤ last.toNat)
    (hlimit : last.toNat + 1 < Bound.limit) :
    (turn shape (Frame.counting shape.head.id last (i + 1))).Ends y
      (GoesOn shape last below i x used) E := by
  rcases Nat.lt_or_eq_of_le hi with hlt | rfl
  · refine (ends_turn_body h hunused hlt).mono ?_ fun _ _ he => he
    rintro _ z ⟨entry, rfl, hsite, hz⟩
    exact .body hlt hsite hz
  · refine (ends_turn_finished h hunused hlimit).mono ?_ fun _ _ he => he
    rintro _ z ⟨after, rfl, hsite, hz⟩
    exact .finished rfl hsite hz

/-- The loop runs already, and its head is entered once more. -/
theorem ends_begin_again (ha : x.aborted = false)
    (hs : x.stack.frames = Frame.counting shape.head.id last i :: below)
    (hunused : used.isConsumed x = false) (hi : i ≤ last.toNat)
    (hlimit : last.toNat + 1 < Bound.limit) :
    (begin shape used).Ends x (GoesOn shape last below i x used) E := by
  refine Act.Ends.bind (Act.ends_consume_unused hunused ?_)
  refine Act.Ends.bind (Act.ends_activate_top ha hs rfl ?_)
  rw [Frame.advance_counting]
  exact ends_turn_advanced ⟨rfl, ⟨ha, rfl, by simp [Instance.spend]⟩, rfl, rfl⟩ hunused hi hlimit

/-- The body has returned the state `used`, and the loop goes on. -/
theorem ends_advance (ha : x.aborted = false)
    (hs : x.stack.frames = Frame.counting shape.head.id last i :: below)
    (hunused : used.isConsumed x = false) (hi : i ≤ last.toNat)
    (hlimit : last.toNat + 1 < Bound.limit) :
    (advance shape).Ends (x.spend used) (GoesOn shape last below i x used) E := by
  refine Act.Ends.bind (Act.ends_complete_top (x := x.spend used) ha hs rfl ?_)
  rw [Frame.advance_counting]
  exact ends_turn_advanced ⟨rfl, ⟨ha, rfl, by simp [Instance.spend]⟩, rfl, rfl⟩ hunused hi hlimit

end Callback

/-! ## Noting changes nothing -/

namespace Drive

variable {σ α β : Type}

/-- The driver `d'` does what `d` does, and notes calls meanwhile. -/
def Notes (d : Drive σ α) (d' : Drive (σ × List BodyCall) α) : Prop :=
  ∀ s noted x, ∃ calls,
    d'.on (s, noted) x = (((d.on s x).1.1, (d.on s x).1.2, noted ++ calls), (d.on s x).2)

theorem on_pure (v : α) (s : σ) (x : Instance) :
    (pure v : Drive σ α).on s x = ((.ok v, s), x) := rfl

theorem notes_pure (v : α) : Notes (pure v : Drive σ α) (pure v) :=
  fun s noted x => ⟨[], by rw [List.append_nil]; rfl⟩

theorem notes_throw (e : Halt) : Notes (throw e : Drive σ α) (throw e) :=
  fun s noted x => ⟨[], by rw [List.append_nil]; rfl⟩

theorem notes_act (a : Act α) : Notes (act a : Drive σ α) (act a) := fun s noted x => by
  refine ⟨[], ?_⟩
  rw [on_act, on_act, List.append_nil]
  cases a.on x with
  | mk r y => cases r <;> rfl

theorem Notes.bind {d : Drive σ α} {d' : Drive (σ × List BodyCall) α} {f : α → Drive σ β}
    {f' : α → Drive (σ × List BodyCall) β} (h : Notes d d') (hf : ∀ v, Notes (f v) (f' v)) :
    Notes (d >>= f) (d' >>= f') := fun s noted x => by
  obtain ⟨calls, hd⟩ := h s noted x
  rw [on_bind, on_bind, hd]
  cases d.on s x with
  | mk p y =>
    obtain ⟨r, t⟩ := p
    cases r with
    | error e => exact ⟨calls, rfl⟩
    | ok v =>
      obtain ⟨calls', hv⟩ := hf v t (noted ++ calls) y
      exact ⟨calls ++ calls', by rw [← List.append_assoc]; exact hv⟩

theorem on_noting (body : Token → Drive σ Token) (entry : Token) (s : σ) (noted : List BodyCall)
    (x : Instance) :
    (noting body entry).on (s, noted) x =
      ((((body entry).on s x).1.1, ((body entry).on s x).1.2,
        noted ++ [⟨entry, x, ((body entry).on s x).1.1, ((body entry).on s x).2⟩]),
        ((body entry).on s x).2) := rfl

theorem on_callBody (body : Token → Drive σ Token) (entry : Token) (s : σ) (x : Instance) :
    (callBody body entry).on s x =
      match (body entry).on s x with
      | ((.ok tail, t), y) => ((.ok tail, t), y)
      | ((.error e, t), y) => ((.error e, t), y.stop e) := by
  unfold callBody
  rw [on_tryCatch]
  cases (body entry).on s x with
  | mk p y =>
    obtain ⟨r, t⟩ := p
    cases r with
    | ok tail => rfl
    | error e =>
      cases e with
      | stalled => rfl
      | fault e => simp [on_act, Act.on_abort_fail, Instance.stop]

/-- A call of a body that notes it. -/
theorem on_callBody_noting (body : Token → Drive σ Token) (entry : Token) (s : σ)
    (noted : List BodyCall) (x : Instance) :
    (callBody (noting body) entry).on (s, noted) x =
      ((((callBody body entry).on s x).1.1, ((callBody body entry).on s x).1.2,
        noted ++ [⟨entry, x, ((body entry).on s x).1.1, ((body entry).on s x).2⟩]),
        ((callBody body entry).on s x).2) := by
  rw [on_callBody, on_callBody, on_noting]
  cases (body entry).on s x with
  | mk p y =>
    obtain ⟨r, t⟩ := p
    cases r <;> rfl

theorem notes_callBody (body : Token → Drive σ Token) (entry : Token) :
    Notes (callBody body entry) (callBody (noting body) entry) :=
  fun s noted x => ⟨_, on_callBody_noting body entry s noted x⟩

variable {shape : LoopShape} {body : Token → Drive σ Token}

/-- Goes on with a loop after its body has returned a state. -/
def resume (shape : LoopShape) (body : Token → Drive σ Token) (fuel : Nat) (tail : Token) :
    Drive σ Token := do
  act tail.consume
  foreachFrom shape body fuel (← act (Callback.advance shape))

theorem foreachFrom_body (fuel : Nat) (entry : Token) :
    foreachFrom shape body (fuel + 1) (.body entry) =
      callBody body entry >>= resume shape body fuel := rfl

theorem foreachFrom_finished (fuel : Nat) (after : Token) :
    foreachFrom shape body fuel (.finished after) = pure after := by
  cases fuel <;> rfl

theorem notes_foreachFrom (fuel : Nat) (turn : Callback.Turn) :
    Notes (foreachFrom shape body fuel turn) (foreachFrom shape (noting body) fuel turn) := by
  induction fuel generalizing turn with
  | zero =>
    cases turn with
    | finished after => exact notes_pure after
    | body entry => exact notes_throw .stalled
  | succ fuel ih =>
    cases turn with
    | finished after => exact notes_pure after
    | body entry =>
      refine (notes_callBody body entry).bind fun tail => ?_
      exact (notes_act tail.consume).bind fun _ => (notes_act (Callback.advance shape)).bind ih

theorem notes_resume (shape : LoopShape) (body : Token → Drive σ Token) (fuel : Nat)
    (tail : Token) :
    Notes (resume shape body fuel tail) (resume shape (noting body) fuel tail) :=
  (notes_act tail.consume).bind fun _ =>
    (notes_act (Callback.advance shape)).bind (notes_foreachFrom fuel)

/-- **A loop whose body notes its calls does what the loop does.** -/
theorem foreach_noting (shape : LoopShape) (head : Token) (body : Token → Drive σ Token) :
    Notes (foreach shape head body) (foreach shape head (noting body)) :=
  (notes_act (Callback.begin shape head)).bind (notes_foreachFrom Bound.limit)

/-! ## The calls of a loop -/

variable {last : UInt64} {below : List Frame} {first : Nat} {opening : List Event}
  {x y : Instance} {used : Token} {calls : List BodyCall} {result : Except Halt Token}

/-- The loop is left without a call. -/
theorem Rounds.ended {after : Token} (hfirst : first = last.toNat + 1)
    (hsite : after.site = shape.after) (hy : x.Turns used below [.exited shape.head.id] after y) :
    Rounds shape last below first opening x used [] (.ok after) y where
  called done c rest h := by simp at h
  finished _ := ⟨hfirst, x, used, after, rfl, rfl, hsite, hy⟩
  stopped done c rest halt h := by simp at h

/-- The body is called and returns no state. -/
theorem Rounds.stop {c : BodyCall} {halt : Halt} (hsite : c.entry.site = shape.body)
    (hcall : x.Turns used (Frame.counting shape.head.id last first :: below)
      (opening ++ [.iteration shape.head.id (UInt64.ofNat first)]) c.entry c.before)
    (hc : c.result = .error halt) :
    Rounds shape last below first opening x used [c] (.error halt) (c.after.stop halt) where
  called done c' rest h := by
    obtain ⟨rfl, heq⟩ | ⟨done', -, heq⟩ := List.cons_eq_append_iff.1 h
    · obtain ⟨rfl, rfl⟩ := List.cons.inj heq
      exact ⟨x, used, rfl, hsite, by simpa using hcall⟩
    · simp at heq
  finished h := by
    obtain ⟨tail, hok⟩ := h c List.mem_cons_self
    rw [hc] at hok
    cases hok
  stopped done c' rest halt' h hc' := by
    obtain ⟨rfl, heq⟩ | ⟨done', -, heq⟩ := List.cons_eq_append_iff.1 h
    · obtain ⟨rfl, rfl⟩ := List.cons.inj heq
      obtain rfl : halt' = halt := by rw [hc] at hc'; cases hc'; rfl
      refine ⟨rfl, rfl, rfl, Instance.events_stop, ?_⟩
      rintro fault rfl
      exact Instance.aborted_fail _ _
    · simp at heq

/-- The body is called and returns a state, and the loop goes on. -/
theorem Rounds.next {c : BodyCall} {tail : Token} (hsite : c.entry.site = shape.body)
    (hcall : x.Turns used (Frame.counting shape.head.id last first :: below)
      (opening ++ [.iteration shape.head.id (UInt64.ofNat first)]) c.entry c.before)
    (hc : c.result = .ok tail)
    (h : Rounds shape last below (first + 1) [] c.after tail calls result y) :
    Rounds shape last below first opening x used (c :: calls) result y where
  called done c' rest hsplit := by
    obtain ⟨rfl, heq⟩ | ⟨done', rfl, heq⟩ := List.cons_eq_append_iff.1 hsplit
    · obtain ⟨rfl, rfl⟩ := List.cons.inj heq
      exact ⟨x, used, rfl, hsite, by simpa using hcall⟩
    · obtain ⟨z, t, hz, hsite', hcall'⟩ := h.called done' c' rest heq
      refine ⟨z, t, by rw [comeTo, hc]; exact hz, hsite', ?_⟩
      have hindex : first + (c :: done').length = first + 1 + done'.length := by
        rw [List.length_cons]
        omega
      rw [hindex]
      simpa using hcall'
  finished hall := by
    obtain ⟨hlength, z, t, after, hz, hend⟩ :=
      h.finished fun c' hc' => hall c' (List.mem_cons_of_mem _ hc')
    exact ⟨by rw [List.length_cons]; omega, z, t, after, by rw [comeTo, hc]; exact hz, hend⟩
  stopped done c' rest halt hsplit hc' := by
    obtain ⟨rfl, heq⟩ | ⟨done', rfl, heq⟩ := List.cons_eq_append_iff.1 hsplit
    · obtain ⟨rfl, rfl⟩ := List.cons.inj heq
      rw [hc] at hc'
      cases hc'
    · exact h.stopped done' c' rest halt heq hc'

/-- After a clean return the loop goes on. -/
theorem on_resume {τ : Type} (body : Token → Drive τ Token) (fuel : Nat) (t : τ) {i : Nat}
    {tail : Token} {u : Instance} (ha : u.aborted = false)
    (hs : u.stack.frames = Frame.counting shape.head.id last i :: below)
    (hunused : tail.isConsumed u = false) (hi : i ≤ last.toNat)
    (hlimit : last.toNat + 1 < Bound.limit) :
    ∃ turn v, (resume shape body fuel tail).on t u = (foreachFrom shape body fuel turn).on t v ∧
      Callback.GoesOn shape last below i u tail turn v := by
  have hconsume : (act tail.consume : Drive τ Unit).on t u = ((.ok (), t), u.spend tail) := by
    rw [on_act, Act.on_consume, hunused]
    rfl
  obtain ⟨turn, v, hadvance, hv⟩ :=
    (Callback.ends_advance ha hs hunused hi hlimit (E := fun _ _ => False)).exists_ok
  refine ⟨turn, v, ?_, hv⟩
  rw [resume, on_bind, hconsume]
  dsimp only
  rw [on_bind, on_act, hadvance]

/-- **From one call of the body on, the loop calls it once for each iteration that is left.** The
induction is on the rounds; what carries it is that a clean body leaves the frame of its iteration
on top, so that the next turn finds it there. -/
theorem rounds_foreachFrom (hlimit : last.toNat + 1 < Bound.limit) {fuel i : Nat}
    {opening : List Event} {z : Instance} {used entry : Token} {s s' : σ} {noted : List BodyCall}
    {y y' : Instance} {calls : List BodyCall} {r : Except Halt Token} (hi : i ≤ last.toNat)
    (hfuel : last.toNat - i < fuel) (hsite : entry.site = shape.body)
    (hcall : z.Turns used (Frame.counting shape.head.id last i :: below)
      (opening ++ [.iteration shape.head.id (UInt64.ofNat i)]) entry y)
    (hrun : (foreachFrom shape (noting body) fuel (.body entry)).on (s, noted) y =
      ((r, s', noted ++ calls), y'))
    (hclean : ∀ c ∈ calls, c.Clean) : Rounds shape last below i opening z used calls r y' := by
  induction fuel generalizing i opening z used entry s noted y calls with
  | zero => omega
  | succ fuel ih =>
    rw [foreachFrom_body, on_bind, on_callBody_noting, on_callBody] at hrun
    cases hbody : (body entry).on s y with
    | mk p u =>
      obtain ⟨res, t⟩ := p
      rw [hbody] at hrun
      cases res with
      | error halt =>
        simp only [Prod.mk.injEq] at hrun
        obtain ⟨⟨rfl, rfl, hcalls⟩, rfl⟩ := hrun
        obtain rfl := List.append_cancel_left hcalls
        exact .stop hsite hcall rfl
      | ok tail =>
        let c : BodyCall := ⟨entry, y, .ok tail, u⟩
        change (resume shape (noting body) fuel tail).on (t, noted ++ [c]) u = _ at hrun
        obtain ⟨more, rfl⟩ : ∃ more, calls = c :: more := by
          obtain ⟨more, hmore⟩ := notes_resume shape body fuel tail t (noted ++ [c]) u
          rw [hmore, List.append_assoc] at hrun
          simp only [Prod.mk.injEq, List.append_cancel_left_eq] at hrun
          exact ⟨more, hrun.1.2.2.symm⟩
        obtain ⟨hstack, ha, hunused⟩ : u.stack = y.stack ∧ u.aborted = false ∧
            tail.isConsumed u = false := hclean c List.mem_cons_self
        have hframes : u.stack.frames = Frame.counting shape.head.id last i :: below := by
          rw [hstack]
          exact hcall.reaches.frames
        obtain ⟨turn, v, hresume, hv⟩ := on_resume (noting body) fuel (t, noted ++ [c]) ha
          hframes hunused hi hlimit
        rw [hresume, List.append_cons noted c more] at hrun
        refine .next hsite hcall rfl ?_
        cases hv with
        | body hnext hsite' hturns =>
          exact ih hnext (by omega) hsite' hturns hrun fun c' hc' =>
            hclean c' (List.mem_cons_of_mem _ hc')
        | finished hlast hsite' hturns =>
          rw [foreachFrom_finished, on_pure] at hrun
          simp only [Prod.mk.injEq, List.self_eq_append_right] at hrun
          obtain ⟨⟨rfl, -, rfl⟩, rfl⟩ := hrun
          exact .ended (by omega) hsite' hturns

/-- **A callback loop calls its body once for each iteration that is left**, whatever the body does,
provided that it is clean whenever it returns a state. A loop that is not running starts with its
bound and restores the stack; a loop that is innermost goes on after its iteration, and its frame is
taken off. -/
theorem foreach_calls {head : Token} {s s' : σ} (hreached : x.Reachable) (ha : x.aborted = false)
    (hunused : head.isConsumed x = false)
    (hrun : (foreach shape head body).on s x = ((result, s'), y)) :
    ∃ calls, (foreach shape head (noting body)).on (s, []) x = ((result, s', calls), y) ∧
      ((∀ c ∈ calls, c.Clean) →
        (∀ b, (∀ f ∈ x.stack.frames, f.id ≠ shape.head.id) →
          x.bounds.bound shape.head.param = .ok b →
          Rounds shape (b.count - 1) x.stack.frames 0 [.activated shape.head.id b.count] x head
            calls result y) ∧
        ∀ top below, x.stack.frames = top :: below → top.id = shape.head.id →
          Rounds shape top.last below (top.current.toNat + 1) [] x head calls result y) := by
  obtain ⟨calls, hnoting⟩ := foreach_noting shape head body s [] x
  rw [hrun] at hnoting
  refine ⟨calls, hnoting, fun hclean => ⟨fun b hnew hb => ?_, fun top below hs hid => ?_⟩⟩
  all_goals rw [foreach, on_bind, on_act] at hnoting
  · obtain ⟨turn, z, hbegin, entry, rfl, hsite, hcall⟩ :=
      (Callback.ends_begin_new (E := fun _ _ => False) ha (FrameStack.contains_eq_false_iff.2 hnew)
        hb hunused).exists_ok
    rw [hbegin] at hnoting
    have hlast := Frame.toNat_last_start shape.head.id b
    refine rounds_foreachFrom ?_ (Nat.zero_le _) ?_ hsite hcall hnoting hclean
    · exact Nat.lt_of_le_of_lt (Nat.le_of_eq hlast) b.count_lt_limit
    · exact (b.count - 1).toNat_lt
  · have hfaithful : Faithful x := by
      obtain ⟨recorders, instances, moves, i, hx⟩ := hreached
      exact Session.faithful_after hx
    obtain ⟨hle, hlimit⟩ := hfaithful.current_le ha (f := top) (by simp [hs])
    have hcounting : x.stack.frames =
        Frame.counting shape.head.id top.last top.current.toNat :: below := by
      rw [hs, ← hid, Frame.counting_toNat]
    obtain ⟨turn, z, hbegin, hz⟩ :=
      (Callback.ends_begin_again (E := fun _ _ => False) ha hcounting hunused hle
        hlimit).exists_ok
    rw [hbegin] at hnoting
    cases hz with
    | body hnext hsite hturns =>
      refine rounds_foreachFrom hlimit hnext ?_ hsite hturns hnoting hclean
      exact Nat.lt_of_le_of_lt (Nat.sub_le _ _) top.last.toNat_lt
    | finished hlast hsite hturns =>
      dsimp only at hnoting
      rw [foreachFrom_finished, on_pure] at hnoting
      simp only [Prod.mk.injEq] at hnoting
      obtain ⟨⟨rfl, -, rfl⟩, rfl⟩ := hnoting
      exact .ended (by omega) hsite hturns

/-- A loop with two iterations. Its body uses up the state that it is called with and returns a new
one; meanwhile it counts its calls. -/
theorem foreach_calls_twice :
    let loop : LoopHead := ⟨"Loop", ⟨7⟩, "k"⟩
    let shape : LoopShape := ⟨loop, .step, .step, .step⟩
    let body : Token → Drive Nat Token := fun entry => do
      set ((← get) + 1)
      act entry.consume
      act (Act.issue .step none)
    let head : Token := ⟨⟨0⟩, .free loop, none⟩
    ∃ x calls result y, x.Reachable ∧ x.stack.frames = [] ∧
      (foreach shape head (noting body)).on (0, []) x = ((result, 2, calls), y) ∧
      calls.length = 2 ∧ (∀ c ∈ calls, c.Clean) ∧
      Rounds shape 1 x.stack.frames 0 [.activated ⟨7⟩ 2] x head calls result y := by
  intro loop shape body head
  let moves : List Move := [.act (.issue (.free loop) ⟨0⟩ "head")]
  let s := (Session.start 0 [(BoundTable.ofList [("k", 2)], none)]).after moves
  have hany : (s.world.instance? ⟨0⟩).any (fun x =>
      !x.aborted && !head.isConsumed x && decide (x.stack.frames = []) &&
      decide (x.bounds.get? "k" = some 2) &&
      let ((_, count, calls), _) := (foreach shape head (noting body)).on (0, []) x
      decide (count = 2) && decide (calls.length = 2) && decide (∀ c ∈ calls, c.Clean)) = true := by
    decide +kernel
  obtain ⟨x, hx, hready⟩ := (Option.any_eq_true _ _).1 hany
  simp only [Bool.and_eq_true, Bool.not_eq_true', decide_eq_true_eq] at hready
  obtain ⟨⟨⟨⟨ha, hunused⟩, hframes⟩, hbound⟩, hcounted⟩ := hready
  have hreached : x.Reachable := ⟨0, _, moves, ⟨0⟩, hx⟩
  rcases hrun : (foreach shape head body).on 0 x with ⟨⟨result, count⟩, y⟩
  obtain ⟨calls, hnoting, hrounds⟩ := foreach_calls hreached ha hunused hrun
  rw [hnoting] at hcounted
  dsimp only at hcounted
  obtain ⟨⟨rfl, hlength⟩, hclean⟩ := hcounted
  refine ⟨x, calls, result, y, hreached, hframes, hnoting, hlength, hclean, ?_⟩
  refine (hrounds hclean).1 ⟨2, by decide⟩ (by simp [hframes]) ?_
  simp [BoundTable.bound, shape, loop, hbound, Bound.ofCount?]

end Drive

end LoopProtocol
