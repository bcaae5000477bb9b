import LoopProtocol.Proofs.ActEffect

/-!
# A small program logic for actions

`a.Ends x Q E` says how the action `a` ends on the instance `x`: with an answer and an instance as
`Q` has it, or with a fault and an instance as `E` has it. There is a rule for sequencing and one
for each basic action. Every fault of a basic action leaves `x.fail e` behind, so the rules ask for
nothing else of `E`.
-/

namespace LoopProtocol

/-- The instance after a state of it was used. -/
def Instance.spend (x : Instance) (t : Token) : Instance :=
  { x with
    guards := x.guards.spend t.guard
    lines := x.lines.push (.consumed t.site.name t.site.role) }

namespace Act

variable {α β : Type} {x : Instance}

/-- How the action ends on an instance. -/
def Ends (a : Act α) (x : Instance) (Q : α → Instance → Prop) (E : Fault → Instance → Prop) :
    Prop :=
  match a.on x with
  | (.ok v, y) => Q v y
  | (.error e, y) => E e y

/-- An action that keeps a property `P` when it succeeds, and leaves one with `E` when it fails. -/
def Keeps (a : Act α) (P : Instance → Prop) (E : Instance → Prop := P) : Prop :=
  ∀ x, P x → a.Ends x (fun _ => P) (fun _ => E)

variable {Q Q' : α → Instance → Prop} {R : β → Instance → Prop} {E E' : Fault → Instance → Prop}

theorem ends_of_ok {a : Act α} {v : α} {y : Instance} (h : a.on x = (.ok v, y)) (hQ : Q v y) :
    a.Ends x Q E := by
  simpa [Ends, h] using hQ

theorem ends_of_error {a : Act α} {e : Fault} {y : Instance} (h : a.on x = (.error e, y))
    (hE : E e y) : a.Ends x Q E := by
  simpa [Ends, h] using hE

theorem Ends.mono {a : Act α} (h : a.Ends x Q E) (hQ : ∀ v y, Q v y → Q' v y)
    (hE : ∀ e y, E e y → E' e y) : a.Ends x Q' E' := by
  unfold Ends at h ⊢
  split at h
  · exact hQ _ _ h
  · exact hE _ _ h

/-- The instance after an action that leaves it the same however it ends. -/
theorem Ends.on {a : Act α} {P : Instance → Prop} (h : a.Ends x (fun _ => P) fun _ => P) :
    P (a.on x).2 := by
  unfold Ends at h
  split at h <;> simp_all

/-- The instance after an action that keeps a property. -/
theorem Keeps.on {a : Act α} {P : Instance → Prop} (h : a.Keeps P) (hx : P x) : P (a.on x).2 :=
  Ends.on (h x hx)

theorem Ends.of_ok {a : Act α} (h : a.Ends x Q E) {v : α} (hv : (a.on x).1 = .ok v) :
    Q v (a.on x).2 := by
  unfold Ends at h
  split at h <;> simp_all

theorem Ends.of_error {a : Act α} (h : a.Ends x Q E) {e : Fault} (he : (a.on x).1 = .error e) :
    E e (a.on x).2 := by
  unfold Ends at h
  split at h <;> simp_all

theorem ends_pure {v : α} (hQ : Q v x) : (pure v : Act α).Ends x Q E := hQ

theorem Ends.bind {a : Act α} {f : α → Act β} (h : a.Ends x (fun v y => (f v).Ends y R E) E) :
    (a >>= f).Ends x R E := by
  unfold Ends at h ⊢
  rw [on_bind]
  cases ha : a.on x with
  | mk r y => cases r <;> simpa [ha, Ends] using h

/-- One action after another, with what holds in between. -/
theorem Ends.andThen {a : Act α} {f : α → Act β} (h : a.Ends x Q E)
    (hf : ∀ v y, Q v y → (f v).Ends y R E) : (a >>= f).Ends x R E :=
  (h.mono hf fun _ _ he => he).bind

theorem Ends.map {a : Act α} {f : α → β} (h : a.Ends x (fun v => R (f v)) E) :
    (f <$> a).Ends x R E := by
  unfold Ends at h ⊢
  rw [on_map]
  cases ha : a.on x with
  | mk r y => cases r <;> simpa [ha, Except.map] using h

theorem ends_any (a : Act α) : a.Ends x (fun _ _ => True) fun _ _ => True := by
  unfold Ends
  split <;> trivial

/-- What is known of the answer of the last action, whatever was done before. -/
theorem ends_last {a : Act α} {f : α → Act β} (h : ∀ v y, (f v).Ends y R fun _ _ => True) :
    (a >>= f).Ends x R fun _ _ => True :=
  (ends_any a).andThen fun v y _ => h v y

/-! ## The basic actions -/

theorem ends_look {f : Instance → α} (hQ : Q (f x) x) : (look f).Ends x Q E := hQ

theorem ends_abort {e : Fault} (hE : E e (x.fail e)) : (abort e : Act α).Ends x Q E :=
  ends_of_error (on_abort_fail e x) hE

theorem ends_setParam {name : String} {bound : UInt64} {Q : Option UInt64 → Instance → Prop}
    (hQ : Q (x.bounds.get? name) { x with bounds := x.bounds.insert name bound }) :
    (setParam name bound).Ends x Q E :=
  ends_of_ok (on_setParam name bound x) hQ

theorem ends_iteration {f : Frame} {Q : Unit → Instance → Prop}
    (hQ : Q () { x with
      lines := x.lines.push (.entered f)
      events := x.events.push (.iteration f.id f.current) }) : (iteration f).Ends x Q E :=
  ends_of_ok (on_iteration f x) hQ

theorem ends_accept {label : String} {Q : Unit → Instance → Prop}
    (hQ : Q () { x with
      lines := x.lines.push (.accepted label)
      events := x.events.push (.sent label) }) : (accept label).Ends x Q E :=
  ends_of_ok (on_accept label x) hQ

theorem ends_issue {site : Site} {feed : Option SequenceId} {Q : Token → Instance → Prop}
    (hQ : Q ⟨x.guards.next, site, feed⟩ { x with guards := x.guards.issue }) :
    (issue site feed).Ends x Q E :=
  ends_of_ok (on_issue site feed x) hQ

theorem ends_consume {t : Token} {Q : Unit → Instance → Prop} (hE : ∀ e, E e (x.fail e))
    (hQ : t.isConsumed x = false → Q () (x.spend t)) : t.consume.Ends x Q E := by
  unfold Ends
  rw [on_consume]
  cases h : t.isConsumed x
  · exact hQ h
  · exact hE _

theorem ends_onStack {f : Instance → Except Fault (α × FrameStack)} (hE : ∀ e, E e (x.fail e))
    (hQ : ∀ a stack, x.aborted = false → f x = .ok (a, stack) → Q a { x with stack }) :
    (onStack f).Ends x Q E := by
  unfold Ends
  rw [on_onStack_fail]
  by_cases ha : x.aborted = true
  · simpa [ha, Instance.fail_of_aborted _ ha] using hE (.engineFault (.abortedEarlier x.id))
  · rw [if_neg ha]
    cases hf : f x with
    | ok p => exact hQ p.1 p.2 (by simpa using ha) hf
    | error e => exact hE e

theorem ends_activate {id : LoopId} {param : String} {Q : Frame → Instance → Prop}
    (hE : ∀ e, E e (x.fail e))
    (hreentered : ∀ top below, x.aborted = false → x.stack.frames = top :: below → top.id = id →
      Q top.advance { x with
        stack := ⟨top.advance :: below⟩
        lines := x.lines.push (.reentered top.advance) })
    (hfresh : ∀ b, x.aborted = false → x.stack.contains id = false →
      x.bounds.bound param = .ok b →
      Q (Frame.start id b) { x with
        stack := x.stack.push id b
        lines := x.lines.push (.activated id b.count)
        events := x.events.push (.activated id b.count) }) :
    (activate id param).Ends x Q E := by
  refine Ends.bind (ends_onStack hE ?_)
  rintro ⟨activation, f⟩ stack ha hf
  rcases FrameStack.activate_eq_ok hf with ⟨top, below, hs, hid, rfl, rfl, rfl⟩ |
    ⟨hc, b, hb, rfl, rfl, rfl⟩
  · exact hreentered top below ha hs hid
  · simpa [Ends, on_bind, Except.map] using hfresh b ha hc hb

theorem ends_complete {id : LoopId} {Q : Frame → Instance → Prop} (hE : ∀ e, E e (x.fail e))
    (hQ : ∀ top below, x.aborted = false → x.stack.frames = top :: below → top.id = id →
      Q top.advance { x with
        stack := ⟨top.advance :: below⟩
        lines := x.lines.push (.completed top.advance) }) :
    (complete id).Ends x Q E := by
  refine Ends.bind (ends_onStack hE fun f stack ha hf => ?_)
  obtain ⟨top, below, hs, hid, rfl, rfl⟩ := FrameStack.complete_eq_ok hf
  exact hQ top below ha hs hid

theorem ends_exit {id : LoopId} {Q : Unit → Instance → Prop} (hE : ∀ e, E e (x.fail e))
    (hQ : ∀ top below, x.aborted = false → x.stack.frames = top :: below → top.id = id →
      top.hasNext = false →
      Q () { x with
        stack := ⟨below⟩
        lines := x.lines.push (.exited top)
        events := x.events.push (.exited id) }) :
    (exit id).Ends x Q E := by
  refine Ends.bind (ends_onStack hE fun f stack ha hf => ?_)
  obtain ⟨top, below, hs, hid, hn, rfl, rfl⟩ := FrameStack.exit_eq_ok hf
  exact hQ f below ha hs hid hn

theorem ends_ensureClosed {id : LoopId} {Q : Unit → Instance → Prop} (hE : ∀ e, E e (x.fail e))
    (hQ : x.aborted = false → x.stack.contains id = false → Q () x) :
    (ensureClosed id).Ends x Q E := by
  refine ends_onStack hE fun _ stack ha hf => ?_
  cases hfind : x.stack.find? id with
  | some f => simp [hfind] at hf
  | none =>
    simp only [hfind, Except.ok.injEq, Prod.mk.injEq, true_and] at hf
    subst hf
    exact hQ ha (by simp [FrameStack.contains, hfind])

theorem ends_terminate {Q : Unit → Instance → Prop} (hE : ∀ e, E e (x.fail e))
    (hQ : x.aborted = false → x.stack.frames = [] →
      Q () { x with
        lines := x.lines.push .terminated
        events := x.events.push .terminated }) :
    terminate.Ends x Q E := by
  refine Ends.bind (ends_onStack hE fun _ stack ha hf => ?_)
  cases hs : x.stack.frames with
  | cons f below => simp [FrameStack.top?, hs] at hf
  | nil =>
    simp only [FrameStack.top?, hs, List.head?_nil, Except.ok.injEq, Prod.mk.injEq, true_and] at hf
    subst hf
    exact hQ ha hs

/-! ## The hand-off of a sequence -/

theorem ends_openSequence {id : LoopId} {Q : SequenceId → Instance → Prop}
    (hQ : Q ⟨x.sequences.size, id⟩ { x with sequences := x.sequences.push .fresh }) :
    (Iterator.openSequence id).Ends x Q E :=
  ends_of_ok (on_openSequence id x) hQ

/-- A body that is not refused is behind those that came before it. -/
theorem ends_handOver {s : SequenceId} {body : Token} {Q : Iterator.Progress → Instance → Prop}
    (hE : ∀ e, E e (x.fail e))
    (hQ : ∀ p line, (x.handOff s).isClosed = false →
      Q p { x.setHandOff s { x.handOff s with queue := (x.handOff s).queue ++ [body] } with
        lines := x.lines.push line }) :
    (Iterator.handOver s body).Ends x Q E := by
  unfold Ends
  rw [on_handOver]
  cases hc : (x.handOff s).isClosed
  · have hoffer : ((x.handOff s).offer body).2 =
        { x.handOff s with queue := (x.handOff s).queue ++ [body] } := by
      simp [HandOff.offer, hc]
    cases hq : (x.handOff s).queue.isEmpty <;> simpa [hoffer] using hQ _ _ hc
  · simpa using hE _

theorem ends_closeSequence {s : SequenceId} {Q : Unit → Instance → Prop}
    (hQ : Q () { x.setHandOff s (x.handOff s).close with
      lines := x.lines.push (.sequenceClosed s.loop) }) :
    (Iterator.closeSequence s).Ends x Q E :=
  ends_of_ok (on_closeSequence s x) hQ

/-- A take finds nothing, or takes the oldest body, after which one that waited is handed over. -/
theorem ends_take? {s : SequenceId} {Q : Option Token → Instance → Prop}
    (hnone : (x.handOff s).queue = [] → Q none x)
    (hlast : ∀ t, (x.handOff s).queue = [t] →
      Q (some t) (x.setHandOff s { x.handOff s with queue := [] }))
    (hnext : ∀ t u rest, (x.handOff s).queue = t :: u :: rest →
      Q (some t) { x.setHandOff s { x.handOff s with queue := u :: rest } with
        lines := x.lines.push (.handedOver s.loop) }) :
    (Iterator.take? s).Ends x Q E := by
  unfold Ends
  rw [on_take?]
  cases hq : (x.handOff s).queue with
  | nil => simpa [HandOff.take?, hq] using hnone hq
  | cons t rest =>
    cases rest with
    | nil => simpa [HandOff.take?, hq] using hlast t hq
    | cons u rest => simpa [HandOff.take?, hq] using hnext t u rest hq

theorem ends_abandon {s : SequenceId} {Q : Unit → Instance → Prop}
    (hquiet : Q () (x.setHandOff s (x.handOff s).abandon))
    (hfail : ∀ e, Q () ((x.setHandOff s (x.handOff s).abandon).fail e)) :
    (Iterator.abandon s).Ends x Q E := by
  refine ends_of_ok (on_abandon s x) ?_
  split
  · exact hquiet
  · exact hfail _

end Act

end LoopProtocol
