import LoopProtocol.Proofs.Call

/-!
# Invariants of all calls

A transition is a chain of basic actions, and between two of them an instance may be in a state
that no driver ever sees: the frame of a loop is already advanced and the iteration not yet
reported. An `Invariant P A` says what each basic action needs and keeps, with `P` for the instances
that a driver sees and `A` for those in between. Every call then keeps `P`. An `Invariant P A T`
needs not survive the use of states other than those of which `T` holds, and calls that use no other
state keep it. An `Invariant P A T E` survives as `E` when a call fails, and an
`Invariant P A T E H` needs only survive the entering of heads of which `H` holds. A
`StackInvariant` says nothing of sequences, and calls that work on none keep it.
-/

namespace LoopProtocol

open Act

/-- `P` is kept by the basic actions of every transition; `A f` holds from when the frame `f` is
started or advanced until its turn is decided. -/
structure StackInvariant (P : Instance → Prop) (A : Frame → Instance → Prop)
    (T : Token → Prop := fun _ => True) (E : Instance → Prop := P)
    (H : LoopHead → Prop := fun _ => True) : Prop where
  fail : ∀ {x}, P x → ∀ e, E (x.fail e)
  failAhead : ∀ {f x}, A f x → ∀ e, E (x.fail e)
  consume : ∀ t : Token, T t → t.consume.Keeps P E
  issue : ∀ site feed, (Act.issue site feed).Keeps P E
  setParam : ∀ name bound, (Act.setParam name bound).Keeps P E
  accept : ∀ label, (Act.accept label).Keeps P E
  ensureClosed : ∀ id, (Act.ensureClosed id).Keeps P E
  terminate : Act.terminate.Keeps P E
  activate : ∀ {x} (head : LoopHead), H head → P x →
    (Act.activate head.id head.param).Ends x A fun _ => E
  complete : ∀ {x} id, P x → (Act.complete id).Ends x A fun _ => E
  iteration : ∀ {f x}, A f x → f.canEnter = true →
    (Act.iteration f).Ends x (fun _ => P) fun _ => E
  exitAhead : ∀ {f x} id, A f x → f.canEnter = false →
    (Act.exit id).Ends x (fun _ => P) fun _ => E
  exit : ∀ id, (Act.exit id).Keeps P E

/-- `P` is kept by the basic actions on sequences as well. -/
structure Invariant (P : Instance → Prop) (A : Frame → Instance → Prop)
    (T : Token → Prop := fun _ => True) (E : Instance → Prop := P)
    (H : LoopHead → Prop := fun _ => True) : Prop extends StackInvariant P A T E H where
  openAhead : ∀ {f x} id, A f x →
    (Iterator.openSequence id).Ends x (fun _ => A f) fun _ => E
  deliver : ∀ {f x} s body, A f x → f.canEnter = true →
    (do Act.iteration f; Iterator.handOver s (← Act.issue body (some s))).Ends x
      (fun _ => P) fun _ => E
  close : ∀ s, (Iterator.closeSequence s).Keeps P E
  take : ∀ s, (Iterator.take? s).Keeps P E
  abandon : ∀ s, (Iterator.abandon s).Keeps P E

/-! ## Chains of actions -/

namespace Act

variable {α β : Type} {P E : Instance → Prop}

theorem keeps_pure (v : α) : (pure v : Act α).Keeps P E := fun _ hx => ends_pure hx

theorem Keeps.bind {a : Act α} {f : α → Act β} (h : a.Keeps P E) (hf : ∀ v, (f v).Keeps P E) :
    (a >>= f).Keeps P E :=
  fun x hx => (h x hx).andThen fun v y hy => hf v y hy

theorem Keeps.map {a : Act α} (h : a.Keeps P E) (g : α → β) : (g <$> a).Keeps P E :=
  fun x hx => (h x hx).map

/-- The action consumes the state first, and what it does then keeps `P`. -/
def ConsumesFirst (a : Act α) (t : Token) (P E : Instance → Prop) : Prop :=
  ∃ f : Unit → Act α, a = t.consume >>= f ∧ ∀ v, (f v).Keeps P E

namespace ConsumesFirst

variable {a : Act α} {t : Token}

theorem of_bind {f : Unit → Act α} (hf : ∀ v, (f v).Keeps P E) :
    (t.consume >>= f).ConsumesFirst t P E := ⟨f, rfl, hf⟩

theorem bind {g : α → Act β} (h : a.ConsumesFirst t P E) (hg : ∀ v, (g v).Keeps P E) :
    (a >>= g).ConsumesFirst t P E := by
  obtain ⟨f, rfl, hf⟩ := h
  rw [bind_assoc]
  exact of_bind fun v => (hf v).bind hg

theorem map (h : a.ConsumesFirst t P E) (g : α → β) : (g <$> a).ConsumesFirst t P E := by
  rw [map_eq_pure_bind]
  exact h.bind fun _ => keeps_pure _

theorem keeps (h : a.ConsumesFirst t P E) (ht : t.consume.Keeps P E) : a.Keeps P E := by
  obtain ⟨f, rfl, hf⟩ := h
  exact ht.bind hf

end ConsumesFirst

end Act

namespace StackInvariant

variable {P : Instance → Prop} {A : Frame → Instance → Prop} {T : Token → Prop}
  {E : Instance → Prop} {H : LoopHead → Prop} (h : StackInvariant P A T E H)
include h

theorem abort (e : Fault) : (Act.abort e : Act Unit).Keeps P E :=
  fun _ hx => ends_abort (h.fail hx e)

theorem use (t : Token) (u : Use) : (u.act t).ConsumesFirst t P E := by
  cases u with
  | consume =>
    have hact : Use.consume.act t = t.consume >>= pure := (bind_pure t.consume).symm
    rw [hact]
    exact .of_bind fun _ => keeps_pure _
  | send label => exact .of_bind fun _ => h.accept label
  | sendAfter id label => exact .of_bind fun _ => (h.ensureClosed id).bind fun _ => h.accept label
  | terminate => exact .of_bind fun _ => h.terminate
  | terminateAfter id => exact .of_bind fun _ => (h.ensureClosed id).bind fun _ => h.terminate

theorem sendAt (t : Token) (point : SendPoint) : (t.sendAt point).ConsumesFirst t P E := by
  unfold Token.sendAt
  cases point.closes with
  | none => exact (h.use t (.send point.label)).bind fun _ => h.issue point.next t.feed
  | some id => exact (h.use t (.sendAfter id point.label)).bind fun _ => h.issue point.next t.feed

theorem finish (t : Token) (closes : Option LoopId) : (t.finish closes).ConsumesFirst t P E := by
  cases closes with
  | none => exact h.use t .terminate
  | some id => exact h.use t (.terminateAfter id)

theorem pollingEnter {shape : LoopShape} (hhead : H shape.head) (head : Token) :
    (Polling.enter shape head).ConsumesFirst head P E := by
  refine .of_bind fun _ y hy => ?_
  refine (h.activate shape.head hhead hy).andThen fun f z hz => ?_
  cases hf : f.canEnter
  · exact ends_abort (h.failAhead hz _)
  · exact (h.iteration hz hf).andThen fun _ => h.issue shape.body none

theorem pollingExit (shape : LoopShape) (head : Token) :
    (Polling.exit shape head).ConsumesFirst head P E :=
  .of_bind fun _ => (h.exit shape.head.id).bind fun _ => h.issue shape.after none

theorem callbackTurn {f : Frame} {x : Instance} (hx : A f x) (shape : LoopShape) :
    (Callback.turn shape f).Ends x (fun _ => P) fun _ => E := by
  unfold Callback.turn
  cases hf : f.canEnter
  · refine (h.exitAhead shape.head.id hx hf).andThen fun _ y hy => ?_
    exact (h.issue shape.after none y hy).andThen fun _ => keeps_pure _
  · refine (h.iteration hx hf).andThen fun _ y hy => ?_
    exact (h.issue shape.body none y hy).andThen fun _ => keeps_pure _

theorem callbackBegin {shape : LoopShape} (hhead : H shape.head) (head : Token) :
    (Callback.begin shape head).ConsumesFirst head P E :=
  .of_bind fun _ _ hy =>
    (h.activate shape.head hhead hy).andThen fun _ _ hz => h.callbackTurn hz shape

theorem callbackAdvance (shape : LoopShape) : (Callback.advance shape).Keeps P E := fun _ hx =>
  (h.complete shape.head.id hx).andThen fun _ _ hy => h.callbackTurn hy shape

/-- A call that works on no sequence consumes the state that it uses before all else. -/
theorem consumesFirst {c : Call} {t : Token} (hs : c.streams = false) (hc : c.uses = some t)
    (hhead : ∀ head, c.enters? = some head → H head) : c.act.ConsumesFirst t P E := by
  cases c <;> cases hc <;> cases hs
  case use u => exact (h.use t u).map _
  case send point => exact (h.sendAt t point).map _
  case finish closes => exact (h.finish t closes).map _
  case enter shape => exact (h.pollingEnter (hhead _ rfl) t).map _
  case exit shape => exact (h.pollingExit shape t).map _
  case begin shape => exact (h.callbackBegin (hhead _ rfl) t).map _
  case giveBack => exact (h.use t .consume).map _

/-- What the basic actions on the stack keep, every call keeps that works on no sequence. -/
theorem keeps {c : Call} (hs : c.streams = false) (hc : ∀ t, c.uses = some t → T t)
    (hhead : ∀ head, c.enters? = some head → H head := by exact fun _ _ => trivial) :
    c.act.Keeps P E := by
  cases huses : c.uses with
  | some t => exact (h.consumesFirst hs huses hhead).keeps (h.consume t (hc t huses))
  | none =>
    cases c with
    | issue site => exact (h.issue site none).map _
    | fork t => exact (h.issue .item t.feed).map _
    | setParam name bound => exact (h.setParam name bound).map _
    | advance shape j => exact (h.callbackAdvance shape).map _
    | fail fault => exact (h.abort fault).map _
    | take s | abandon s => cases hs
    | _ => cases huses

end StackInvariant

namespace Invariant

variable {P : Instance → Prop} {A : Frame → Instance → Prop} {T : Token → Prop}
  {E : Instance → Prop} {H : LoopHead → Prop} (h : Invariant P A T E H)
include h

theorem iteratorTurn {f : Frame} {x : Instance} (hx : A f x) (s : SequenceId) (body : Site) :
    (Iterator.turn s f body).Ends x (fun _ => P) fun _ => E := by
  unfold Iterator.turn
  cases hf : f.canEnter
  · refine (h.exitAhead s.loop hx hf).andThen fun _ y hy => ?_
    exact (h.close s y hy).andThen fun _ => keeps_pure _
  · exact h.deliver s body hx hf

theorem iteratorEnter {shape : LoopShape} (hhead : H shape.head) (head : Token) :
    (Iterator.enter shape head).ConsumesFirst head P E := by
  refine .of_bind fun _ y hy => ?_
  refine (h.activate shape.head hhead hy).andThen fun f z hz => ?_
  refine (h.openAhead shape.head.id hz).andThen fun s w hw => ?_
  refine (h.iteratorTurn hw s shape.body).andThen fun _ v hv => ?_
  exact (h.issue shape.after head.feed v hv).andThen fun _ => keeps_pure _

theorem endIteration (tail : Token) (s : SequenceId) (nextBody : Site) :
    (Iterator.endIteration tail s nextBody).ConsumesFirst tail P E :=
  .of_bind fun _ _ hy =>
    (h.complete s.loop hy).andThen fun _ _ hz => h.iteratorTurn hz s nextBody

/-- **A call consumes the state that it uses before all else.** -/
theorem consumesFirst {c : Call} {t : Token} (hc : c.uses = some t)
    (hhead : ∀ head, c.enters? = some head → H head := by exact fun _ _ => trivial) :
    c.act.ConsumesFirst t P E := by
  cases c with
  | iterate shape head =>
    cases hc
    exact (h.iteratorEnter (hhead _ rfl) t).map _
  | endIteration tail q nextBody =>
    cases hc
    exact (h.endIteration t q nextBody).map _
  | take q | abandon q => cases hc
  | _ => exact h.toStackInvariant.consumesFirst rfl hc hhead

/-- **What the basic actions keep, every call keeps**, whether it succeeds or fails. -/
theorem keeps {c : Call} (hc : ∀ t, c.uses = some t → T t)
    (hhead : ∀ head, c.enters? = some head → H head := by exact fun _ _ => trivial) :
    c.act.Keeps P E := by
  cases c with
  | iterate shape head => exact (h.consumesFirst rfl hhead).keeps (h.consume head (hc head rfl))
  | endIteration tail q nextBody =>
    exact (h.consumesFirst rfl hhead).keeps (h.consume tail (hc tail rfl))
  | take q => exact (h.take q).map _
  | abandon q => exact (h.abandon q).map _
  | _ => exact h.toStackInvariant.keeps rfl hc hhead

omit h in
/-- An invariant that the use of any state keeps is kept by every call. -/
theorem call (h : Invariant P A (fun _ => True) E) (c : Call) : c.act.Keeps P E :=
  h.keeps fun _ _ => trivial

end Invariant

end LoopProtocol
