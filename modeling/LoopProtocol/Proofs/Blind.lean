import LoopProtocol.Proofs.Recording
import LoopProtocol.Proofs.Routine
import LoopProtocol.Proofs.SessionDeeds
import LoopProtocol.Proofs.Attempt

/-!
# Steps that are blind to parameters

Of a session without the parameters of its instances (`Session.unbounded`) all steps but a few make
the same, whatever the parameters are: they neither look up a bound nor set a parameter (`Blind`).
-/

namespace LoopProtocol

/-! ## Instances without their parameters -/

/-- All of an instance but its parameters. -/
def Instance.unbounded (x : Instance) : Instance := { x with bounds := .empty }

namespace Instance

variable (x : Instance)

@[simp] theorem aborted_unbounded : x.unbounded.aborted = x.aborted := rfl

@[simp] theorem stack_unbounded : x.unbounded.stack = x.stack := rfl

@[simp] theorem id_unbounded : x.unbounded.id = x.id := rfl

@[simp] theorem isConsumed_unbounded (t : Token) : t.isConsumed x.unbounded = t.isConsumed x := rfl

@[simp] theorem handOff_unbounded (q : SequenceId) : x.unbounded.handOff q = x.handOff q := rfl

@[simp] theorem setHandOff_unbounded (q : SequenceId) (p : HandOff Token) :
    x.unbounded.setHandOff q p = (x.setHandOff q p).unbounded := rfl

@[simp] theorem fail_unbounded (e : Fault) : x.unbounded.fail e = (x.fail e).unbounded := by
  unfold fail unbounded
  split <;> rfl

theorem eq_of_unbounded {x y : Instance} (h : y.unbounded = x.unbounded) :
    y = { x with bounds := y.bounds } := by
  cases x
  cases y
  simp only [unbounded, Instance.mk.injEq] at h ⊢
  simp [h]

end Instance

namespace Act

variable {α β : Type} {x y : Instance}

/-- An action that does the same whatever the parameters are, and leaves them alone. -/
def Blind (a : Act α) : Prop :=
  ∀ x : Instance, a.on x.unbounded = ((a.on x).1, (a.on x).2.unbounded)

theorem blind_pure (v : α) : (pure v : Act α).Blind := fun _ => rfl

theorem Blind.bind {a : Act α} {f : α → Act β} (h : a.Blind) (hf : ∀ v, (f v).Blind) :
    (a >>= f).Blind := by
  intro x
  rw [on_bind, on_bind, h x]
  cases a.on x with
  | mk r y =>
    cases r with
    | ok v => exact hf v y
    | error e => rfl

/-- Done on two instances, the action is answered the same, and what it leaves differs in parameters
at most. -/
def Alike (a : Act α) (x y : Instance) : Prop :=
  (a.on y).1 = (a.on x).1 ∧ (a.on y).2.unbounded = (a.on x).2.unbounded

theorem Blind.alike {a : Act α} (h : a.Blind) (hxy : y.unbounded = x.unbounded) :
    a.Alike x y := by
  have hsame := h y
  rw [hxy, h x, Prod.mk.injEq] at hsame
  exact ⟨hsame.1.symm, hsame.2.symm⟩

theorem Alike.bind {a : Act α} {f : α → Act β} (h : a.Alike x y)
    (hf : ∀ v, (a.on x).1 = .ok v → (f v).Alike (a.on x).2 (a.on y).2) : (a >>= f).Alike x y := by
  obtain ⟨hanswer, hleft⟩ := h
  unfold Alike
  rw [on_bind, on_bind]
  cases hx : a.on x with
  | mk r x' =>
    cases hy : a.on y with
    | mk r' y' =>
      simp only [hx, hy] at hanswer hleft hf
      subst hanswer
      cases r' with
      | ok v => exact hf v rfl
      | error e => exact ⟨rfl, hleft⟩

theorem bounds_consume (t : Token) (x : Instance) : (t.consume.on x).2.bounds = x.bounds := by
  rw [on_consume]
  split
  · exact x.bounds_fail _
  · rfl

/-- The bound is looked up if the loop is not active. -/
theorem alike_activate {id : LoopId} {param : String} (hxy : y.unbounded = x.unbounded)
    (hbound : x.aborted = false → x.stack.contains id = false →
      y.bounds.bound param = x.bounds.bound param) : (activate id param).Alike x y := by
  obtain ⟨b, rfl⟩ : ∃ b, y = { x with bounds := b } := ⟨y.bounds, Instance.eq_of_unbounded hxy⟩
  unfold Alike
  rw [on_activate, on_activate]
  cases ha : x.aborted with
  | true => simp [ha, Instance.unbounded]
  | false =>
    cases ht : x.stack.onTop? id with
    | some p => simp [Instance.unbounded]
    | none =>
      cases hc : x.stack.contains id with
      | true => simp [Instance.unbounded, Instance.fail, ha]
      | false =>
        have hb : b.bound param = x.bounds.bound param := hbound ha hc
        cases hx : x.bounds.bound param <;>
          simp [hb, hx, Instance.unbounded, Instance.fail, ha]

end Act

open Act

/-- An operation that neither looks up a bound nor sets a parameter. -/
def Operation.IsBlind {α : Type} : Operation α → Prop
  | activate _ | setParam _ _ => False
  | _ => True

theorem Operation.blind {α : Type} (o : Operation α) (h : o.IsBlind := by trivial) :
    o.act.Blind := by
  intro x
  cases o with
  | activate head | setParam name bound => exact h.elim
  | iteration frame | accept label | issue site feed | openSequence id | closeSequence s => rfl
  | consume t =>
    simp only [Operation.act, on_consume, Instance.isConsumed_unbounded, Instance.fail_unbounded]
    split <;> rfl
  | complete id =>
    simp only [Operation.act, on_complete]
    cases ha : x.aborted <;> cases ht : x.stack.onTop? id <;> simp [ha, ht]
    rfl
  | exit id =>
    simp only [Operation.act, on_exit]
    cases ha : x.aborted <;> rcases ht : x.stack.onTop? id with _ | ⟨top, below⟩ <;>
      simp [ha, ht]
    cases top.hasNext <;> simp
    rfl
  | ensureClosed id =>
    simp only [Operation.act, on_ensureClosed]
    cases ha : x.aborted <;> cases ht : x.stack.find? id <;> simp [ha, ht]
  | terminate =>
    simp only [Operation.act, on_terminate]
    cases ha : x.aborted <;> cases ht : x.stack.top? <;> simp [ha, ht]
    rfl
  | handOver s body =>
    simp only [Operation.act, on_handOver]
    cases hc : (x.handOff s).isClosed with
    | true => simp [hc]
    | false => cases hq : (x.handOff s).queue.isEmpty <;> simp [hc, hq] <;> rfl
  | take s =>
    simp only [Operation.act, on_take?]
    rcases ht : (x.handOff s).take? with _ | ⟨t, p⟩ <;> simp [ht]
    split <;> rfl
  | abandon s =>
    simp only [Operation.act, on_abandon]
    cases hw : (x.handOff s).waiting.isEmpty <;> simp [hw]
  | abort e =>
    simp only [Operation.act, on_abort_fail, Instance.fail_unbounded]

/-! ## Transitions -/

section Transitions

open Routine

variable {α : Type} {x y : Instance}

theorem Routine.MadeOf.blind {r : Routine α} (h : r.MadeOf Operation.IsBlind) : r.run.Blind :=
  h.run blind_pure (fun _ _ => Blind.bind) fun o ho => o.blind ho

theorem madeOf_use (t : Token) (u : Use) : (Routine.use t u).MadeOf Operation.IsBlind := by
  cases u <;> simp [Routine.use, Operation.IsBlind]

theorem madeOf_callbackTurn (shape : LoopShape) (f : Frame) :
    (callbackTurn shape f).MadeOf Operation.IsBlind := by
  unfold callbackTurn
  split <;> simp [Operation.IsBlind]

theorem madeOf_iteratorTurn (q : SequenceId) (f : Frame) (body : Site) :
    (iteratorTurn q f body).MadeOf Operation.IsBlind := by
  unfold iteratorTurn
  split <;> simp [Operation.IsBlind]

theorem blind_use (t : Token) (u : Use) : (u.act t).Blind := by
  rw [← run_use]
  exact (madeOf_use t u).blind

theorem blind_sendAt (t : Token) (point : SendPoint) : (t.sendAt point).Blind := by
  rw [← run_sendAt]
  refine MadeOf.blind ?_
  unfold Routine.sendAt
  cases point.closes <;> exact (madeOf_use t _).bind fun _ => (madeOf_once _).2 trivial

theorem blind_finish (t : Token) (closes : Option LoopId) : (t.finish closes).Blind := by
  cases closes with
  | none => exact blind_use t .terminate
  | some id => exact blind_use t (.terminateAfter id)

theorem blind_exit (shape : LoopShape) (t : Token) : (Polling.exit shape t).Blind := by
  rw [← run_pollingExit]
  exact MadeOf.blind (by simp [pollingExit, Operation.IsBlind])

theorem blind_endIteration (t : Token) (q : SequenceId) (body : Site) :
    (Iterator.endIteration t q body).Blind := by
  rw [← run_endIteration]
  exact MadeOf.blind (by simp [Routine.endIteration, Operation.IsBlind, madeOf_iteratorTurn])

theorem blind_advance (shape : LoopShape) : (Callback.advance shape).Blind := by
  rw [← run_callbackAdvance]
  exact MadeOf.blind (by simp [callbackAdvance, Operation.IsBlind, madeOf_callbackTurn])

end Transitions

/-! ## Worlds -/

/-- All of a world but the parameters of its instances. -/
def World.unbounded (w : World) : World := { w with instances := w.instances.map .unbounded }

namespace World

variable {α : Type} {w v : World} {i : InstanceId}

@[simp] theorem instance?_unbounded (w : World) (i : InstanceId) :
    w.unbounded.instance? i = (w.instance? i).map Instance.unbounded := by
  simp [instance?, unbounded]

theorem publish_unbounded (w : World) (i : InstanceId) (x : Instance) (events lines : Nat) :
    (w.publish i x events lines).unbounded = w.unbounded.publish i x.unbounded events lines := by
  simp [publish, unbounded]
  exact ⟨rfl, rfl⟩

/-- An instance that reported nothing is put back. -/
theorem publish_self {x : Instance} (hx : w.instance? i = some x) :
    w.publish i x x.events.size x.lines.size = w := by
  obtain ⟨hlt, hget⟩ := Array.getElem?_eq_some_iff.1 hx
  have hinstances : w.instances.setIfInBounds i.index x = w.instances := by
    simp [Array.setIfInBounds, hlt, ← hget]
  have hevents : x.events.extract x.events.size x.events.size = #[] := by simp
  have hlines : x.lines.extract x.lines.size x.lines.size = #[] := by simp
  simp only [publish, hinstances, hevents, hlines, Array.map_empty, Array.append_empty]
  cases x.recorder with
  | none => rfl
  | some r => simp only [Recorders.hear_nothing]

/-- What is published of instances that differ in parameters at most. -/
theorem publish_congr (h : v.unbounded = w.unbounded) {x y : Instance}
    (hxy : y.unbounded = x.unbounded) (i : InstanceId) (events lines : Nat) :
    (v.publish i y events lines).unbounded = (w.publish i x events lines).unbounded := by
  rw [publish_unbounded, publish_unbounded, h, hxy]

theorem exists_of_unbounded (h : v.unbounded = w.unbounded) {x : Instance}
    (hx : w.instance? i = some x) : ∃ y, v.instance? i = some y ∧ y.unbounded = x.unbounded := by
  have hsame := congrArg (·.instance? i) h
  simpa [hx] using hsame

theorem instance?_eq_none (h : v.unbounded = w.unbounded) (hx : w.instance? i = none) :
    v.instance? i = none := by
  have hsame := congrArg (·.instance? i) h
  simpa [hx] using hsame

/-- What is done in worlds that differ in parameters at most. -/
theorem on_congr {a : Act α} (h : v.unbounded = w.unbounded)
    (ha : ∀ x y, w.instance? i = some x → v.instance? i = some y → a.Alike x y) :
    (v.on i a).1 = (w.on i a).1 ∧ (v.on i a).2.unbounded = (w.on i a).2.unbounded := by
  cases hx : w.instance? i with
  | none =>
    rw [on_of_none hx, on_of_none (instance?_eq_none h hx)]
    exact ⟨rfl, h⟩
  | some x =>
    obtain ⟨y, hy, hxy⟩ := exists_of_unbounded h hx
    obtain ⟨hanswer, hleft⟩ := ha x y hx hy
    have hevents : y.events = x.events := congrArg (·.events) hxy
    have hlines : y.lines = x.lines := congrArg (·.lines) hxy
    rw [on_eq hx, on_eq hy, hevents, hlines]
    exact ⟨hanswer, publish_congr h hleft i _ _⟩

/-- A parameter is set, and nothing else is changed. -/
theorem unbounded_setParam (w : World) (i : InstanceId) (name : String) (bound : UInt64) :
    (w.on i (Act.setParam name bound)).2.unbounded = w.unbounded := by
  cases hx : w.instance? i with
  | none => rw [on_of_none hx]
  | some x =>
    rw [on_eq hx, on_setParam, publish_unbounded]
    exact publish_self (by rw [instance?_unbounded, hx]; rfl)

end World

/-- All of a session but the parameters of its instances. -/
def Session.unbounded (s : Session) : Session := { s with world := s.world.unbounded }

/-! ## Steps of a session -/

namespace SessionM

variable {α β : Type} {s t : Session}

/-- Made in two sessions, the steps are answered the same, and what they leave differs in parameters
at most. -/
def Alike (s t : Session) (a : SessionM α) : Prop :=
  (a.run t).1 = (a.run s).1 ∧ (a.run t).2.unbounded = (a.run s).2.unbounded

/-- Steps that are the same whatever the parameters are. -/
def Blind (a : SessionM α) : Prop := ∀ s t : Session, t.unbounded = s.unbounded → Alike s t a

theorem Alike.bind {a : SessionM α} {f : α → SessionM β} (h : Alike s t a)
    (hf : ∀ v, Blind (f v)) : Alike s t (a >>= f) := by
  obtain ⟨hanswer, hleft⟩ := h
  have hrun : (a >>= f).run t = (f (a.run s).1).run (a.run t).2 := by
    rw [← hanswer]
    rfl
  unfold Alike
  rw [hrun]
  exact hf _ _ _ hleft

theorem blind_pure (v : α) : Blind (pure v : SessionM α) := fun _ _ h => ⟨rfl, h⟩

theorem Blind.bind {a : SessionM α} {f : α → SessionM β} (h : Blind a) (hf : ∀ v, Blind (f v)) :
    Blind (a >>= f) := fun s t hst => (h s t hst).bind hf

theorem Blind.discard {a : SessionM α} (h : Blind a) : Blind (discard a) :=
  fun s t hst => ⟨rfl, (h s t hst).2⟩

/-- An action that looks up no bound that differs. -/
theorem alike_on {i : InstanceId} {a : Act α} (h : t.unbounded = s.unbounded)
    (ha : ∀ x y, s.world.instance? i = some x → t.world.instance? i = some y → a.Alike x y) :
    Alike s t (on i a) := by
  have hworld : t.world.unbounded = s.world.unbounded := congrArg (·.world) h
  have hvars : t.vars = s.vars := congrArg (·.vars) h
  have hrunning : t.running = s.running := congrArg (·.running) h
  obtain ⟨hanswer, hleft⟩ := World.on_congr hworld ha
  refine ⟨hanswer, ?_⟩
  show Session.mk (t.world.on i a).2.unbounded t.vars t.running =
    Session.mk (s.world.on i a).2.unbounded s.vars s.running
  rw [hleft, hvars, hrunning]

theorem blind_on {i : InstanceId} {a : Act α} (ha : a.Blind) : Blind (on i a) := by
  intro s t h
  refine alike_on h fun x y hx hy => ha.alike ?_
  have hworld : t.world.unbounded = s.world.unbounded := congrArg (·.world) h
  obtain ⟨y', hy', hxy⟩ := World.exists_of_unbounded hworld hx
  obtain rfl := Option.some.inj (hy.symm.trans hy')
  exact hxy

/-- Sessions that differ in parameters at most differ in their worlds at most. -/
theorem exists_world (h : t.unbounded = s.unbounded) :
    ∃ w : World, w.unbounded = s.world.unbounded ∧ t = { s with world := w } := by
  refine ⟨t.world, congrArg (·.world) h, ?_⟩
  have hvars : t.vars = s.vars := congrArg (·.vars) h
  have hrunning : t.running = s.running := congrArg (·.running) h
  rw [← hvars, ← hrunning]

theorem unbounded_congr {w : World} (h : w.unbounded = s.world.unbounded) (vs : Variables)
    (loops : List RunningLoop) :
    (Session.mk w vs loops).unbounded = (Session.mk s.world vs loops).unbounded := by
  unfold Session.unbounded
  rw [h]

theorem blind_remove (name : String) : Blind (remove name) := by
  intro s t h
  obtain ⟨w, hw, rfl⟩ := exists_world h
  exact ⟨rfl, unbounded_congr hw _ _⟩

theorem blind_release (held : Option Holding) : Blind (release held) := by
  rcases held with _ | _ | ⟨owner, q⟩
  · exact blind_pure ()
  · exact blind_pure ()
  · exact (blind_on (Operation.blind (.abandon q))).discard

theorem blind_store (name : String) (held : Holding) : Blind (store name held) := by
  refine (blind_remove name).bind fun before => Blind.bind ?_ fun _ => blind_release before
  intro s t h
  obtain ⟨w, hw, rfl⟩ := exists_world h
  exact ⟨rfl, unbounded_congr hw _ _⟩

theorem blind_give (dest : String) (owner : InstanceId) (token : Token) :
    Blind (give dest owner token) := (blind_store dest _).bind fun _ => blind_pure _

theorem blind_answer (reply : Reply) (r : Except Fault α) : Blind (answer reply r) := by
  cases r <;> exact blind_pure _

/-- A state is given, and stored. -/
theorem blind_giving (dest : String) (owner : InstanceId) (r : Except Fault Token) :
    Blind (match r with
      | .ok token => give dest owner token
      | .error fault => pure (.fault fault)) := by
  cases r with
  | ok token => exact blind_give dest owner token
  | error fault => exact blind_pure _

/-! ## What a step works on -/

theorem alike_withState (h : t.unbounded = s.unbounded) {name : String}
    {f : Handle → SessionM Reply}
    (hf : ∀ g, s.vars.get? name = some (.state g) → Alike s t (f g)) :
    Alike s t (withState name f) := by
  obtain ⟨w, hw, rfl⟩ := exists_world h
  unfold Alike
  simp only [withState, StateT.run_bind, StateT.run_get, pure_bind]
  split
  · next g hget => exact hf g hget
  · exact blind_pure _ _ _ h
  · exact blind_pure _ _ _ h

theorem blind_withState {name : String} {f : Handle → SessionM Reply} (hf : ∀ g, Blind (f g)) :
    Blind (withState name f) := fun s t h => alike_withState h fun g _ => hf g s t h

theorem blind_withSequence {name : String} {f : InstanceId → SequenceId → SessionM Reply}
    (hf : ∀ owner q, Blind (f owner q)) : Blind (withSequence name f) := by
  intro s t h
  obtain ⟨w, hw, rfl⟩ := exists_world h
  unfold Alike
  simp only [withSequence, StateT.run_bind, StateT.run_get, pure_bind]
  split
  · exact hf _ _ _ _ h
  · exact blind_pure _ _ _ h
  · exact blind_pure _ _ _ h

/-- What is done with an instance depends on all of it but its parameters. -/
theorem blind_withInstance {i : InstanceId} {f : Instance → SessionM Reply}
    (hf : ∀ x, Blind (f x)) (hsame : ∀ x y, y.unbounded = x.unbounded → f y = f x) :
    Blind (withInstance i f) := by
  intro s t h
  have hworld : t.world.unbounded = s.world.unbounded := congrArg (·.world) h
  unfold Alike
  simp only [withInstance, StateT.run_bind, StateT.run_get, pure_bind]
  cases hx : s.world.instance? i with
  | none =>
    rw [World.instance?_eq_none hworld hx]
    exact blind_pure _ _ _ h
  | some x =>
    obtain ⟨y, hy, hxy⟩ := World.exists_of_unbounded hworld hx
    rw [hy]
    dsimp only
    rw [hsame x y hxy]
    exact hf x s t h

theorem unbounded_moveOut (h : t.unbounded = s.unbounded) (source : Source) :
    (t.moveOut source).unbounded = (s.moveOut source).unbounded := by
  obtain ⟨w, hw, rfl⟩ := exists_world h
  unfold Session.moveOut
  split
  · exact h
  · exact unbounded_congr hw _ _

theorem alike_withSource (h : t.unbounded = s.unbounded) {source : Source}
    {possible : Site → Option α} {f : Handle → α → SessionM Reply}
    (hf : ∀ g v, s.vars.get? source.name = some (.state g) → possible g.token.site = some v →
      Alike (s.moveOut source) (t.moveOut source) (f g v)) :
    Alike s t (withSource source possible f) := by
  refine alike_withState h fun g hget => ?_
  cases hv : possible g.token.site with
  | none => exact blind_pure _ _ _ h
  | some v =>
    have hmoved := hf g v hget hv
    unfold Session.moveOut at hmoved
    cases hkeep : source.keep <;> rw [hkeep] at hmoved <;> exact hmoved

theorem blind_withSource {source : Source} {possible : Site → Option α}
    {f : Handle → α → SessionM Reply} (hf : ∀ g v, Blind (f g v)) :
    Blind (withSource source possible f) := fun _ _ h =>
  alike_withSource h fun g v _ _ => hf g v _ _ (unbounded_moveOut h source)

/-! ## What a step does -/

theorem blind_take (owner : InstanceId) (q : SequenceId) (dest : String) :
    Blind (take owner q dest) := by
  refine (blind_on (Operation.blind (.take q))).bind fun r => ?_
  match r with
  | .ok (some token) => exact (blind_store dest _).bind fun _ => blind_pure _
  | .ok none =>
    intro s t h
    obtain ⟨w, hw, rfl⟩ := exists_world h
    have hclosed : ((w.instance? owner).any fun x => (x.handOff q).isClosed) =
        (s.world.instance? owner).any fun x => (x.handOff q).isClosed := by
      cases hx : s.world.instance? owner with
      | none => rw [World.instance?_eq_none hw hx]
      | some x =>
        obtain ⟨y, hy, hxy⟩ := World.exists_of_unbounded hw hx
        have hsequences : y.sequences = x.sequences := congrArg (·.sequences) hxy
        simp [hy, Instance.handOff, hsequences]
    unfold Alike
    simp only [StateT.run_bind, StateT.run_get, pure_bind, hclosed]
    split <;> exact blind_pure _ _ _ h
  | .error _ => exact blind_pure _

theorem blind_finishing (g : Handle) (point : EndPoint) : Blind (finish g point) := by
  unfold finish
  cases point with
  | protocol closes => exact (blind_on (blind_finish g.token closes)).bind fun r => blind_answer _ r
  | iteration nextBody =>
    dsimp only
    split
    · exact blind_pure _
    · refine (blind_on (blind_endIteration g.token _ nextBody)).bind fun r => ?_
      split <;> exact blind_pure _

theorem blind_useState (g : Handle) (u : Use) : Blind (useState g u) := by
  have hact := blind_use g.token u
  cases u <;> exact (blind_on hact).bind fun r => blind_answer _ r

theorem blind_takeTurn (loop : RunningLoop) (r : Except Fault Callback.Turn) :
    Blind (takeTurn loop r) := by
  match r with
  | .ok (.body entry) =>
    refine Blind.bind ?_ fun _ => (blind_store bodyVariable _).bind fun _ => blind_pure _
    intro s t h
    obtain ⟨w, hw, rfl⟩ := exists_world h
    exact ⟨rfl, unbounded_congr hw _ _⟩
  | .ok (.finished after) => exact blind_give loop.dest loop.owner after
  | .error fault => exact blind_pure _

theorem blind_bodyFailed (loop : RunningLoop) (fault : Fault) : Blind (bodyFailed loop fault) :=
  (blind_on (Operation.blind (.abort fault : Operation Unit))).bind fun r => blind_answer _ r

theorem blind_bodyReturned (loop : RunningLoop) (held : Option Holding) :
    Blind (bodyReturned loop held) := by
  rcases held with _ | tail | ⟨owner, q⟩
  · exact (blind_release none).bind fun _ => blind_bodyFailed loop noTail
  · unfold bodyReturned
    dsimp only
    split
    · refine (blind_on (Operation.blind (.consume tail.token))).bind fun r => ?_
      cases r with
      | ok v => exact (blind_on (blind_advance loop.shape)).bind fun r => blind_takeTurn loop r
      | error fault => exact blind_pure _
    · exact blind_bodyFailed loop noTail
  · exact (blind_release _).bind fun _ => blind_bodyFailed loop noTail

theorem blind_returning {f : RunningLoop → SessionM Reply} (hf : ∀ loop, Blind (f loop)) :
    Blind (returning f) := by
  intro s t h
  obtain ⟨w, hw, rfl⟩ := exists_world h
  unfold Alike
  simp only [returning, StateT.run_bind, StateT.run_get, pure_bind]
  split
  · exact hf _ _ _ (unbounded_congr hw _ _)
  · exact blind_pure _ _ _ h

end SessionM

end LoopProtocol
