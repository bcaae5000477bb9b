import LoopProtocol.Session.Move
import LoopProtocol.Proofs.ActLogic

/-!
# Calls

A session changes an instance only by a few kinds of actions, each made on a state or a sequence
that the driver was given before. A `Call` names one of them, `Call.act` is the action, and its
answer is what the driver is given for it.
-/

namespace LoopProtocol

/-- What a call gives the driver. -/
inductive Grant where
  | nothing
  | state (t : Token)
  /-- A sequence, and the state after its loop. -/
  | sequence (s : SequenceId) (after : Token)

namespace Grant

/-- The states among it. -/
def tokens : Grant → List Token
  | nothing => []
  | state t | sequence _ t => [t]

/-- What a callback loop gives: the state of the next body, or the one after the loop. -/
def ofTurn : Callback.Turn → Grant
  | .body t | .finished t => .state t

end Grant

/-- Uses a state in one of the ways that every site allows. -/
def Use.act (t : Token) : Use → Act Unit
  | .consume => t.consume
  | .send label => t.send label
  | .sendAfter id label => t.sendAfter id label
  | .terminate => t.terminate
  | .terminateAfter id => t.terminateAfter id

/-- An action that a session can perform on an instance. -/
inductive Call where
  /-- A state without a loop around it is given out. -/
  | issue (site : Site)
  | fork (t : Token)
  | setParam (name : String) (bound : UInt64)
  | use (t : Token) (u : Use)
  | send (t : Token) (point : SendPoint)
  | finish (t : Token) (closes : Option LoopId)
  | enter (shape : LoopShape) (head : Token)
  | exit (shape : LoopShape) (head : Token)
  | iterate (shape : LoopShape) (head : Token)
  | endIteration (tail : Token) (s : SequenceId) (nextBody : Site)
  | take (s : SequenceId)
  | abandon (s : SequenceId)
  | begin (shape : LoopShape) (head : Token)
  /-- The body of a callback loop returned this state. -/
  | giveBack (tail : Token)
  /-- A callback loop goes on after its body's last state, one of this instance, was consumed. -/
  | advance (shape : LoopShape) (tailOwner : InstanceId)
  /-- The body of a callback loop failed. -/
  | fail (fault : Fault)

namespace Call

/-- What a call does. -/
def act : Call → Act Grant
  | issue site => .state <$> Act.issue site none
  | fork t => .state <$> Act.issue .item t.feed
  | setParam name bound => (fun _ => .nothing) <$> Act.setParam name bound
  | use t u => (fun _ => .nothing) <$> u.act t
  | send t point => .state <$> t.sendAt point
  | finish t closes => (fun _ => .nothing) <$> t.finish closes
  | enter shape head => .state <$> Polling.enter shape head
  | exit shape head => .state <$> Polling.exit shape head
  | iterate shape head => (fun p => .sequence p.1 p.2) <$> Iterator.enter shape head
  | endIteration tail s nextBody => (fun _ => .nothing) <$> Iterator.endIteration tail s nextBody
  | take s => (fun t => t.elim .nothing .state) <$> Iterator.take? s
  | abandon s => (fun _ => .nothing) <$> Iterator.abandon s
  | begin shape head => .ofTurn <$> Callback.begin shape head
  | giveBack tail => (fun _ => .nothing) <$> tail.consume
  | advance shape _ => .ofTurn <$> Callback.advance shape
  | fail fault => (fun _ => .nothing) <$> (Act.abort fault : Act Unit)

/-- What a call relies on: the states that the instance gave before, and the shapes of the callback
loops that began on it. -/
def Legal (given : List Token) (begun : List LoopShape) : Call → Prop
  | issue _ | setParam _ _ | take _ | abandon _ => True
  | fork t => t ∈ given ∧ t.site = .item
  | use t _ => t ∈ given
  | send t point => t ∈ given ∧ t.site.send? = some point
  | finish t closes => t ∈ given ∧ t.site.end? = some (.protocol closes)
  | enter shape t | exit shape t => t ∈ given ∧ t.site.loop? .polling = some shape
  | iterate shape t => t ∈ given ∧ t.site.loop? .iterator = some shape
  | endIteration t s nextBody =>
    t ∈ given ∧ t.site.end? = some (.iteration nextBody) ∧ t.feed = some s
  | begin shape t => t ∈ given ∧ t.site.loop? .callback = some shape
  | giveBack t =>
    t ∈ given ∧ ∃ (site : Site) (shape : LoopShape),
      site.loop? .callback = some shape ∧ t.site = shape.tail
  | advance shape _ => shape ∈ begun
  | fail _ => begun ≠ []

/-- The state that a call uses. -/
def uses : Call → Option Token
  | use t _ | send t _ | finish t _ | enter _ t | exit _ t | iterate _ t | endIteration t _ _
  | begin _ t | giveBack t => some t
  | _ => none

/-- The loop head that a call enters. -/
def enters? : Call → Option LoopHead
  | enter shape _ | iterate shape _ | begin shape _ => some shape.head
  | _ => none

/-- Whether a call works on a sequence. -/
def streams : Call → Bool
  | iterate _ _ | endIteration _ _ _ | take _ | abandon _ => true
  | _ => false

/-- The callback loop that a call begins. -/
def begins : Call → List LoopShape
  | begin shape _ => [shape]
  | _ => []

/-- The states that a call gives. -/
def gains (c : Call) (x : Instance) : List Token :=
  match (c.act.on x).1 with
  | .ok grant => grant.tokens
  | .error _ => []

end Call

/-- What a call comes to, with all that it gives. -/
theorem Act.Ends.gains {P : List Token → Instance → Prop} {c : Call} {x : Instance}
    {given : List Token}
    (h : c.act.Ends x (fun grant => P (given ++ grant.tokens)) fun _ => P given) :
    P (given ++ c.gains x) (c.act.on x).2 := by
  unfold Act.Ends at h
  unfold Call.gains
  cases hon : c.act.on x with
  | mk r y => cases r <;> simpa [hon] using h

/-! ## Instances of a world -/

namespace World

variable {α β : Type} {w : World} {i j : InstanceId} {x : Instance}

theorem on_map (g : α → β) (a : Act α) :
    w.on i (g <$> a) = ((w.on i a).1.map g, (w.on i a).2) := by
  unfold on
  cases w.instance? i with
  | none => rfl
  | some x => simp

theorem on_map_eq_ok {g : α → β} {a : Act α} {v : β} (h : (w.on i (g <$> a)).1 = .ok v) :
    ∃ u, (w.on i a).1 = .ok u := by
  rw [on_map] at h
  cases hr : (w.on i a).1 with
  | ok u => exact ⟨u, rfl⟩
  | error e => simp [hr, Except.map] at h

theorem on_eq (hx : w.instance? i = some x) (a : Act α) :
    w.on i a = ((a.on x).1, w.publish i (a.on x).2 x.events.size x.lines.size) := by
  simp [on, hx]

theorem on_of_none (hx : w.instance? i = none) (a : Act α) :
    w.on i a = (.error (.engineFault (.abortedEarlier i)), w) := by simp [on, hx]

theorem instance?_on_self (hx : w.instance? i = some x) (a : Act α) :
    (w.on i a).2.instance? i = some (a.on x).2 := by
  rw [on_eq hx]
  unfold instance? at hx
  obtain ⟨hlt, -⟩ := Array.getElem?_eq_some_iff.1 hx
  simp [instance?, publish, hlt]

theorem instance?_on_of_ne (h : j ≠ i) (a : Act α) :
    (w.on i a).2.instance? j = w.instance? j := by
  have hne : i.index ≠ j.index := fun e => h (by cases i; cases j; simp_all)
  cases hx : w.instance? i with
  | none => rw [on_of_none hx]
  | some x => simp [on_eq hx, instance?, publish, Array.getElem?_setIfInBounds_ne hne]

/-- No instance is lost. -/
theorem exists_on (hx : w.instance? i = some x) (j : InstanceId) (a : Act α) :
    ∃ y, (w.on j a).2.instance? i = some y := by
  by_cases hij : i = j
  · subst hij
    exact ⟨_, instance?_on_self hx a⟩
  · exact ⟨x, (instance?_on_of_ne hij a).trans hx⟩

end World

end LoopProtocol
