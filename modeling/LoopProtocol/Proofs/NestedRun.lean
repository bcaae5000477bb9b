import LoopProtocol.Proofs.CallbackConformance
import LoopProtocol.Proofs.Issued

/-!
# Runs of the nested protocol on any surface

A driver starts the nested protocol on an instance at most once, and works with that instance
through the transitions of its states alone, in whatever order, with whatever aliases. What it does
with other instances does not matter. This module carries such a run over to the deeds of its
session, on which the invariants of the three surfaces hold.
-/

namespace LoopProtocol

open Nested

/-- Whether a move is one of a driver of the nested protocol on the instance. Of the instance it
gets no state but the protocol's first and what follows it; it uses these by their transitions
alone; and the bodies of the instance's loops end with states of the instance. -/
def Session.follows (s : Session) (surface : Surface) (i : InstanceId) : Move → Bool
  | .act (.issue site j _) => j = i → site = Nested.start surface
  | .act (.use of _) => (s.stateIn? of).all fun h => h.owner ≠ i
  | .returnState name =>
    s.running.head?.all fun loop => (s.stateIn? name).all fun h => loop.owner = i → h.owner = i
  | _ => true

/-- The moves of a driver that runs the nested protocol on the instance once, from the session
on. -/
structure NestedRun (surface : Surface) (i : InstanceId) (s : Session) (moves : List Move) :
    Prop where
  follows : ∀ before m later, moves = before ++ m :: later →
    (s.after before).follows surface i m = true
  once : moves.countP (Move.startsOn i) ≤ 1

namespace NestedRun

variable {surface : Surface} {i : InstanceId} {s : Session} {moves moves' : List Move}
  {recorders : Nat} {instances : List (BoundTable × Option RecorderId)}
  {p : BoundTable × Option RecorderId}

/-- Each move is checked in the session that those before it lead to. -/
theorem of_forall
    (hfollows : ∀ n : Fin moves.length,
      (s.after (moves.take n)).follows surface i (moves.get n) = true)
    (honce : moves.countP (Move.startsOn i) ≤ 1) : NestedRun surface i s moves := by
  refine ⟨?_, honce⟩
  rintro before m later rfl
  have hlt : before.length < (before ++ m :: later).length := by simp
  simpa using hfollows ⟨before.length, hlt⟩

/-- The part of a run up to some moment. -/
theorem start (h : NestedRun surface i s (moves ++ moves')) : NestedRun surface i s moves := by
  refine ⟨fun before m later hmoves => ?_, ?_⟩
  · refine h.follows before m (later ++ moves') ?_
    rw [hmoves, List.append_assoc, List.cons_append]
  · have honce := h.once
    rw [List.countP_append] at honce
    omega

/-- What the run does on the instance is what the protocol permits there. -/
theorem permits (h : NestedRun surface i s moves) {e : Deed}
    (horders : e.isOrder = true → s.Ordered moves e) : e.Permits surface i := by
  cases e with
  | clear r => trivial
  | call j c =>
    intro hj
    subst hj
    cases c with
    | issue site =>
      obtain ⟨before, m, later, hmoves, hord⟩ := horders rfl
      have hfollows := h.follows before m later hmoves
      obtain ⟨dest, rfl⟩ := hord.issue
      show site = Nested.start surface
      simpa [Session.follows] using hfollows
    | use t u =>
      obtain ⟨before, m, later, hmoves, hord⟩ := horders rfl
      have hfollows := h.follows before m later hmoves
      obtain ⟨of, rfl, hget⟩ := hord.use
      simp [Session.follows, Session.stateIn?, hget] at hfollows
    | advance shape k =>
      by_cases hk : j = k
      · exact hk.symm
      · obtain ⟨before, m, later, hmoves, hord⟩ := horders (by simpa [Deed.isOrder] using hk)
        have hfollows := h.follows before m later hmoves
        obtain ⟨name, loop, outer, t, rfl, hrunning, howner, hget⟩ := hord.advance
        show k = j
        simpa [Session.follows, Session.stateIn?, hrunning, hget, howner] using hfollows
    | _ => trivial

theorem admits (h : NestedRun .iterator i s moves) {e : Deed}
    (horders : e.isOrder = true → s.Ordered moves e) : e.Admits i := by
  cases e with
  | clear r => trivial
  | call j c =>
    intro hj
    have hpermits : Nested.Permits .iterator i c := h.permits horders hj
    cases c with
    | issue site => exact hpermits
    | use t u =>
      obtain ⟨before, m, later, hmoves, hord⟩ := horders rfl
      have hfollows := h.follows before m later hmoves
      obtain ⟨of, rfl, hget⟩ := hord.use
      simp [Session.follows, Session.stateIn?, hget, hj] at hfollows
    | _ => trivial

/-- The deeds of a run. -/
theorem deeds (h : NestedRun surface i s moves) {d : Dealing} (hs : d.Covers s) :
    ∃ es d', d.Runs es d' ∧ d'.Covers (s.after moves) ∧
      (∀ e ∈ es, e.isOrder = true → s.Ordered moves e) ∧ es.countP (Deed.startsOn i) ≤ 1 := by
  obtain ⟨es, d', hr, hcov, horders, hcount⟩ := Session.after_deeds hs moves
  have hstarts := hcount (Deed.startsOn i) (Move.startsOn i)
    (fun e he => Deed.isOrder_of_startsOn he) fun _ m e hord he => Move.startsOn_of_orders hord he
  exact ⟨es, d', hr, hcov, horders, Nat.le_trans hstarts h.once⟩

theorem instance?_start (hi : instances[i.index]? = some p) :
    (Dealing.start (Session.start recorders instances).world).world.instance? i =
      some (Instance.create i p.1 p.2) := by
  show (Session.start recorders instances).world.instance? i = _
  rw [Session.instance?_start, hi]
  rfl

theorem follows_start (hi : instances[i.index]? = some p) :
    (Dealing.start (Session.start recorders instances).world).Follows i 1 := by
  have hidle : InPhase [] .idle (Instance.create i p.1 p.2) := by
    refine ⟨trivial, rfl, fun _ => rfl, ?_, ?_, ?_, ?_⟩ <;>
      simp [Known, Queued, Instance.create]
  exact ⟨⟨_, instance?_start hi, .idle, rfl, hidle⟩, rfl⟩

theorem oneAtATime_start (hi : instances[i.index]? = some p) :
    (Dealing.start (Session.start recorders instances).world).OneAtATime surface i 1 := by
  have hidle : OneState surface [] .idle (Instance.create i p.1 p.2) := by
    refine ⟨trivial, rfl, fun _ => rfl, rfl, ?_, ?_, ?_, ?_⟩ <;> simp
  refine ⟨⟨_, .idle, instance?_start hi, rfl, hidle, fun t ht => by cases ht⟩, ?_⟩
  simp [Dealing.start]

/-- **On the other surfaces the instance gives one state at a time.** -/
theorem oneAtATime (h : NestedRun surface i (.start recorders instances) moves)
    (hsurface : surface ≠ .iterator) (hi : instances[i.index]? = some p) :
    ∃ es d, (Dealing.start (Session.start recorders instances).world).Runs es d ∧
      d.Covers ((Session.start recorders instances).after moves) ∧
      (∀ e ∈ es, e.isOrder = true → (Session.start recorders instances).Ordered moves e) ∧
      ∃ n, d.OneAtATime surface i n := by
  obtain ⟨es, d, hr, hcov, horders, hcount⟩ := h.deeds (Dealing.covers_start recorders instances)
  exact ⟨es, d, hr, hcov, horders,
    hr.oneAtATime (oneAtATime_start hi) hsurface (fun e he => h.permits (horders e he)) hcount⟩

end NestedRun

end LoopProtocol
