import LoopProtocol.Proofs.Success
import LoopProtocol.Proofs.Word
import Mathlib.Logic.Function.Basic

/-!
# Phases of the nested protocol

A run of the nested protocol is at any moment in one of nine phases. A phase says which events were
reported, which frames are on the stack, and at which places a driver can hold a state that is good
for something. The events of a phase are the beginning of a complete run's.
-/

namespace LoopProtocol.Nested

/-- How far a run has come, with the bound of the outer loop and those of the inner ones. -/
inductive Phase where
  /-- No state was given out. -/
  | idle
  | start
  /-- The outer body `i` was entered. -/
  | outerBody (b : Bound) (c : Nat → Bound) (i : Nat)
  /-- The inner body `j` was entered. -/
  | innerBody (b : Bound) (c : Nat → Bound) (i j : Nat)
  /-- Its message was sent. -/
  | innerEnd (b : Bound) (c : Nat → Bound) (i j : Nat)
  /-- The inner loop is over. -/
  | afterInner (b : Bound) (c : Nat → Bound) (i : Nat)
  /-- The message of the outer body was sent. -/
  | outerEnd (b : Bound) (c : Nat → Bound) (i : Nat)
  /-- The outer loop is over. -/
  | done (b : Bound) (c : Nat → Bound)
  | ended (b : Bound) (c : Nat → Bound)

/-- The iterations of an inner loop. -/
def innerTurns (n : Nat) : List Event := Event.turns innerId (fun _ => [.sent "foo"]) n

/-- The iterations of the outer loop. -/
def outerTurns (c : Nat → Bound) (n : Nat) : List Event :=
  Event.turns outerId (fun i => bodyWord (c i).count) n

/-- The events up to the start of an outer body. -/
def toOuterBody (b : Bound) (c : Nat → Bound) (i : Nat) : List Event :=
  .activated outerId b.count :: outerTurns c i ++ [.iteration outerId (UInt64.ofNat i)]

namespace Phase

/-- The events that were reported. -/
def log : Phase → List Event
  | idle | start => []
  | outerBody b c i => toOuterBody b c i
  | innerBody b c i j =>
    toOuterBody b c i ++ .activated innerId (c i).count :: innerTurns j ++
      [.iteration innerId (UInt64.ofNat j)]
  | innerEnd b c i j => toOuterBody b c i ++ .activated innerId (c i).count :: innerTurns (j + 1)
  | afterInner b c i =>
    toOuterBody b c i ++ .activated innerId (c i).count :: innerTurns (c i).count.toNat ++
      [.exited innerId]
  | outerEnd b c i => .activated outerId b.count :: outerTurns c (i + 1)
  | done b c => .activated outerId b.count :: outerTurns c b.count.toNat ++ [.exited outerId]
  | ended b c => word b.count fun i => (c i).count

/-- The frames on the stack. -/
def frames : Phase → List Frame
  | idle | start | done _ _ | ended _ _ => []
  | outerBody b _ i | afterInner b _ i | outerEnd b _ i => [.iterating outerId b i]
  | innerBody b c i j | innerEnd b c i j =>
    [.iterating innerId (c i) j, .iterating outerId b i]

/-- The indices are those of iterations. -/
def Valid : Phase → Prop
  | idle | start | done _ _ | ended _ _ => True
  | outerBody b _ i | afterInner b _ i | outerEnd b _ i => i < b.count.toNat
  | innerBody b c i j | innerEnd b c i j => i < b.count.toNat ∧ j < (c i).count.toNat

/-- Whether a state at the place is good for something in the phase. The state after a loop exists
from the start of the loop. -/
def Fits : Phase → Place → Prop
  | start, .outer | outerBody _ _ _, .inner | innerBody _ _ _ _, .innerBody
  | innerEnd _ _ _ _, .innerEnd | outerEnd _ _ _, .outerEnd => True
  | innerBody _ _ _ _, .afterInner | innerEnd _ _ _ _, .afterInner
  | afterInner _ _ _, .afterInner => True
  | idle, .done | start, .done | ended _ _, .done => False
  | _, .done => True
  | _, _ => False

theorem not_fits_idle {place : Place} : ¬idle.Fits place := by cases place <;> simp [Fits]

/-- How many first states are still to be given out. -/
def starts : Phase → Nat
  | idle => 1
  | _ => 0

theorem eq_idle_of_starts {p : Phase} (h : 0 < p.starts) : p = idle := by
  cases p <;> first | rfl | exact absurd h (Nat.lt_irrefl 0)

variable {b : Bound} {c : Nat → Bound} {i : Nat}

theorem toOuterBody_append_prefix {w : List Event} (hi : i < b.count.toNat)
    (hw : w <+: bodyWord (c i).count) :
    toOuterBody b c i ++ w <+: word b.count fun i => (c i).count := by
  have hturns : outerTurns c i ++ .iteration outerId (UInt64.ofNat i) :: w <+:
      outerTurns c b.count.toNat := Event.turns_append_prefix hi hw
  have hloop := Event.activated_turns_prefix_loop hturns
  simpa [toOuterBody, word] using hloop.trans (List.prefix_append _ [.terminated])

theorem innerTurns_prefix_bodyWord {w : List Event} (hw : w <+: innerTurns (c i).count.toNat) :
    .activated innerId (c i).count :: w <+: bodyWord (c i).count :=
  (Event.activated_turns_prefix_loop hw).trans (List.prefix_append _ _)

/-- **What was reported is the beginning of a complete run.** -/
theorem log_prefix_word {p : Phase} (h : p.Valid) :
    ∃ (b : Bound) (c : Nat → Bound), p.log <+: word b.count fun i => (c i).count := by
  cases p with
  | idle | start => exact ⟨⟨1, by decide⟩, fun _ => ⟨1, by decide⟩, List.nil_prefix⟩
  | outerBody b c i =>
    have hlog := toOuterBody_append_prefix (c := c) h List.nil_prefix
    rw [List.append_nil] at hlog
    exact ⟨b, c, hlog⟩
  | innerBody b c i j =>
    have hturns : innerTurns j ++ [.iteration innerId (UInt64.ofNat j)] <+:
        innerTurns (c i).count.toNat := Event.turns_append_prefix h.2 List.nil_prefix
    refine ⟨b, c, ?_⟩
    rw [log, List.append_assoc]
    exact toOuterBody_append_prefix h.1 (innerTurns_prefix_bodyWord hturns)
  | innerEnd b c i j =>
    have hturns : innerTurns (j + 1) <+: innerTurns (c i).count.toNat :=
      Event.turns_prefix_turns h.2
    exact ⟨b, c, toOuterBody_append_prefix h.1 (innerTurns_prefix_bodyWord hturns)⟩
  | afterInner b c i =>
    refine ⟨b, c, ?_⟩
    rw [log, List.append_assoc]
    exact toOuterBody_append_prefix h (List.prefix_append _ [Event.sent "bar"])
  | outerEnd b c i =>
    have hturns : outerTurns c (i + 1) <+: outerTurns c b.count.toNat :=
      Event.turns_prefix_turns h
    have hloop := Event.activated_turns_prefix_loop hturns
    exact ⟨b, c, hloop.trans (List.prefix_append _ [Event.terminated])⟩
  | done b c => exact ⟨b, c, List.prefix_append _ [Event.terminated]⟩
  | ended b c => exact ⟨b, c, List.prefix_rfl⟩

/-! ## From one phase to the next -/

theorem log_innerEnd (b : Bound) (c : Nat → Bound) (i j : Nat) :
    (innerEnd b c i j).log = (innerBody b c i j).log ++ [.sent "foo"] := by
  simp [log, innerTurns, Event.turns_succ]

theorem log_innerBody_succ (b : Bound) (c : Nat → Bound) (i j : Nat) :
    (innerBody b c i (j + 1)).log =
      (innerEnd b c i j).log ++ [.iteration innerId (UInt64.ofNat (j + 1))] := by
  simp [log]

theorem log_afterInner {j : Nat} (hj : j + 1 = (c i).count.toNat) :
    (afterInner b c i).log = (innerEnd b c i j).log ++ [.exited innerId] := by
  simp [log, hj]

theorem log_outerEnd (b : Bound) (c : Nat → Bound) (i : Nat) :
    (outerEnd b c i).log = (afterInner b c i).log ++ [.sent "bar"] := by
  simp [log, toOuterBody, outerTurns, Event.turns_succ, bodyWord, Event.loop, innerTurns]

theorem log_outerBody_succ (b : Bound) (c : Nat → Bound) (i : Nat) :
    (outerBody b c (i + 1)).log =
      (outerEnd b c i).log ++ [.iteration outerId (UInt64.ofNat (i + 1))] := by
  simp [log, toOuterBody]

theorem log_done (hi : i + 1 = b.count.toNat) :
    (done b c).log = (outerEnd b c i).log ++ [.exited outerId] := by
  simp [log, hi]

theorem log_ended (b : Bound) (c : Nat → Bound) :
    (ended b c).log = (done b c).log ++ [.terminated] := by
  simp [log, word, outerTurns, Event.loop]

/-- The bound of an inner loop is settled only when the loop starts. -/
theorem log_innerBody_zero (b : Bound) (c : Nat → Bound) (i : Nat) (b' : Bound) :
    (innerBody b (Function.update c i b') i 0).log = (outerBody b c i).log ++
      [.activated innerId b'.count, .iteration innerId (UInt64.ofNat 0)] := by
  have hturns : outerTurns (Function.update c i b') i = outerTurns c i := by
    refine Event.turns_congr fun j hj => ?_
    rw [Function.update_of_ne (Nat.ne_of_lt hj)]
  simp [log, toOuterBody, hturns, innerTurns]

/-- The use of a state at a place leads from one phase to the next and gives states at new places,
in this order. -/
inductive Step : Place → Phase → Phase → List Place → Prop where
  | enterOuter (b : Bound) (c : Nat → Bound) :
    Step .outer start (outerBody b c 0) [.inner, .done]
  | enterInner (b : Bound) (c : Nat → Bound) (i : Nat) (b' : Bound) :
    Step .inner (outerBody b c i) (innerBody b (Function.update c i b') i 0)
      [.innerBody, .afterInner]
  | sendFoo (b : Bound) (c : Nat → Bound) (i j : Nat) :
    Step .innerBody (innerBody b c i j) (innerEnd b c i j) [.innerEnd]
  | nextInner (b : Bound) (c : Nat → Bound) (i j : Nat) :
    Step .innerEnd (innerEnd b c i j) (innerBody b c i (j + 1)) [.innerBody]
  | leaveInner (b : Bound) (c : Nat → Bound) (i j : Nat) :
    Step .innerEnd (innerEnd b c i j) (afterInner b c i) []
  | sendBar (b : Bound) (c : Nat → Bound) (i : Nat) :
    Step .afterInner (afterInner b c i) (outerEnd b c i) [.outerEnd]
  | nextOuter (b : Bound) (c : Nat → Bound) (i : Nat) :
    Step .outerEnd (outerEnd b c i) (outerBody b c (i + 1)) [.inner]
  | leaveOuter (b : Bound) (c : Nat → Bound) (i : Nat) :
    Step .outerEnd (outerEnd b c i) (done b c) []
  | terminate (b : Bound) (c : Nat → Bound) : Step .done (done b c) (ended b c) []

namespace Step

variable {p p' : Phase} {used place : Place} {new : List Place}

theorem starts_eq (h : Step used p p' new) : p'.starts = p.starts := by cases h <;> rfl

theorem nodup (h : Step used p p' new) : new.Nodup := by cases h <;> decide

/-- What is good for something at another place remains so. -/
theorem keep (h : Step used p p' new) (hne : place ≠ used) (hp : p.Fits place) :
    p'.Fits place := by
  cases h <;> cases place <;> simp_all [Fits]

theorem fits (h : Step used p p' new) (hmem : place ∈ new) : p'.Fits place := by
  cases h <;> cases place <;> simp_all [Fits]

/-- No state at a new place was good for anything before. -/
theorem fresh (h : Step used p p' new) (hmem : place ∈ new) : ¬p.Fits place := by
  cases h <;> cases place <;> simp_all [Fits]

end Step

/-- The use of a state at a place leads to another phase, with these states, frames and events. -/
structure Leads (p : Phase) (used : Place) (new : List Place) (frames : List Frame)
    (w : List Event) (p' : Phase) : Prop where
  step : Step used p p' new
  valid : p'.Valid
  frames : p'.frames = frames
  log : p'.log = p.log ++ w

/-- From the place the loop can be entered, with any bound. -/
def Enters (p : Phase) (place : Place) (id : LoopId) (new : List Place) : Prop :=
  (∀ f ∈ p.frames, f.id ≠ id) ∧ ∀ b, ∃ p', p.Leads place new (.iterating id b 0 :: p.frames)
    [.activated id b.count, .iteration id (UInt64.ofNat 0)] p'

/-- At the place an iteration of the innermost loop ends. Another follows, or it was the last. -/
def Turns (p : Phase) (place : Place) (id : LoopId) (body : Place) : Prop :=
  ∃ (b : Bound) (i : Nat) (below : List Frame),
    p.frames = .iterating id b i :: below ∧ i < b.count.toNat ∧
      (i + 1 < b.count.toNat → ∃ p', p.Leads place [body] (.iterating id b (i + 1) :: below)
        [.iteration id (UInt64.ofNat (i + 1))] p') ∧
      (i + 1 = b.count.toNat → ∃ p', p.Leads place [] below [.exited id] p')

variable {p : Phase}

/-- A loop that can be entered is not on top yet. -/
theorem Enters.ne_of_frames {place : Place} {id : LoopId} {new : List Place} {top : Frame}
    {below : List Frame} (h : p.Enters place id new) (hs : p.frames = top :: below) :
    top.id ≠ id :=
  h.1 top (by simp [hs])

theorem enters_outer (h : p.Fits .outer) : p.Enters .outer outerId [.inner, .done] := by
  cases p <;> simp only [Fits] at h
  refine ⟨by simp [frames], fun b => ⟨_, .enterOuter b fun _ => b, b.toNat_count_pos, rfl, rfl⟩⟩

theorem enters_inner (hp : p.Valid) (h : p.Fits .inner) :
    p.Enters .inner innerId [.innerBody, .afterInner] := by
  cases p <;> simp only [Fits] at h
  case outerBody b c i =>
    refine ⟨by simp [frames, outerId, innerId], fun b' => ?_⟩
    refine ⟨_, .enterInner b c i b', ⟨hp, ?_⟩, ?_, log_innerBody_zero b c i b'⟩
    · simpa using b'.toNat_count_pos
    · simp [frames]

theorem turns_inner (hp : p.Valid) (h : p.Fits .innerEnd) :
    p.Turns .innerEnd innerId .innerBody := by
  cases p <;> simp only [Fits] at h
  case innerEnd b c i j =>
    refine ⟨c i, j, [.iterating outerId b i], rfl, hp.2, fun hj => ?_, fun hj => ?_⟩
    · exact ⟨_, .nextInner b c i j, ⟨hp.1, hj⟩, rfl, log_innerBody_succ b c i j⟩
    · exact ⟨_, .leaveInner b c i j, hp.1, rfl, log_afterInner hj⟩

theorem turns_outer (hp : p.Valid) (h : p.Fits .outerEnd) :
    p.Turns .outerEnd outerId .inner := by
  cases p <;> simp only [Fits] at h
  case outerEnd b c i =>
    refine ⟨b, i, [], rfl, hp, fun hi => ?_, fun hi => ?_⟩
    · exact ⟨_, .nextOuter b c i, hi, rfl, log_outerBody_succ b c i⟩
    · exact ⟨_, .leaveOuter b c i, trivial, rfl, log_done hi⟩

theorem leads_sendFoo (hp : p.Valid) (h : p.Fits .innerBody) :
    ∃ p', p.Leads .innerBody [.innerEnd] p.frames [.sent "foo"] p' := by
  cases p <;> simp only [Fits] at h
  case innerBody b c i j => exact ⟨_, .sendFoo b c i j, hp, rfl, log_innerEnd b c i j⟩

/-- The state after the inner loop exists before the loop is over. -/
theorem leads_sendBar (hp : p.Valid) (h : p.Fits .afterInner)
    (hclosed : ∀ f ∈ p.frames, f.id ≠ innerId) :
    ∃ p', p.Leads .afterInner [.outerEnd] p.frames [.sent "bar"] p' := by
  cases p <;> simp only [Fits] at h
  case afterInner b c i => exact ⟨_, .sendBar b c i, hp, rfl, log_outerEnd b c i⟩
  all_goals simp [frames] at hclosed

/-- The last state exists before the outer loop is over. -/
theorem leads_terminate (h : p.Fits .done) (hframes : p.frames = []) :
    ∃ b c, p.Leads .done [] [] [.terminated] (ended b c) := by
  cases p <;> simp [Fits, frames] at h hframes
  case done b c => exact ⟨b, c, .terminate b c, trivial, rfl, log_ended b c⟩

end Phase

end LoopProtocol.Nested
