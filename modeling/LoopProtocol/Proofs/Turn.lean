import LoopProtocol.Proofs.Footprint
import LoopProtocol.Proofs.Success
import LoopProtocol.Transition.Callback
import LoopProtocol.Transition.Polling

/-!
# The turns of a loop

On an instance on which nothing is wrong, each surface takes a loop from one iteration to the next
and out of it. Here is what each turn does to the stack, the events and the states of the run.
-/

namespace LoopProtocol

open Act Instance

variable {x y : Instance} {shape : LoopShape} {b : Bound} {i : Nat} {below : List Frame}
  {E : Fault → Instance → Prop}

/-! ## Polling -/

theorem Polling.ends_enter_new {head : Token} (hrun : x.aborted = false)
    (hnew : x.stack.contains shape.head.id = false)
    (hbound : x.bounds.bound shape.head.param = .ok b) (hunused : head.isConsumed x = false) :
    (Polling.enter shape head).Ends x (fun entry y =>
      x.Yields head entry y ∧ y.bounds = x.bounds ∧ entry.feed = none ∧
      x.Reaches (Frame.iterating shape.head.id b 0 :: x.stack.frames)
        [.activated shape.head.id b.count, .iteration shape.head.id (UInt64.ofNat 0)] y) E := by
  refine Ends.bind (ends_consume_unused hunused ?_)
  refine Ends.bind (ends_activate_new hrun hnew hbound ?_)
  rw [Frame.canEnter_iterating (Nat.zero_le _), decide_eq_true b.toNat_count_pos, if_pos rfl]
  refine Ends.bind (ends_iteration (ends_issue ⟨?_, rfl, rfl, hrun, rfl, ?_⟩))
  · exact Yields.of_issue (Spares.spend x head) shape.body none rfl rfl
  · simp [Instance.spend, Frame.iterating]

theorem Polling.ends_enter_next {head : Token} (hrun : y.aborted = false)
    (htop : y.stack.frames = Frame.iterating shape.head.id b i :: below)
    (hi : i + 1 < b.count.toNat) (hunused : head.isConsumed y = false) :
    (Polling.enter shape head).Ends y (fun entry z =>
      y.Yields head entry z ∧ z.bounds = y.bounds ∧ entry.feed = none ∧
      y.Reaches (Frame.iterating shape.head.id b (i + 1) :: below)
        [.iteration shape.head.id (UInt64.ofNat (i + 1))] z) E := by
  refine Ends.bind (ends_consume_unused hunused ?_)
  refine Ends.bind (ends_activate_top hrun htop rfl ?_)
  rw [Frame.advance_iterating, Frame.canEnter_iterating (Nat.le_of_lt hi), decide_eq_true hi,
    if_pos rfl]
  refine Ends.bind (ends_iteration (ends_issue ⟨?_, rfl, rfl, hrun, rfl, ?_⟩))
  · exact Yields.of_issue (Spares.spend y head) shape.body none rfl rfl
  · simp [Instance.spend, Frame.iterating]

theorem Polling.ends_exit_last {head : Token} (hrun : y.aborted = false)
    (htop : y.stack.frames = Frame.iterating shape.head.id b i :: below)
    (hi : i + 1 = b.count.toNat) (hunused : head.isConsumed y = false) :
    (Polling.exit shape head).Ends y (fun after z =>
      y.Yields head after z ∧ z.bounds = y.bounds ∧ after.feed = none ∧
      y.Reaches below [.exited shape.head.id] z) E := by
  have hlast : (Frame.iterating shape.head.id b i).hasNext = false := by
    rw [Frame.hasNext_iterating (by omega), decide_eq_false (by omega)]
  refine Ends.bind (ends_consume_unused hunused ?_)
  refine Ends.bind (ends_exit_top hrun htop rfl hlast (ends_issue ⟨?_, rfl, rfl, hrun, rfl, ?_⟩))
  · exact Yields.of_issue (Spares.spend y head) shape.after none rfl rfl
  · simp [Instance.spend]

/-! ## Iteration -/

namespace Iterator

/-- A fresh sequence `s` has the body `entry` of its loop's current iteration in its slot. -/
structure Serves (s : SequenceId) (entry : Token) (y : Instance) : Prop where
  handOff : y.handOff s = ⟨[entry], false, false⟩
  unused : entry.isConsumed y = false
  feed : entry.feed = some s

theorem handOff_setHandOff {s : SequenceId} {p : HandOff Token} (hs : s.index < y.sequences.size) :
    (y.setHandOff s p).handOff s = p := by
  simp [Instance.handOff, Instance.setHandOff, Array.getD_eq_getD_getElem?, hs]

variable {s : SequenceId} {body : Site} {g : GuardId}

theorem ends_turn_next (h : x.Spares g y) (hbase : x.sequences.size ≤ s.index)
    (hrun : y.aborted = false) (hi : i < b.count.toNat) (hs : s.index < y.sequences.size)
    (hfresh : y.handOff s = .fresh) :
    (turn s (Frame.iterating s.loop b i) body).Ends y (fun _ z =>
      (∃ entry, Serves s entry z ∧ entry.guard = y.guards.next) ∧ z.guards = y.guards.issue ∧
      s.index < z.sequences.size ∧ z.bounds = y.bounds ∧ x.Spares g z ∧
      y.Reaches y.stack.frames [.iteration s.loop (UInt64.ofNat i)] z) E := by
  unfold turn
  rw [Frame.canEnter_iterating (Nat.le_of_lt hi), decide_eq_true hi, if_pos rfl]
  refine Ends.bind (ends_iteration ?_)
  refine Ends.bind (ends_issue ?_)
  refine ends_handOver_empty hfresh ?_
  refine ⟨⟨_, ⟨handOff_setHandOff hs, ?_, rfl⟩, rfl⟩, rfl, ?_, rfl, ?_, hrun, rfl, ?_⟩
  · exact Guards.isConsumed_issue_next y.guards
  · simpa [Instance.setHandOff] using hs
  · exact Spares.setHandOff (y := { y with guards := y.guards.issue }) h.issue hbase _
  · simp [Instance.setHandOff, Frame.iterating]

theorem ends_turn_over (h : x.Spares g y) (hbase : x.sequences.size ≤ s.index)
    (hrun : y.aborted = false)
    (htop : y.stack.frames = Frame.iterating s.loop b b.count.toNat :: below)
    (hs : s.index < y.sequences.size) (hfresh : y.handOff s = .fresh) :
    (turn s (Frame.iterating s.loop b b.count.toNat) body).Ends y (fun _ z =>
      z.handOff s = ⟨[], true, false⟩ ∧ z.guards = y.guards ∧ s.index < z.sequences.size ∧
      z.bounds = y.bounds ∧ x.Spares g z ∧ y.Reaches below [.exited s.loop] z) E := by
  have hlast : (Frame.iterating s.loop b b.count.toNat).hasNext = false := by
    rw [Frame.hasNext_iterating (Nat.le_refl _), decide_eq_false (by omega)]
  unfold turn
  rw [Frame.canEnter_iterating (Nat.le_refl _), decide_eq_false (Nat.lt_irrefl _),
    if_neg Bool.false_ne_true]
  refine Ends.bind (ends_exit_top hrun htop rfl hlast ?_)
  refine Ends.bind (ends_closeSequence (ends_pure ?_))
  refine ⟨?_, rfl, ?_, rfl, h.setHandOff hbase _, hrun, rfl, ?_⟩
  · refine (handOff_setHandOff hs).trans ?_
    show (y.handOff s).close = _
    rw [hfresh]
    rfl
  · simpa [Instance.setHandOff] using hs
  · simp [Instance.setHandOff]

end Iterator

/-! ## Callbacks -/

namespace Callback

theorem ends_turn_next {head : Token} (h : x.Spares head.guard y) (hrun : y.aborted = false)
    (hi : i < b.count.toNat) :
    (turn shape (Frame.iterating shape.head.id b i)).Ends y (fun next z =>
      ∃ entry, next = .body entry ∧ x.Yields head entry z ∧ z.bounds = y.bounds ∧
        entry.feed = none ∧
        y.Reaches y.stack.frames [.iteration shape.head.id (UInt64.ofNat i)] z) E := by
  unfold turn
  rw [Frame.canEnter_iterating (Nat.le_of_lt hi), decide_eq_true hi, if_pos rfl]
  refine Ends.bind (ends_iteration ?_)
  refine Ends.bind (ends_issue (ends_pure ?_))
  refine ⟨_, rfl, Yields.of_issue h _ _ rfl rfl, rfl, rfl, hrun, rfl, ?_⟩
  simp [Frame.iterating]

theorem ends_turn_over {head : Token} (h : x.Spares head.guard y) (hrun : y.aborted = false)
    (htop : y.stack.frames = Frame.iterating shape.head.id b b.count.toNat :: below) :
    (turn shape (Frame.iterating shape.head.id b b.count.toNat)).Ends y (fun next z =>
      ∃ after, next = .finished after ∧ x.Yields head after z ∧ z.bounds = y.bounds ∧
        after.feed = none ∧ y.Reaches below [.exited shape.head.id] z) E := by
  have hlast : (Frame.iterating shape.head.id b b.count.toNat).hasNext = false := by
    rw [Frame.hasNext_iterating (Nat.le_refl _), decide_eq_false (by omega)]
  unfold turn
  rw [Frame.canEnter_iterating (Nat.le_refl _), decide_eq_false (Nat.lt_irrefl _),
    if_neg Bool.false_ne_true]
  refine Ends.bind (ends_exit_top hrun htop rfl hlast ?_)
  refine Ends.bind (ends_issue (ends_pure ?_))
  refine ⟨_, rfl, Yields.of_issue h _ _ rfl rfl, rfl, rfl, hrun, rfl, ?_⟩
  simp

end Callback

/-! ## Messages, and the end -/

theorem Token.ends_sendAt {t : Token} (point : SendPoint) (hrun : y.aborted = false)
    (hunused : t.isConsumed y = false)
    (hclosed : ∀ id, point.closes = some id → y.stack.contains id = false) :
    (t.sendAt point).Ends y (fun next z =>
      y.Yields t next z ∧ next.feed = t.feed ∧ z.bounds = y.bounds ∧
      y.Reaches y.stack.frames [.sent point.label] z) E := by
  have hsend : (Act.accept point.label >>= fun _ => Act.issue point.next t.feed).Ends (y.spend t)
      (fun next z => y.Yields t next z ∧ next.feed = t.feed ∧ z.bounds = y.bounds ∧
        y.Reaches y.stack.frames [.sent point.label] z) E := by
    refine Ends.bind (ends_accept (ends_issue ⟨?_, rfl, rfl, hrun, rfl, ?_⟩))
    · exact Yields.of_issue (Spares.spend y t) point.next t.feed rfl rfl
    · simp [Instance.spend]
  unfold Token.sendAt
  cases hcloses : point.closes with
  | none =>
    show ((t.consume >>= fun _ => Act.accept point.label) >>= _).Ends _ _ _
    rw [bind_assoc]
    exact Ends.bind (ends_consume_unused hunused hsend)
  | some id =>
    show ((t.consume >>= fun _ =>
      Act.ensureClosed id >>= fun _ => Act.accept point.label) >>= _).Ends _ _ _
    simp only [bind_assoc]
    refine Ends.bind (ends_consume_unused hunused ?_)
    exact Ends.bind (ends_ensureClosed_ok hrun (hclosed id hcloses) hsend)

theorem Token.ends_finish {t : Token} {closes : Option LoopId} (hrun : y.aborted = false)
    (hunused : t.isConsumed y = false) (hs : y.stack.frames = []) :
    (t.finish closes).Ends y (fun _ z => y.Reaches [] [.terminated] z) E := by
  have hterminate : Act.terminate.Ends (y.spend t) (fun _ z => y.Reaches [] [.terminated] z) E :=
    ends_terminate_ok hrun hs ⟨hrun, hs, by simp [Instance.spend]⟩
  have hclosed : ∀ id, (y.spend t).stack.contains id = false := by
    intro id
    rw [FrameStack.contains_eq_false_iff]
    simp [Instance.spend, hs]
  cases closes with
  | none => exact Ends.bind (ends_consume_unused hunused hterminate)
  | some id =>
    exact Ends.bind (ends_consume_unused hunused
      (Ends.bind (ends_ensureClosed_ok hrun (hclosed id) hterminate)))

end LoopProtocol
