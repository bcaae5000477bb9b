import LoopProtocol.CompleteRun
import LoopProtocol.Proofs.LoopRule

/-!
# The reference for complete runs

The three drivers of the nested protocol are the same two loops, run through three surfaces
(`driver_eq`). How their run ends can be said without any of them: `reference` looks for the first
outer body whose inner loop gets no positive bound, and `run_eq_reference` says that every driver
does what the reference says, on every table and every plan.
-/

namespace LoopProtocol.CompleteRun

open Drive

/-- The number of the parameter after some entries of a plan: the last number among them, or else
the number `k` from before. -/
def lastCount (k : UInt64) (entries : Plan) : UInt64 := (entries.filterMap id).getLastD k

/-- The number of the parameter in the outer body of the given index. -/
def innerCount (k : UInt64) (plan : Plan) (i : Nat) : UInt64 := lastCount k (plan.take (i + 1))

/-- How a complete run ends. -/
def reference (bounds : BoundTable) (plan : Plan) : Outcome :=
  match bounds.get? Nested.param with
  | none => ⟨.error (.fault (.unknownParameter Nested.param)), .empty, true, #[]⟩
  | some k =>
    if k = 0 then ⟨.error (.fault (.invalidBound Nested.param 0)), .empty, true, #[]⟩
    else
      let inner := innerCount k plan
      -- the first outer body that cannot start its inner loop
      match (List.range k.toNat).find? fun i => inner i = 0 with
      | none => ⟨.ok (), .empty, false, (Nested.word k inner).toArray⟩
      | some i => {
          result := .error (.fault (.invalidBound Nested.param 0))
          stack := ⟨[⟨Nested.outerId, UInt64.ofNat i, k - 1⟩]⟩
          aborted := true
          events := (Event.activated Nested.outerId k ::
            Event.turns Nested.outerId (fun j => Nested.bodyWord (inner j)) i ++
              [Event.iteration Nested.outerId (UInt64.ofNat i)]).toArray }

/-! ## The drivers -/

/-- The inner loop, and the message behind it. -/
def innerLoop (surface : Surface) (inner : Token) : Planned Token := do
  let after ← loop surface (Nested.inner surface) inner fun body =>
    act (body.sendAt (Nested.foo surface))
  act (after.sendAt (Nested.bar surface))

/-- The body of the outer loop. -/
def outerBody (surface : Surface) (inner : Token) : Planned Token := do
  followPlan
  innerLoop surface inner

/-- The complete run, with both loops run through a surface. -/
def bothLoops (surface : Surface) : Planned Unit := do
  let first ← start surface
  let done ← loop surface (Nested.outer surface) first (outerBody surface)
  act (done.finish (Nested.closesAtEnd surface))

theorem outerBody_polling : polling.outerBody = fun head =>
    act (Polling.enter (Nested.outer .polling) head) >>= outerBody .polling := by
  have hinner : outerBody .polling = fun inner => followPlan >>= fun _ =>
      repeatWhile (hasMore Nested.innerId) polling.innerBody Bound.limit inner >>= fun inner =>
        act (Polling.exit (Nested.inner .polling) inner) >>= fun after =>
          act (after.sendAt (Nested.bar .polling)) := by
    funext inner
    simp only [outerBody, innerLoop, loop, bind_assoc]
    rfl
  funext head
  rw [hinner]
  rfl

theorem outerBody_iterator : iterator.outerBody = fun inner =>
    outerBody .iterator inner >>= fun tail =>
      Drive.endIteration tail (Nested.outer .iterator) := by
  have hinner : iterator.innerBody = fun body =>
      act (body.sendAt (Nested.foo .iterator)) >>= fun tail =>
        Drive.endIteration tail (Nested.inner .iterator) := rfl
  funext inner
  simp only [iterator.outerBody, hinner, outerBody, innerLoop, loop, bind_assoc, pure_bind]
  rfl

/-- **The three drivers are one.** -/
theorem driver_eq (surface : Surface) : driver surface = bothLoops surface := by
  cases surface with
  | polling =>
    simp only [driver, polling, bothLoops, loop, outerBody_polling, bind_assoc]
    rfl
  | iterator =>
    simp only [driver, iterator, bothLoops, loop, outerBody_iterator, bind_assoc, pure_bind]
  | callback => rfl

/-! ## The plan -/

variable {k : UInt64} {plan : Plan} {i : Nat} {surface : Surface} {x : Instance}

theorem lastCount_concat (k : UInt64) (entries : Plan) (entry : Option UInt64) :
    lastCount k (entries ++ [entry]) = entry.getD (lastCount k entries) := by
  cases entry with
  | none => simp [lastCount]
  | some b => simp only [lastCount, List.filterMap_append]; exact List.getLastD_concat

/-- Following the plan changes nothing but the parameter. -/
theorem ends_followPlan {E : Fault → Plan → Instance → Prop}
    (hk : x.bounds.get? Nested.param = some (lastCount k (plan.take i))) :
    followPlan.Ends (plan.drop i) x (fun _ t y =>
      t = plan.drop (i + 1) ∧ ∃ bounds, bounds.get? Nested.param = some (innerCount k plan i) ∧
        y = { x with bounds }) E := by
  unfold followPlan innerCount
  refine Ends.bind (ends_get ?_)
  rw [← List.tail_drop, List.take_add_one, ← List.head?_drop]
  cases hd : plan.drop i with
  | nil => exact ends_pure ⟨rfl, x.bounds, by simpa using hk, rfl⟩
  | cons entry rest =>
    refine Ends.bind (ends_set ?_)
    simp only [List.head?_cons, Option.toList_some, lastCount_concat, List.tail_cons]
    cases entry with
    | none => exact ends_pure ⟨rfl, x.bounds, hk, rfl⟩
    | some b =>
      exact Ends.discard (ends_act (Act.ends_setParam ⟨rfl, _, by simp, rfl⟩))

/-! ## The outer body -/

/-- After `i` outer bodies the plan is followed that far, and no inner loop was without a bound. -/
structure Followed (k : UInt64) (plan : Plan) (i : Nat) (rest : Plan) (bounds : BoundTable) :
    Prop where
  rest : rest = plan.drop i
  count : bounds.get? Nested.param = some (lastCount k (plan.take i))
  positive : ∀ j < i, innerCount k plan j ≠ 0

/-- The run stopped in the first outer body whose inner loop had no positive bound. -/
def Stopped (k : UInt64) (plan : Plan) (e : Fault) (y : Instance) : Prop :=
  ∃ i < k.toNat, (∀ j < i, innerCount k plan j ≠ 0) ∧ innerCount k plan i = 0 ∧
    e = .invalidBound Nested.param 0 ∧ y.aborted = true ∧
    y.stack.frames = [⟨Nested.outerId, UInt64.ofNat i, k - 1⟩] ∧
    y.events.toList = .activated Nested.outerId k ::
      Event.turns Nested.outerId (fun j => Nested.bodyWord (innerCount k plan j)) i ++
        [.iteration Nested.outerId (UInt64.ofNat i)]

theorem Stopped.aborted {e : Fault} {y : Instance} (h : Stopped k plan e y) : y.aborted = true := by
  obtain ⟨_, _, _, _, _, haborted, _⟩ := h
  exact haborted

theorem bound_of_get? {bounds : BoundTable} {param : String} {b : Bound}
    (h : bounds.get? param = some b.count) : bounds.bound param = .ok b := by
  simp [BoundTable.bound, h, Bound.ofCount?_count]

theorem bound_of_get?_zero {bounds : BoundTable} {param : String}
    (h : bounds.get? param = some 0) : bounds.bound param = .error (.invalidBound param 0) := by
  simp [BoundTable.bound, h, Bound.ofCount?_zero]

theorem contains_inner {y : Instance} {f : Frame} (hf : f.id = Nested.outerId)
    (hy : y.stack.frames = [f]) : y.stack.contains Nested.innerId = false := by
  rw [FrameStack.contains_eq_false_iff, hy]
  simp [hf, Nested.outerId, Nested.innerId]

/-- The inner loop and the message behind it, once the plan is followed. -/
theorem ends_innerLoop {E : Fault → Plan → Instance → Prop} {b : Bound} {inner : Token} {f : Frame}
    {t : Plan} (hrun : x.aborted = false) (hf : f.id = Nested.outerId) (hx : x.stack.frames = [f])
    (hbound : x.bounds.get? Nested.param = some b.count) (hunused : inner.isConsumed x = false)
    (hE : ∀ e t y, E e t y → y.aborted = true) :
    (innerLoop surface inner).Ends t x (fun tail u y =>
      x.Yields inner tail y ∧ (surface = .iterator → tail.feed = inner.feed) ∧
      x.Reaches [f] (Nested.bodyWord b.count) y ∧ u = t ∧ y.bounds = x.bounds) E := by
  have hstart : CanStart (Nested.inner surface) x inner b :=
    ⟨hrun, contains_inner hf hx, bound_of_get? hbound, hunused⟩
  have hruns : BodyRuns surface (Nested.inner surface) x b (fun _ => [.sent "foo"])
      (fun _ u bounds => u = t ∧ bounds = x.bounds) E
      (fun body => act (body.sendAt (Nested.foo surface))) := by
    rintro j - body u y hbody hr ⟨rfl, hbounds⟩
    have hsend := Token.ends_sendAt (Nested.foo surface) (E := fun e z => E e u z) hr.running hbody
      (by simp [Nested.foo])
    refine ends_act (hsend.mono ?_ fun _ _ he => he)
    rintro tail z ⟨hyields, hfeed, hbounds', hsent⟩
    exact ⟨hyields, fun _ => hfeed, hsent, rfl, hbounds'.trans hbounds⟩
  refine (ends_loop hstart hruns ⟨rfl, rfl⟩ hE).andThen ?_
  rintro after u y ⟨hyields, hfeed, hr, rfl, hbounds⟩
  rw [hx] at hr
  have hsend := Token.ends_sendAt (Nested.bar surface) (E := fun e z => E e u z) hr.running
    hyields.unused fun id hid => by
      have hinner : id = Nested.innerId := by
        simp only [Nested.bar] at hid
        split at hid
        · exact (Option.some.inj hid).symm
        · cases hid
      rw [hinner]
      exact contains_inner hf hr.frames
  refine ends_act (hsend.mono ?_ fun _ _ he => he)
  rintro tail z ⟨hyields', hfeed', hbounds', hsent⟩
  rw [hr.frames] at hsent
  refine ⟨hyields.trans hyields', fun h => ?_, hr.trans hsent, rfl, hbounds'.trans hbounds⟩
  rw [hfeed', hfeed, if_pos h]

/-- The outer body follows the plan and runs the inner loop, or stops where that cannot start. -/
theorem outerBody_runs {b : Bound} (hx : x.stack.frames = []) (hevents : x.events = #[])
    (hk : b.count = k) :
    BodyRuns surface (Nested.outer surface) x b (fun i => Nested.bodyWord (innerCount k plan i))
      (Followed k plan) (fun e _ y => Stopped k plan e y) (outerBody surface) := by
  rintro i hi inner t y hunused hr ⟨rfl, hcount, hpositive⟩
  refine (ends_followPlan hcount).andThen ?_
  rintro - t z ⟨rfl, bounds, hbounds, rfl⟩
  rw [hx] at hr
  by_cases hzero : innerCount k plan i = 0
  · rw [hzero] at hbounds
    refine Ends.bind (ends_loop_unbounded hr.running (contains_inner rfl hr.frames)
      (bound_of_get?_zero hbounds) hunused ?_)
    subst hk
    refine ⟨i, hi, hpositive, hzero, rfl, Instance.aborted_fail _ _, ?_, ?_⟩
    · rw [Instance.stack_fail]
      exact hr.frames
    · rw [Instance.events_fail]
      refine hr.events.trans ?_
      rw [hevents]
      rfl
  · refine Ends.mono (ends_innerLoop (b := ⟨innerCount k plan i, hzero⟩) hr.running rfl hr.frames
      hbounds hunused fun _ _ _ => Stopped.aborted) ?_ fun _ _ _ he => he
    rintro tail u v ⟨hyields, hfeed, hinner, rfl, hbounds'⟩
    refine ⟨⟨hyields.unused, hyields.origin, hyields.spares⟩, hfeed, ?_, rfl, ?_, ?_⟩
    · rw [hr.frames]
      exact ⟨hinner.running, hinner.frames, hinner.events⟩
    · rw [hbounds']
      exact hbounds
    · intro j hj
      rcases Nat.lt_succ_iff_lt_or_eq.1 hj with hlt | rfl
      · exact hpositive j hlt
      · exact hzero

/-! ## The outcome -/

theorem run_eq_of_ends {bounds : BoundTable} {r : Outcome}
    (h : (driver surface).Ends plan (Instance.create ⟨0⟩ bounds (some ⟨0⟩))
      (fun _ _ y => r = ⟨.ok (), y.stack, y.aborted, y.events⟩)
      (fun e _ y => r = ⟨.error (.fault e), y.stack, y.aborted, y.events⟩)) :
    run surface bounds plan = r := by
  unfold run
  unfold Ends Drive.on at h
  dsimp only
  split at h
  · next heq => rw [heq]; exact h.symm
  · next heq => rw [heq]; exact h.symm
  · cases h

/-- The reference for a run in which every inner loop can start. -/
theorem reference_of_positive {bounds : BoundTable} (hk : bounds.get? Nested.param = some k)
    (hzero : k ≠ 0) (hpositive : ∀ i < k.toNat, innerCount k plan i ≠ 0) :
    reference bounds plan =
      ⟨.ok (), .empty, false, (Nested.word k (innerCount k plan)).toArray⟩ := by
  have hfind : ((List.range k.toNat).find? fun i => innerCount k plan i = 0) = none := by
    refine List.find?_range_eq_none.2 ?_
    simpa using hpositive
  simp only [reference, hk, if_neg hzero, hfind]

/-- The reference for a run that stops in an outer body. -/
theorem reference_of_stopped {bounds : BoundTable} {e : Fault} {y : Instance}
    (hk : bounds.get? Nested.param = some k) (hzero : k ≠ 0) (h : Stopped k plan e y) :
    reference bounds plan = ⟨.error (.fault e), y.stack, y.aborted, y.events⟩ := by
  obtain ⟨i, hi, hbefore, hi₀, rfl, haborted, hframes, hevents⟩ := h
  have hfind : ((List.range k.toNat).find? fun i => innerCount k plan i = 0) = some i := by
    refine List.find?_range_eq_some.2 ⟨by simpa using hi₀, List.mem_range.2 hi, ?_⟩
    simpa using hbefore
  rw [FrameStack.eq_of_frames hframes, haborted, ← y.events.toArray_toList, hevents]
  simp only [reference, hk, if_neg hzero, hfind]

/-- **Every driver does what the reference says**, on every table and every plan. -/
theorem run_eq_reference (surface : Surface) (bounds : BoundTable) (plan : Plan) :
    run surface bounds plan = reference bounds plan := by
  refine run_eq_of_ends ?_
  rw [driver_eq]
  refine Ends.bind (ends_act (Act.ends_issue ?_))
  have hunused := Guards.isConsumed_issue_next Guards.empty
  have hnew : FrameStack.empty.contains Nested.outerId = false := rfl
  cases hk : bounds.get? Nested.param with
  | none =>
    have hbound : bounds.bound Nested.param = .error (.unknownParameter Nested.param) := by
      simp [BoundTable.bound, hk]
    refine Ends.bind (ends_loop_unbounded rfl hnew hbound hunused ?_)
    simp only [reference, hk]
    rfl
  | some k =>
    by_cases hzero : k = 0
    · subst hzero
      refine Ends.bind (ends_loop_unbounded rfl hnew (bound_of_get?_zero hk) hunused ?_)
      simp only [reference, hk]
      rfl
    · let b : Bound := ⟨k, hzero⟩
      have hstart : CanStart (Nested.outer surface)
          { Instance.create ⟨0⟩ bounds (some ⟨0⟩) with guards := Guards.empty.issue }
          ⟨Guards.empty.next, Nested.start surface, none⟩ b :=
        ⟨rfl, hnew, bound_of_get? hk, hunused⟩
      have hfollowed : Followed k plan 0 plan bounds := ⟨rfl, hk, by simp⟩
      have hloop := ends_loop hstart (outerBody_runs rfl rfl rfl) hfollowed
        fun _ _ _ => Stopped.aborted
      refine (hloop.mono (fun _ _ _ h => h) ?_).andThen ?_
      · intro e _ y hstopped
        exact reference_of_stopped hk hzero hstopped
      · rintro done t y ⟨hyields, -, hr, -, -, hpositive⟩
        refine ends_act ((Token.ends_finish hr.running hyields.unused hr.frames).mono ?_
          fun _ _ he => he)
        intro _ z hz
        have hall := hr.trans hz
        rw [reference_of_positive hk hzero hpositive, hall.stack, hall.running,
          ← z.events.toArray_toList, hall.events]
        rfl

end LoopProtocol.CompleteRun
