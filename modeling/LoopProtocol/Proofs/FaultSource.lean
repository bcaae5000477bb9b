import LoopProtocol.Proofs.Abort
import LoopProtocol.Proofs.Failure
import LoopProtocol.Proofs.Recorded

/-!
# Where the fault of a move comes from

A fault that a move replies was brought in by the driver, or is that of a call on an instance: the
call that the move attempts, or the turn of a callback loop after its body returned. The engine is
to blame for none of them, unless the instance was aborted before or a loop was entered anew while
it runs further out.
-/

namespace LoopProtocol

/-! ## Calls -/

/-- A parameter without a bound holds nothing, or zero. -/
theorem BoundTable.bound_error {t : BoundTable} {name : String} {e : Fault}
    (h : t.bound name = .error e) :
    e = .unknownParameter name ∨ ∃ count, e = .invalidBound name count := by
  unfold bound at h
  split at h
  · cases h
    exact .inl rfl
  · split at h <;> cases h
    exact .inr ⟨_, rfl⟩

/-- **What an engine fault of a call tells**, unless it is that of a body. No call finds the stack
empty that it needs a frame of. -/
theorem Call.Fails.engine {x : Instance} {c : Call} {e : Fault} (h : Fails x c e)
    (hc : ∀ fault, c ≠ .fail fault) :
    e ≠ .stackUnderflow ∧ ∀ cause, e = .engineFault cause → x.aborted = true ∨
      ∃ head, c.enters? = some head ∧ x.stack.onTop? head.id = none ∧
        x.stack.contains head.id = true := by
  cases h with
  | used => exact ⟨nofun, nofun⟩
  | aborted ha => exact ⟨nofun, fun _ _ => .inl ha⟩
  | own => exact absurd rfl (hc e)
  | obstacle _ _ hobstacle =>
    cases hobstacle with
    | buried henters htop hburied =>
      exact ⟨nofun, fun _ _ => .inr ⟨_, henters, htop, hburied⟩⟩
    | unbounded _ _ hb =>
      rcases BoundTable.bound_error hb with rfl | ⟨count, rfl⟩ <;> exact ⟨nofun, nofun⟩
    | exhausted | notOnTop | early | unclosed | unfinished | refused => exact ⟨nofun, nofun⟩

/-! ## Moves that attempt nothing -/

namespace Session

open SessionM

/-- The fault that a move brings in: raised by the driver, or that of the body of a callback
loop. -/
def brought? (s : Session) : Move → Option Fault
  | .act (.raise fault) => some fault
  | m => (s.bodyFault? m).map (·.2)

variable {s : Session} {m : Move} {h : Handle} {c : Call} {e : Fault}

theorem reply_issue {i : InstanceId} {x : Instance} (hx : s.world.instance? i = some x)
    (site : Site) (feed : Option SequenceId) (dest : String) :
    ((on i (Act.issue site feed) >>= fun
      | .ok t => give dest i t
      | .error fault => pure (.fault fault)).run s).1.fault? = none := by
  have hok : (s.world.on i (Act.issue site feed)).1 = .ok ⟨x.guards.next, site, feed⟩ := by
    rw [World.on_eq hx, Act.on_issue]
  exact congrArg Reply.fault? (reply_onGive hok dest)

/-- What ends at a site was not attempted, for want of a sequence to feed. -/
theorem run_finish {point : EndPoint} (hnone : h.token.endCall? point = none) (s : Session) :
    (finish h point).run s = (.unsupported, s) := by
  cases point with
  | protocol closes => cases hnone
  | iteration nextBody =>
    have hfeed : h.token.feed = none := Option.map_eq_none_iff.1 hnone
    simp only [finish, hfeed]
    rfl

/-- **An action that attempts nothing replies no fault**, unless it is to raise one. -/
theorem fault?_perform (hs : s.Issued) {action : Action} (hnone : s.attempt? (.act action) = none)
    (hraise : ∀ fault, action ≠ .raise fault) : ((perform action).run s).1.fault? = none := by
  let R : Reply × Session → Prop := fun p => p.1.fault? = none
  show R ((perform action).run s)
  have hcall : ∀ {name : String} {g : Handle}, (Move.act action).source? = some name →
      s.vars.get? name = some (.state g) → s.callOn? g.token (.act action) = none :=
    fun hname hget => callOn?_eq_none hnone hname hget
  cases action with
  | raise fault => exact absurd rfl (hraise fault)
  | issue site i dest => exact withInstance_of rfl fun x hx => reply_issue hx site none dest
  | setParam name bound i =>
    refine withInstance_of rfl fun x hx => ?_
    have hok : (s.world.on i (Act.setParam name bound)).1 = .ok (x.bounds.get? name) := by
      rw [World.on_eq hx, Act.on_setParam]
    rw [run_on, hok]
    rfl
  | params i | top i | frames i => exact withInstance_of rfl fun x _ => rfl
  | events r | clearEvents r => rfl
  | «alias» of dest => exact withState_of rfl rfl fun h _ => rfl
  | drop of =>
    rw [run_drop]
    cases s.vars.get? of <;> rfl
  | info of => exact withState_of rfl rfl fun h _ => withInstance_of rfl fun x _ => rfl
  | loopId of =>
    refine withState_of rfl rfl fun h _ => ?_
    split <;> rfl
  | hasMore of =>
    refine withState_of rfl rfl fun h _ => withInstance_of rfl fun x _ => ?_
    split <;> rfl
  | take of dest => exact withSequence_of rfl rfl fun i q _ => rfl
  | use of u =>
    refine withState_of rfl rfl fun h hget => ?_
    cases hcall rfl hget
  | fork of dest =>
    refine withState_of rfl rfl fun h hget => ?_
    obtain ⟨x, hx, -⟩ := hs.vars of h hget
    split
    · exact reply_issue hx .item h.token.feed dest
    · rfl
  | enter source surface dest after =>
    refine withSource_of rfl rfl fun h p hget hp => ?_
    have hnothing := hcall rfl hget
    simp [callOn?, hp] at hnothing
  | exit source dest =>
    refine withSource_of (R := R) rfl rfl fun h shape hget hshape => ?_
    have hnothing := hcall rfl hget
    simp [callOn?, hshape] at hnothing
  | send source label dest =>
    refine withSource_of (R := R) rfl rfl fun h point hget hpoint => ?_
    have hnothing := hcall rfl hget
    simp [callOn?, hpoint] at hnothing
  | finish source =>
    refine withSource_of (R := R) rfl rfl fun h point hget hend => ?_
    have hnothing := hcall rfl hget
    rw [callOn?, hend, Option.bind_some] at hnothing
    rw [run_finish hnothing]
    rfl
  | finishTaking source sequence dest | finishDropping source sequence =>
    refine withSource_of (R := R) rfl rfl fun h point hget hend => ?_
    refine withSequence_of rfl rfl fun i q hseq => ?_
    have hnothing := hcall rfl hget
    rw [sequenceIn?_moveOut hget] at hseq
    simp only [callOn?, hend, hseq, Option.bind_some] at hnothing
    rw [StateT.run_bind, run_finish hnothing]
    rfl

/-- **The body of a callback loop failed.** The move replies the fault of the body, and leaves the
loop's instance aborted. -/
theorem reply_of_bodyFault? {i : InstanceId} (hs : s.Issued)
    (hbody : s.bodyFault? m = some (i, e)) :
    s.reply m = .fault e ∧ (s.after [m]).world.Aborted i := by
  cases m with
  | act action => cases hbody
  | foreach source dest => cases hbody
  | returnFault fault =>
    obtain ⟨loop, hhead, hloop⟩ := Option.map_eq_some_iff.1 hbody
    cases hloop
    obtain ⟨outer, hrunning⟩ := List.head?_eq_some_iff.1 hhead
    obtain ⟨x, hx⟩ := hs.running loop (by simp [hrunning])
    have hfailed := run_bodyFailed (s := { s with running := outer }) (by exact hx) e
    rwa [← run_returnFault hrunning] at hfailed
  | returnState name =>
    obtain ⟨loop, hhead, hloop⟩ := Option.bind_eq_some_iff.1 hbody
    split at hloop
    · cases hloop
    · next hnot =>
      cases hloop
      obtain ⟨outer, hrunning⟩ := List.head?_eq_some_iff.1 hhead
      have htail : ∀ h, s.vars.get? name = some (.state h) → h.token.site ≠ loop.shape.tail :=
        fun h hget => by simpa [stateIn?, hget] using hnot
      obtain ⟨x, hx⟩ := hs.running loop (by simp [hrunning])
      obtain ⟨s', y, hy, hrun⟩ := run_noTail hrunning hx htail
      have hfailed := run_bodyFailed hy noTail
      rwa [← hrun] at hfailed

/-- A move that attempts nothing replies only a fault that it brings in. -/
theorem brought_of_idle (hs : s.Issued) (hnone : s.attempt? m = none)
    (he : (s.reply m).fault? = some e) : s.brought? m = some e := by
  have hquiet : (s.reply m).fault? ≠ none := by simp [he]
  cases m with
  | foreach source dest =>
    refine absurd (withSource_of (R := fun p => p.1.fault? = none) rfl rfl ?_) hquiet
    intro h shape hget hshape
    have hnothing := callOn?_eq_none hnone rfl hget
    simp [callOn?, hshape] at hnothing
  | act action =>
    by_cases hraise : ∃ fault, action = .raise fault
    · obtain ⟨fault, rfl⟩ := hraise
      exact he
    · exact absurd (fault?_perform hs hnone fun fault h => hraise ⟨fault, h⟩) hquiet
  | returnFault fault =>
    cases hrunning : s.running with
    | nil =>
      exact absurd (congrArg (·.1.fault?) (run_returning_nil hrunning)) hquiet
    | cons loop outer =>
      have hbody : s.bodyFault? (.returnFault fault) = some (loop.owner, fault) := by
        simp [bodyFault?, hrunning]
      rw [(reply_of_bodyFault? hs hbody).1] at he
      simpa [brought?, hbody, Reply.fault?] using he
  | returnState name =>
    cases hrunning : s.running with
    | nil =>
      exact absurd (congrArg (·.1.fault?) (run_returning_nil hrunning)) hquiet
    | cons loop outer =>
      have hnot : ∀ h, s.vars.get? name = some (.state h) → h.token.site ≠ loop.shape.tail := by
        intro h hget htail
        rw [attempt?_returnState hrunning hget htail] at hnone
        cases hnone
      have hbody := bodyFault?_returnState hrunning hnot
      rw [(reply_of_bodyFault? hs hbody).1] at he
      simpa [brought?, hbody, Reply.fault?] using he

/-- When an engine fault of a move was to be expected: an instance that the move works on was
aborted, or the loop to be entered runs further out. -/
inductive Foreseen (s : Session) (m : Move) : Prop where
  /-- The instance of the state that the move uses was aborted. -/
  | aborted {h : Handle} {c : Call} : s.attempt? m = some (h, c) → s.world.Aborted h.owner →
    Foreseen s m
  /-- The instance of the loop that goes on after its body was aborted. -/
  | loopAborted {name : String} {loop : RunningLoop} {outer : List RunningLoop} :
    m = .returnState name → s.running = loop :: outer → s.world.Aborted loop.owner → Foreseen s m
  /-- The loop's head is entered, and the loop is on the stack but not on top. -/
  | buried {h : Handle} {c : Call} {x : Instance} {head : LoopHead} :
    s.attempt? m = some (h, c) → s.world.instance? h.owner = some x → c.enters? = some head →
    x.stack.onTop? head.id = none → x.stack.contains head.id = true → Foreseen s m

/-- The turn of a callback loop fails with no engine fault on an instance that was not aborted. -/
theorem engine_of_advance {loop : RunningLoop} {x : Instance}
    (hx : s.world.instance? loop.owner = some x)
    (he : ((on loop.owner (Callback.advance loop.shape) >>= takeTurn loop).run s).1.fault? =
      some e) :
    e ≠ .stackUnderflow ∧ ∀ cause, e = .engineFault cause → x.aborted = true := by
  rw [run_on] at he
  cases hr : (s.world.on loop.owner (Callback.advance loop.shape)).1 with
  | ok turn =>
    rw [hr] at he
    cases turn <;> cases he
  | error fault =>
    rw [hr] at he
    obtain rfl : fault = e := Option.some.inj he
    have herror : ((Call.advance loop.shape loop.owner).act.on x).1 = .error fault := by
      rw [World.on_eq hx] at hr
      have hon : ((Callback.advance loop.shape).on x).1 = .error fault := hr
      rw [Call.act, Act.on_map, hon]
      rfl
    obtain ⟨hunder, hengine⟩ := (Call.fails_of_error herror).engine (by simp)
    refine ⟨hunder, fun cause hcause => (hengine cause hcause).resolve_right ?_⟩
    rintro ⟨head, hc, -⟩
    cases hc

/-- A state was used, and no instance was aborted by that. -/
theorem exists_after_consume {i : InstanceId} {x y : Instance} {v : Unit}
    (hx : s.world.instance? h.owner = some x) (hy : s.world.instance? i = some y)
    (hv : (s.world.on h.owner h.token.consume).1 = .ok v) :
    ∃ z, (s.world.on h.owner h.token.consume).2.instance? i = some z ∧ z.aborted = y.aborted := by
  by_cases hi : i = h.owner
  · subst hi
    obtain rfl := Option.some.inj (hx.symm.trans hy)
    rw [World.on_eq hx] at hv
    exact ⟨_, World.instance?_on_self hx _, ((Act.records_consume h.token x).of_ok hv).2⟩
  · exact ⟨y, (World.instance?_on_of_ne hi _).trans hy, rfl⟩

/-- What ends at a site came to its end, or waits. -/
theorem fault?_finish {s' : Session} {point : EndPoint} {grant : Grant}
    (hs : s'.world = s.world) (hc : h.token.endCall? point = some c)
    (hok : (s.world.on h.owner c.act).1 = .ok grant) :
    ((finish h point).run s').1.fault? = none := by
  have hopens : s.Opens h c (.act (.finish ⟨"", true⟩)) ((finish h point >>= pure).run s') :=
    opens_finish hs hc (fun r => only_pure r) (fun r => only_pure r) (fun _ _ => rfl)
      fun _ _ _ hr => hr
  rw [bind_pure] at hopens
  exact hopens.accepted rfl grant hok

/-- Only an end that waits fails when a sequence is dropped. -/
theorem handOffClosed_of_dropAfter {sequence : String} {q : SequenceId} {ended : Reply}
    (hended : ended.fault? = none)
    (he : ((dropAfter sequence q ended).run s).1.fault? = some e) : e = .handOffClosed q.loop := by
  have hreply : ((dropAfter sequence q ended).run s).1.fault? =
      failureOfEnd (some (.handOffClosed q.loop)) ended := by
    unfold dropAfter
    cases failureOfEnd (some (.handOffClosed q.loop)) ended <;> rfl
  rw [hreply] at he
  cases ended <;> cases he
  · cases hended
  · rfl

/-- **Where the fault of a move comes from.** It was brought in, or it is no underflow of the stack,
and an engine fault only if that was to be expected. -/
theorem fault_source (hs : s.Issued) (he : (s.reply m).fault? = some e) :
    s.brought? m = some e ∨
      e ≠ .stackUnderflow ∧ ∀ cause, e = .engineFault cause → s.Foreseen m := by
  cases hattempt : s.attempt? m with
  | none => exact .inl (brought_of_idle hs hattempt he)
  | some p =>
    obtain ⟨h, c⟩ := p
    right
    obtain ⟨name, hname, hget, hcall⟩ := attempt?_eq_some_iff.1 hattempt
    obtain ⟨x, hx, -⟩ := hs.vars name h hget
    have hopens := opens_attempt hattempt
    cases hr : (s.world.on h.owner c.act).1 with
    | error fault =>
      obtain rfl : fault = e := by
        rw [reply, (hopens.refused fault hr).1] at he
        exact Option.some.inj he
      rw [World.on_eq hx] at hr
      have hfail : ∀ f, c ≠ .fail f := by
        rintro f rfl
        cases uses_of_attempt? hattempt
      obtain ⟨hunder, hengine⟩ := (Call.fails_of_error hr).engine hfail
      refine ⟨hunder, fun cause hcause => ?_⟩
      rcases hengine cause hcause with ha | ⟨head, henters, htop, hburied⟩
      · exact .aborted hattempt ⟨x, hx, ha⟩
      · exact .buried hattempt hx henters htop hburied
    | ok grant =>
      cases hgoes : m.goesOn with
      | false =>
        rw [reply, hopens.accepted hgoes grant hr] at he
        cases he
      | true =>
        match m, hgoes with
        | .act (.finishDropping source sequence), _ =>
          cases hname
          obtain ⟨p, hp, hend⟩ := Option.bind_eq_some_iff.1 hcall
          obtain ⟨point, hpoint, hc⟩ := Option.bind_eq_some_iff.1 hend
          have hended : ((finish h point).run (s.moveOut source)).1.fault? = none :=
            fault?_finish world_moveOut hc hr
          rw [reply, run_finishDropping hget hpoint hp, StateT.run_bind] at he
          obtain rfl := handOffClosed_of_dropAfter hended he
          exact ⟨nofun, nofun⟩
        | .returnState name, _ =>
          cases hname
          obtain ⟨loop, hloop, hc⟩ := Option.bind_eq_some_iff.1 hcall
          obtain ⟨outer, hrunning⟩ := List.head?_eq_some_iff.1 hloop
          have htail : h.token.site = loop.shape.tail := by
            by_contra hne
            rw [if_neg hne] at hc
            cases hc
          rw [if_pos htail] at hc
          cases hc
          obtain ⟨v, hv⟩ := World.on_map_eq_ok hr
          obtain ⟨y, hy⟩ := hs.running loop (by simp [hrunning])
          obtain ⟨z, hz, haborted⟩ := exists_after_consume hx hy hv
          rw [reply, run_returnState hrunning hget htail, run_on] at he
          rw [show (s.world.on h.owner h.token.consume).1 = .ok () from hv] at he
          obtain ⟨hunder, hengine⟩ := engine_of_advance (by exact hz) he
          refine ⟨hunder, fun cause hcause => .loopAborted rfl hrunning ⟨y, hy, ?_⟩⟩
          rw [← haborted, hengine cause hcause]

end Session

end LoopProtocol
