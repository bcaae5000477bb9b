import LoopProtocol.Proofs.IdleMove
import LoopProtocol.Proofs.Issued

/-!
# Faults abort

A call that answers a fault leaves its instance aborted. So does every transition of a session, with
one exception: the state that the body of a callback loop returns is consumed on the state's own
instance, and if that fails, the loop's own instance is left as it is.
-/

namespace LoopProtocol

open Act

/-- **Every fault of a call aborts.** -/
theorem aborts_invariant :
    Invariant (fun _ => True) (fun _ _ => True) (fun _ => True) fun y => y.aborted = true where
  fail {x} _ e := x.aborted_fail e
  failAhead {_ x} _ e := x.aborted_fail e
  consume _ _ x _ := ends_consume x.aborted_fail fun _ => trivial
  issue _ _ _ _ := ends_issue trivial
  setParam _ _ _ _ := ends_setParam trivial
  accept _ _ _ := ends_accept trivial
  ensureClosed _ x _ := ends_ensureClosed x.aborted_fail fun _ _ => trivial
  terminate x _ := ends_terminate x.aborted_fail fun _ _ => trivial
  activate {x} _ _ _ :=
    ends_activate x.aborted_fail (fun _ _ _ _ _ => trivial) fun _ _ _ _ => trivial
  complete {x} _ _ := ends_complete x.aborted_fail fun _ _ _ _ _ => trivial
  iteration _ _ := ends_iteration trivial
  exitAhead {_ x} _ _ _ := ends_exit x.aborted_fail fun _ _ _ _ _ _ => trivial
  exit _ x _ := ends_exit x.aborted_fail fun _ _ _ _ _ _ => trivial
  openAhead _ _ := ends_openSequence trivial
  deliver _ _ _ _ := Ends.bind (ends_iteration (Ends.bind (ends_issue
    (ends_handOver (fun _ => Instance.aborted_fail _ _) fun _ _ _ => trivial))))
  close _ _ _ := ends_closeSequence trivial
  take _ _ _ := ends_take? (fun _ => trivial) (fun _ _ => trivial) fun _ _ _ _ => trivial
  abandon _ _ _ := ends_abandon trivial fun _ => trivial

namespace World

variable {w w' : World} {i : InstanceId} {x : Instance}

/-- The instance exists and is aborted. -/
def Aborted (w : World) (i : InstanceId) : Prop := ∃ x, w.instance? i = some x ∧ x.aborted = true

/-- A fault of an action that aborts. -/
theorem aborted_of_error {α : Type} {a : Act α} {e : Fault}
    (ha : a.Keeps (fun _ => True) fun y => y.aborted = true) (hx : w.instance? i = some x)
    (he : (w.on i a).1 = .error e) : (w.on i a).2.Aborted i := by
  refine ⟨_, instance?_on_self hx a, ?_⟩
  have hends := ha x trivial
  rw [on_eq hx] at he
  unfold Ends at hends
  split at hends
  · next v y hon => simp [hon] at he
  · next e y hon => rwa [hon]

/-- An abort is final. -/
theorem Aborted.steps {kind : Deed → Prop} (h : w.Aborted i) (hs : w.Steps kind w') :
    w'.Aborted i := by
  obtain ⟨x, hx, ha⟩ := h
  obtain ⟨y, hy, hgrown⟩ := hs.related Instance.Grown.refl Instance.Grown.trans
    (fun c x _ => c.grown x) hx
  exact ⟨y, hy, hgrown.aborted ha⟩

end World

namespace Session

open SessionM

variable {s : Session} {m : Move} {h : Handle} {c : Call} {e : Fault}

/-- A transition whose call fails leaves the state's instance aborted. -/
theorem aborted_of_refused (hs : s.Issued) (hattempt : s.attempt? m = some (h, c))
    (he : (s.world.on h.owner c.act).1 = .error e) : (s.after [m]).world.Aborted h.owner := by
  obtain ⟨name, -, hget, -⟩ := attempt?_eq_some_iff.1 hattempt
  obtain ⟨x, hx, -⟩ := hs.vars name h hget
  have hopens := opens_attempt hattempt
  exact (World.aborted_of_error (aborts_invariant.call c) hx he).steps hopens.idle

/-! ## Faults after an attempt -/

/-- The end of an iteration waits only for a slot that is taken. -/
theorem waiting_of_handOver (q : SequenceId) (body : Token) (x : Instance) :
    (Iterator.handOver q body).Ends x
      (fun progress y => progress = .waiting → (y.handOff q).waiting.isEmpty = false)
      fun _ _ => True := by
  unfold Ends
  rw [on_handOver]
  cases hclosed : (x.handOff q).isClosed with
  | true => exact trivial
  | false =>
    cases hqueue : (x.handOff q).queue with
    | nil => simp
    | cons t rest =>
      have hlt : q.index < x.sequences.size := by
        refine Nat.lt_of_not_le fun hle => ?_
        simp [Instance.handOff, Array.getD_eq_getD_getElem?, hle, HandOff.gone, HandOff.isClosed]
          at hclosed
      simp only [Bool.false_eq_true, if_false, List.isEmpty_cons]
      intro _
      show ((x.setHandOff q ((x.handOff q).offer body).2).handOff q).waiting.isEmpty = false
      rw [Iterator.handOff_setHandOff hlt, HandOff.waiting, HandOff.queue_offer hclosed, hqueue]
      simp

theorem waiting_of_endIteration (t : Token) (q : SequenceId) (nextBody : Site) (x : Instance) :
    (Iterator.endIteration t q nextBody).Ends x
      (fun progress y => progress = .waiting → (y.handOff q).waiting.isEmpty = false)
      fun _ _ => True := by
  refine ends_last fun _ _ => ends_last fun f y => ?_
  unfold Iterator.turn
  split
  · exact ends_last fun _ _ => ends_last fun body z => waiting_of_handOver q body z
  · exact ends_last fun _ _ => ends_last fun _ z => ends_pure fun h => by cases h

/-- A sequence whose producer waits is dropped. -/
theorem aborted_of_abandon {w : World} {owner : InstanceId} {q : SequenceId} {x : Instance}
    (hx : w.instance? owner = some x) (hwaiting : (x.handOff q).waiting.isEmpty = false) :
    (w.on owner (Call.abandon q).act).2.Aborted owner := by
  refine ⟨_, World.instance?_on_self hx (Call.abandon q).act, ?_⟩
  rw [Call.act, on_map, on_abandon, hwaiting]
  exact Instance.aborted_fail _ _

/-- What follows an end when a sequence is dropped with it. -/
def dropAfter (sequence : String) (q : SequenceId) (ended : Reply) : SessionM Reply := do
  release (← remove sequence)
  match failureOfEnd (some (.handOffClosed q.loop)) ended with
  | some fault => pure (.fault fault)
  | none => pure .done

theorem run_finishDropping {source : Source} {sequence : String} {point : EndPoint}
    {p : InstanceId × SequenceId} (hget : s.vars.get? source.name = some (.state h))
    (hpoint : h.token.site.end? = some point) (hp : s.sequenceIn? sequence = some p) :
    (move (.act (.finishDropping source sequence))).run s =
      (finish h point >>= dropAfter sequence p.2).run (s.moveOut source) := by
  refine (run_withSource hget hpoint).trans ?_
  rw [← sequenceIn?_moveOut hget] at hp
  exact run_withSequence hp

/-- The call was accepted and the move fails: the end of an iteration waits, and the sequence that
it feeds is dropped. -/
theorem waits_of_dropping {source : Source} {sequence : String} {grant : Grant}
    (hattempt : s.attempt? (.act (.finishDropping source sequence)) = some (h, c))
    (hown : ∀ q, h.token.feed = some q → s.sequenceIn? sequence = some (h.owner, q))
    (hok : (s.world.on h.owner c.act).1 = .ok grant)
    (he : (s.reply (.act (.finishDropping source sequence))).fault? = some e) :
    ∃ q nextBody, c = .endIteration h.token q nextBody ∧ e = .handOffClosed q.loop ∧
      (s.world.on h.owner (Iterator.endIteration h.token q nextBody)).1 = .ok .waiting ∧
      (s.after [.act (.finishDropping source sequence)]).world =
        ((s.world.on h.owner c.act).2.on h.owner (Call.abandon q).act).2 := by
  obtain ⟨name, hname, hget, hcall⟩ := attempt?_eq_some_iff.1 hattempt
  cases hname
  obtain ⟨p, hp, hend⟩ := Option.bind_eq_some_iff.1 hcall
  obtain ⟨point, hpoint, hc⟩ := Option.bind_eq_some_iff.1 hend
  have hrun := run_finishDropping hget hpoint hp
  unfold reply at he
  rw [hrun] at he
  cases point with
  | protocol closes =>
    cases hc
    obtain ⟨v, hv⟩ := World.on_map_eq_ok hok
    simp only [finish, bind_assoc, run_on, world_moveOut] at he
    rw [hv] at he
    cases he
  | iteration nextBody =>
    obtain ⟨q, hfeed, rfl⟩ := Option.map_eq_some_iff.1 hc
    obtain ⟨progress, hv⟩ := World.on_map_eq_ok hok
    have hfed : s.sequenceIn? sequence = some (h.owner, q) := hown q hfeed
    obtain rfl : p = (h.owner, q) := Option.some.inj (hp.symm.trans hfed)
    simp only [finish, hfeed, bind_assoc, run_on, world_moveOut] at he hrun
    rw [hv] at he hrun
    cases progress with
    | delivered | closed => cases he
    | waiting =>
      refine ⟨q, nextBody, rfl, (Option.some.inj he).symm, hv, ?_⟩
      have hseq : (s.moveOut source).vars.get? sequence = some (.sequence h.owner q) := by
        rw [← sequenceIn?_moveOut hget] at hfed
        exact sequenceIn?_eq_some_iff.1 hfed
      have hworld : (s.world.on h.owner (Call.endIteration h.token q nextBody).act).2 =
          (s.world.on h.owner (Iterator.endIteration h.token q nextBody)).2 := by
        rw [Call.act, World.on_map]
      have habandon : ∀ w : World, (w.on h.owner (Call.abandon q).act).2 =
          (w.on h.owner (Iterator.abandon q)).2 := fun w => by rw [Call.act, World.on_map]
      rw [hworld, habandon]
      show ((move _).run s).2.world = _
      rw [hrun]
      show ((release ((s.moveOut source).vars.get? sequence)).run _).2.world = _
      rw [hseq]
      rfl

/-- The end of an iteration waits, and the sequence that it feeds is dropped. -/
theorem aborted_of_dropping {source : Source} {sequence : String} (hs : s.Issued)
    (hattempt : s.attempt? (.act (.finishDropping source sequence)) = some (h, c))
    (hown : ∀ q, h.token.feed = some q → s.sequenceIn? sequence = some (h.owner, q))
    (he : (s.reply (.act (.finishDropping source sequence))).fault? = some e) :
    (s.after [.act (.finishDropping source sequence)]).world.Aborted h.owner := by
  cases hr : (s.world.on h.owner c.act).1 with
  | error fault => exact aborted_of_refused hs hattempt hr
  | ok grant =>
    obtain ⟨name, -, hget, -⟩ := attempt?_eq_some_iff.1 hattempt
    obtain ⟨x, hx, -⟩ := hs.vars name h hget
    obtain ⟨q, nextBody, rfl, -, hv, hworld⟩ := waits_of_dropping hattempt hown hr he
    rw [World.on_eq hx] at hv
    have hwaiting := (waiting_of_endIteration h.token q nextBody x).of_ok hv rfl
    have hy := World.instance?_on_self hx (Call.endIteration h.token q nextBody).act
    rw [hworld]
    exact aborted_of_abandon hy (by rwa [Call.act, on_map])

/-- The body of the loop returns a used state of another instance. -/
def ReturnsForeign (s : Session) (loop : RunningLoop) (m : Move) : Prop :=
  ∃ h x, s.attempt? m = some (h, .giveBack h.token) ∧ h.owner ≠ loop.owner ∧
    s.world.instance? h.owner = some x ∧ h.token.isConsumed x = true

/-- The body of a loop failed, be it that it returned no state that ends an iteration. -/
theorem run_bodyFailed {loop : RunningLoop} {x : Instance}
    (hx : s.world.instance? loop.owner = some x) (fault : Fault) :
    ((bodyFailed loop fault).run s).1 = .fault fault ∧
      ((bodyFailed loop fault).run s).2.world.Aborted loop.owner := by
  have he : (s.world.on loop.owner (Act.abort fault : Act Unit)).1 = .error fault := by
    rw [World.on_eq hx, on_abort_fail]
  rw [bodyFailed, run_answer, he]
  exact ⟨rfl, World.aborted_of_error (aborts_invariant.abort fault) hx he⟩

/-- The body of a loop returned nothing that ends an iteration, and a sequence is dropped. -/
theorem run_noTail {loop : RunningLoop} {outer : List RunningLoop} {name : String} {x : Instance}
    (hrunning : s.running = loop :: outer) (hx : s.world.instance? loop.owner = some x)
    (hnone : ∀ h, s.vars.get? name = some (.state h) → h.token.site ≠ loop.shape.tail) :
    ∃ (s' : Session) (y : Instance), s'.world.instance? loop.owner = some y ∧
      (move (.returnState name)).run s = (bodyFailed loop noTail).run s' := by
  let t : Session := { s with running := outer, vars := Variables.erase s.vars name }
  have hrun : ∀ held, s.vars.get? name = held →
      (move (.returnState name)).run s = (bodyReturned loop held).run t := by
    rintro held rfl
    exact run_return hrunning
  obtain ⟨held, hget⟩ : ∃ held, s.vars.get? name = held := ⟨_, rfl⟩
  rw [hrun held hget]
  match held with
  | none => exact ⟨t, x, hx, rfl⟩
  | some (.sequence owner q) =>
    have hdrained := (only_release (some (.sequence owner q))).steps (s := t) rfl
    obtain ⟨y, hy, -⟩ := hdrained.related Instance.Grown.refl Instance.Grown.trans
      (fun c x _ => c.grown x) hx
    exact ⟨_, y, hy, rfl⟩
  | some (.state h) =>
    refine ⟨t, x, hx, ?_⟩
    simp only [bodyReturned, if_neg (hnone h hget)]

/-- The loop goes on after its body's last state was consumed, and fails. -/
theorem aborted_of_advance {loop : RunningLoop} {x : Instance}
    (hx : s.world.instance? loop.owner = some x)
    (he : ((on loop.owner (Callback.advance loop.shape) >>= takeTurn loop).run s).1.fault? =
      some e) :
    ((on loop.owner (Callback.advance loop.shape) >>= takeTurn loop).run s).2.world.Aborted
      loop.owner := by
  rw [run_on] at he ⊢
  cases hr : (s.world.on loop.owner (Callback.advance loop.shape)).1 with
  | ok turn =>
    rw [hr] at he
    cases turn <;> cases he
  | error fault => exact World.aborted_of_error (aborts_invariant.callbackAdvance loop.shape) hx hr

/-- The body of a loop returned a state that ends its iterations. -/
theorem aborted_of_returnState {loop : RunningLoop} {outer : List RunningLoop} {name : String}
    (hs : s.Issued) (hrunning : s.running = loop :: outer)
    (hget : s.vars.get? name = some (.state h)) (htail : h.token.site = loop.shape.tail)
    (he : (s.reply (.returnState name)).fault? = some e) :
    (s.after [.returnState name]).world.Aborted loop.owner ∨
      s.ReturnsForeign loop (.returnState name) := by
  obtain ⟨x, hx⟩ := hs.running loop (by simp [hrunning])
  obtain ⟨y, hy, -⟩ := hs.vars name h hget
  have hattempt := attempt?_returnState hrunning hget htail
  have hrun := run_returnState hrunning hget htail
  rw [run_on] at hrun
  unfold reply at he
  show ((move (.returnState name)).run s).2.world.Aborted loop.owner ∨ _
  rw [hrun] at he ⊢
  cases hr : (s.world.on h.owner h.token.consume).1 with
  | ok v =>
    rw [hr] at he
    obtain ⟨z, hz⟩ := World.exists_on hx h.owner h.token.consume
    exact .inl (aborted_of_advance (by exact hz) he)
  | error fault =>
    by_cases howner : h.owner = loop.owner
    · have haborted := World.aborted_of_error (aborts_invariant.consume h.token trivial) hy hr
      refine .inl ?_
      show (s.world.on h.owner h.token.consume).2.Aborted loop.owner
      rwa [← howner]
    · refine .inr ⟨h, y, hattempt, howner, hy, ?_⟩
      rw [World.on_eq hy, on_consume] at hr
      cases hused : h.token.isConsumed y with
      | true => rfl
      | false => simp [hused] at hr

/-- **What comes of a body that returned.** If its loop fails, it is aborted, unless the body
returned a used state of another instance. -/
theorem aborted_of_return {loop : RunningLoop} {outer : List RunningLoop} {name : String}
    (hs : s.Issued) (hrunning : s.running = loop :: outer)
    (he : (s.reply (.returnState name)).fault? = some e) :
    (s.after [.returnState name]).world.Aborted loop.owner ∨
      s.ReturnsForeign loop (.returnState name) := by
  obtain ⟨x, hx⟩ := hs.running loop (by simp [hrunning])
  by_cases htail : ∃ h, s.vars.get? name = some (.state h) ∧ h.token.site = loop.shape.tail
  · obtain ⟨h, hget, hsite⟩ := htail
    exact aborted_of_returnState hs hrunning hget hsite he
  · obtain ⟨s', y, hy, hrun⟩ := run_noTail hrunning hx fun h hget hsite => htail ⟨h, hget, hsite⟩
    refine .inl ?_
    show ((move (.returnState name)).run s).2.world.Aborted loop.owner
    rw [hrun]
    exact (run_bodyFailed hy noTail).2

variable {recorders : Nat} {instances : List (BoundTable × Option RecorderId)} {moves : List Move}

/-- **A transition that fails leaves its instance aborted**, whatever the session did before. A
transition of a state is one on the state's instance; an end that waits for a dropped sequence fails
if the sequence is the one that it feeds. The return from a body is one on the instance of the loop,
which is aborted unless the body returned a used state of another instance. -/
theorem aborted_of_fault (hreached : s = (start recorders instances).after moves)
    (he : (s.reply m).fault? = some e) :
    (∀ h c, s.attempt? m = some (h, c) → (∀ name, m ≠ .returnState name) →
      (∀ source sequence q, m = .act (.finishDropping source sequence) → h.token.feed = some q →
        s.sequenceIn? sequence = some (h.owner, q)) →
      (s.after [m]).world.Aborted h.owner) ∧
    ∀ loop outer, s.running = loop :: outer →
      ((∃ name, m = .returnState name) ∨ ∃ fault, m = .returnFault fault) →
      (s.after [m]).world.Aborted loop.owner ∨ s.ReturnsForeign loop m := by
  have hs : s.Issued := by
    rw [hreached]
    exact issued_after recorders instances moves
  refine ⟨fun h c hattempt hreturn hown => ?_, fun loop outer hrunning hm => ?_⟩
  · cases hr : (s.world.on h.owner c.act).1 with
    | error fault => exact aborted_of_refused hs hattempt hr
    | ok grant =>
      cases hgoes : m.goesOn with
      | false =>
        have hnone := (opens_attempt hattempt).accepted hgoes grant hr
        unfold reply at he
        rw [hnone] at he
        cases he
      | true =>
        match m, hgoes with
        | .returnState name, _ => exact absurd rfl (hreturn name)
        | .act (.finishDropping source sequence), _ =>
          exact aborted_of_dropping hs hattempt (fun q => hown source sequence q rfl) he
  · obtain ⟨x, hx⟩ := hs.running loop (by simp [hrunning])
    rcases hm with ⟨name, rfl⟩ | ⟨fault, rfl⟩
    · exact aborted_of_return hs hrunning he
    · left
      show ((move (.returnFault fault)).run s).2.world.Aborted loop.owner
      rw [run_returnFault hrunning]
      exact (run_bodyFailed (by exact hx) fault).2

/-- A loop is left that was not entered. -/
theorem aborted_of_early_exit :
    let instances := [(BoundTable.ofList [("k", 1)], none)]
    let s := (start 0 instances).after [.act (.issue (Nested.start .polling) ⟨0⟩ "head")]
    let m : Move := .act (.exit ⟨"head", false⟩ "after")
    (s.reply m).fault? = some (.missingFrame Nested.outerId) ∧ (s.after [m]).world.Aborted ⟨0⟩ := by
  intro instances s m
  have he : (s.reply m).fault? = some (.missingFrame Nested.outerId) := by decide +kernel
  have hattempt : s.attempt? m = some (⟨⟨0⟩, ⟨⟨0⟩, Nested.start .polling, none⟩⟩,
      .exit (Nested.outer .polling) ⟨⟨0⟩, Nested.start .polling, none⟩) := rfl
  exact ⟨he, (aborted_of_fault rfl he).1 _ _ hattempt (by simp [m]) (by simp [m])⟩

/-- The body of a loop returns a used state of another instance. The loop fails, but its instance is
not aborted and keeps the loop's frame. -/
theorem running_after_return :
    let bounds := BoundTable.ofList [("k", 1)]
    let instances := [(bounds, some ⟨0⟩), (bounds, none)]
    let s := (start 1 instances).after
      [.act (.issue (Nested.start .callback) ⟨1⟩ "b"), .foreach ⟨"b", false⟩ "bd",
        .foreach ⟨"it", false⟩ "a", .act (.send ⟨"it", false⟩ "foo" "e"), .returnState "e",
        .act (.send ⟨"a", false⟩ "bar" "oe"), .act (.alias "oe" "x"), .returnState "oe",
        .act (.issue (Nested.start .callback) ⟨0⟩ "h"), .foreach ⟨"h", false⟩ "ad"]
    s.running.map (·.owner) = [⟨0⟩] ∧
    (s.reply (.returnState "x")).fault? = some (.linearityViolation "OuterEnd") ∧
    ((s.after [.returnState "x"]).world.instance? ⟨0⟩).map (fun x => (x.aborted, x.stack.frames)) =
      some (false, [⟨Nested.outerId, 0, 0⟩]) := by
  decide +kernel

end Session

end LoopProtocol
