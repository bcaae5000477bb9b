import LoopProtocol.Proofs.Attempt

/-!
# Moves besides attempts

A move that attempts no transition uses no state, and takes a body or fails the body of a callback
loop only if that is what it is for. So the world after any moves came from the world before by
calls, each attempted by a move or idle.
-/

namespace LoopProtocol

namespace SessionM

variable {α : Type} {kind : Deed → Prop} {s : Session}

/-! ## What a step works on -/

section Works

variable {R : Reply × Session → Prop}

theorem withState_of {name : String} {f : Handle → SessionM Reply} (hnone : R (.noState, s))
    (hother : R (.unsupported, s))
    (hf : ∀ h, s.vars.get? name = some (.state h) → R ((f h).run s)) :
    R ((withState name f).run s) := by
  simp only [withState, StateT.run_bind, StateT.run_get, pure_bind]
  split
  · next h hget => exact hf h hget
  · exact hother
  · exact hnone

theorem withSequence_of {name : String} {f : InstanceId → SequenceId → SessionM Reply}
    (hnone : R (.noState, s)) (hother : R (.unsupported, s))
    (hf : ∀ i q, s.sequenceIn? name = some (i, q) → R ((f i q).run s)) :
    R ((withSequence name f).run s) := by
  simp only [withSequence, StateT.run_bind, StateT.run_get, pure_bind]
  split
  · next i q hget => exact hf i q (Session.sequenceIn?_eq_some_iff.2 hget)
  · exact hother
  · exact hnone

theorem withInstance_of {i : InstanceId} {f : Instance → SessionM Reply}
    (hother : R (.unsupported, s))
    (hf : ∀ x, s.world.instance? i = some x → R ((f x).run s)) :
    R ((withInstance i f).run s) := by
  simp only [withInstance, StateT.run_bind, StateT.run_get, pure_bind]
  split
  · next x hx => exact hf x hx
  · exact hother

theorem withSource_of {source : Source} {p : Site → Option α} {f : Handle → α → SessionM Reply}
    (hnone : R (.noState, s)) (hother : R (.unsupported, s))
    (hf : ∀ h v, s.vars.get? source.name = some (.state h) → p h.token.site = some v →
      R ((f h v).run (s.moveOut source))) : R ((withSource source p f).run s) := by
  refine withState_of hnone hother fun h hget => ?_
  cases hv : p h.token.site with
  | none => exact hother
  | some v =>
    have hmoved := hf h v hget hv
    unfold Session.moveOut at hmoved
    cases hkeep : source.keep <;> rw [hkeep] at hmoved <;> exact hmoved

end Works

theorem only_withState {name : String} {f : Handle → SessionM Reply}
    (hf : ∀ h, (f h).Only kind) : (withState name f).Only kind := by
  refine only_get fun s => ?_
  split
  · exact hf _
  · exact only_pure _
  · exact only_pure _

theorem only_withInstance {i : InstanceId} {f : Instance → SessionM Reply}
    (hf : ∀ x, (f x).Only kind) : (withInstance i f).Only kind := by
  refine only_get fun s => ?_
  split
  · exact hf _
  · exact only_pure _

/-- Steps on a state that is in its variable. -/
theorem steps_withState {name : String} {f : Handle → SessionM Reply}
    (hf : ∀ h, s.vars.get? name = some (.state h) →
      s.world.Steps kind ((f h).run s).2.world) :
    s.world.Steps kind ((withState name f).run s).2.world :=
  withState_of (R := fun p => s.world.Steps kind p.2.world) (.refl _) (.refl _) hf

/-- Steps on a state that is in its variable and at a site where they are possible. -/
theorem steps_withSource {source : Source} {p : Site → Option α} {f : Handle → α → SessionM Reply}
    (hf : ∀ h v, s.vars.get? source.name = some (.state h) → p h.token.site = some v →
      s.world.Steps kind ((f h v).run (s.moveOut source)).2.world) :
    s.world.Steps kind ((withSource source p f).run s).2.world :=
  withSource_of (R := fun p => s.world.Steps kind p.2.world) (.refl _) (.refl _) hf

/-- A state that is issued, and then stored. -/
theorem only_onGive {i : InstanceId} (c : Call) {a : Act Token} (hact : c.act = .state <$> a)
    (hc : kind (.call i c)) (hreleases : ∀ e : Deed, e.Releases → kind e) {dest : String} :
    Only kind (on i a >>= fun
      | .ok t => give dest i t
      | .error fault => pure (.fault fault)) := by
  refine (only_on c hact hc).bind fun r => ?_
  cases r with
  | ok t => exact (only_give dest i t).mono hreleases
  | error fault => exact only_pure _

/-- A state that can end nothing is not used. -/
theorem only_finish {h : Handle} {point : EndPoint} (hnone : h.token.endCall? point = none) :
    (finish h point).Only kind := by
  cases point with
  | protocol closes => cases hnone
  | iteration nextBody =>
    have hfeed : h.token.feed = none := Option.map_eq_none_iff.1 hnone
    simp only [finish, hfeed]
    exact only_pure _

theorem only_bodyFailed {loop : RunningLoop} {fault : Fault}
    (hkind : kind (.call loop.owner (.fail fault))) : (bodyFailed loop fault).Only kind :=
  Only.bind (only_on (.fail fault) rfl hkind) fun r => only_answer .done r

theorem steps_returning {f : RunningLoop → SessionM Reply}
    (hf : ∀ loop outer, s.running = loop :: outer →
      s.world.Steps kind ((f loop).run { s with running := outer }).2.world) :
    s.world.Steps kind ((returning f).run s).2.world := by
  cases hrunning : s.running with
  | nil =>
    rw [run_returning_nil hrunning]
    exact .refl _
  | cons loop outer =>
    rw [run_returning_cons hrunning]
    exact hf loop outer hrunning

end SessionM

namespace Session

open SessionM

variable {s : Session} {m : Move}

theorem callOn?_eq_none (hnone : s.attempt? m = none) {name : String} {h : Handle}
    (hname : m.source? = some name) (hget : s.vars.get? name = some (.state h)) :
    s.callOn? h.token m = none := by
  cases hc : s.callOn? h.token m with
  | none => rfl
  | some c =>
    rw [attempt?_eq_some_iff.2 ⟨name, hname, hget, hc⟩] at hnone
    cases hnone

/-- The end of what ends at a site was not attempted, for want of a sequence to feed or of one to
work with. -/
theorem steps_end {kind : Deed → Prop} {source : Source} {sequence : String} {h : Handle}
    {point : EndPoint} {f : InstanceId → SequenceId → Reply → SessionM Reply}
    (hget : s.vars.get? source.name = some (.state h))
    (hnone : ((s.sequenceIn? sequence).bind fun _ => h.token.endCall? point) = none)
    (hf : ∀ owner q r, s.sequenceIn? sequence = some (owner, q) → (f owner q r).Only kind) :
    s.world.Steps kind ((withSequence sequence fun owner q =>
      finish h point >>= f owner q).run (s.moveOut source)).2.world := by
  have hstay : s.world.Steps kind (s.moveOut source).world := by
    rw [world_moveOut]
    exact .refl _
  refine withSequence_of (R := fun p => s.world.Steps kind p.2.world) hstay hstay
    fun owner q hseq => ?_
  rw [sequenceIn?_moveOut hget] at hseq
  rw [hseq, Option.bind_some] at hnone
  exact ((only_finish hnone).bind fun r => hf owner q r hseq).steps world_moveOut

theorem besides_perform {action : Action} (hnone : s.attempt? (.act action) = none) :
    s.world.Steps (s.Besides (.act action)) ((perform action).run s).2.world := by
  have hreleases : ∀ e : Deed, e.Releases → s.Besides (.act action) e := fun _ =>
    besides_of_releases
  cases action with
  | use of u =>
    refine steps_withState fun h hget => ?_
    have hcall := callOn?_eq_none hnone rfl hget
    cases hcall
  | enter source surface dest after =>
    refine steps_withSource fun h p hget hp => ?_
    have hcall := callOn?_eq_none hnone rfl hget
    simp [callOn?, hp] at hcall
  | exit source dest =>
    refine steps_withSource fun h shape hget hshape => ?_
    have hcall := callOn?_eq_none hnone rfl hget
    simp [callOn?, hshape] at hcall
  | send source label dest =>
    refine steps_withSource fun h point hget hpoint => ?_
    have hcall := callOn?_eq_none hnone rfl hget
    simp [callOn?, hpoint] at hcall
  | finish source =>
    refine steps_withSource fun h point hget hend => ?_
    have hcall := callOn?_eq_none hnone rfl hget
    rw [callOn?, hend, Option.bind_some] at hcall
    exact (only_finish hcall).steps world_moveOut
  | finishTaking source sequence dest =>
    refine steps_withSource fun h point hget hend => ?_
    have hcall := callOn?_eq_none hnone rfl hget
    simp only [callOn?, hend, Option.bind_some] at hcall
    refine steps_end hget hcall fun owner q r hseq => ?_
    have htakes : s.takesFrom? (.act (.finishTaking source sequence dest)) = some (owner, q) := by
      simp [takesFrom?, stateIn?_eq_some_iff.2 hget, hend, hseq]
    exact ((only_take owner q dest).mono fun _ => besides_of_take htakes).bind fun _ => only_pure _
  | finishDropping source sequence =>
    refine steps_withSource fun h point hget hend => ?_
    have hcall := callOn?_eq_none hnone rfl hget
    simp only [callOn?, hend, Option.bind_some] at hcall
    refine steps_end hget hcall fun owner q r _ => (only_remove sequence).bind fun held => ?_
    refine ((only_release held).mono hreleases).bind fun _ => ?_
    split <;> exact only_pure _
  | issue site i dest =>
    have hissue : s.Besides (.act (.issue site i dest)) (.call i (.issue site)) := rfl
    refine Only.steps (only_withInstance fun _ => ?_) rfl
    exact only_onGive (.issue site) rfl hissue hreleases
  | setParam name bound i =>
    refine Only.steps (only_withInstance fun _ => ?_) rfl
    refine Only.bind (only_on (.setParam name bound) rfl rfl) fun r => ?_
    split <;> exact only_pure _
  | params i | top i | frames i =>
    exact Only.steps (only_withInstance fun _ => only_pure _) rfl
  | events r | raise fault => exact .refl _
  | clearEvents r => exact .cons (e := .clear r) trivial (.refl _)
  | «alias» of dest =>
    exact Only.steps (only_withState fun h => (only_give dest h.owner h.token).mono hreleases) rfl
  | drop of =>
    refine Only.steps ((only_remove of).bind fun held => ?_) rfl
    cases held with
    | none => exact only_pure _
    | some held => exact ((only_release (some held)).mono hreleases).bind fun _ => only_pure _
  | info of =>
    exact Only.steps (only_withState fun h => only_withInstance fun x => only_pure _) rfl
  | loopId of =>
    refine Only.steps (only_withState fun h => ?_) rfl
    split <;> exact only_pure _
  | hasMore of =>
    refine Only.steps (only_withState fun h => only_withInstance fun x => ?_) rfl
    split <;> exact only_pure _
  | take of dest =>
    refine withSequence_of (R := fun p => s.world.Steps _ p.2.world) (.refl _) (.refl _)
      fun owner q hseq => ?_
    have htake := (only_take owner q dest).mono fun _ =>
      besides_of_take (m := .act (.take of dest)) hseq
    exact (htake.bind fun _ => only_pure _).steps rfl
  | fork of dest =>
    refine Only.steps (only_withState fun h => ?_) rfl
    have hfork : s.Besides (.act (.fork of dest)) (.call h.owner (.fork h.token)) := rfl
    split
    · exact only_onGive (.fork h.token) rfl hfork hreleases
    · exact only_pure _

/-- **What a move without an attempt can do.** -/
theorem besides_move (hnone : s.attempt? m = none) :
    s.world.Steps (s.Besides m) (s.after [m]).world := by
  show s.world.Steps (s.Besides m) ((move m).run s).2.world
  cases m with
  | foreach source dest =>
    refine steps_withSource fun h shape hget hshape => ?_
    have hcall := callOn?_eq_none hnone rfl hget
    simp [callOn?, hshape] at hcall
  | returnFault fault =>
    refine steps_returning fun loop outer hrunning => (only_bodyFailed ?_).steps rfl
    simp [Besides, bodyFault?, hrunning]
  | returnState name =>
    refine steps_returning fun loop outer hrunning => ?_
    have hfail (h : ∀ h, s.vars.get? name = some (.state h) → h.token.site ≠ loop.shape.tail) :
        (bodyFailed loop noTail).Only (s.Besides (.returnState name)) := by
      exact only_bodyFailed (bodyFault?_returnState hrunning h)
    have hbesides : ∀ held, s.vars.get? name = held →
        (bodyReturned loop held).Only (s.Besides (.returnState name)) := by
      intro held hheld
      rcases held with _ | h | ⟨owner, q⟩
      · exact hfail (by simp [hheld])
      · have hcall := callOn?_eq_none hnone rfl hheld
        have htail : h.token.site ≠ loop.shape.tail := by
          simpa [callOn?, hrunning] using hcall
        simp only [bodyReturned, if_neg htail]
        exact hfail fun g hget => by
          cases hheld.symm.trans hget
          exact htail
      · have hrelease := only_release (some (.sequence owner q))
        exact (hrelease.mono fun _ => besides_of_releases).bind fun _ => hfail (by simp [hheld])
    exact (hbesides (s.vars.get? name) rfl).steps rfl
  | act action => exact besides_perform hnone

/-- **A move without an attempt uses no state.** -/
theorem idle_move (hnone : s.attempt? m = none) :
    s.world.Steps Deed.IsIdle (s.after [m]).world :=
  (besides_move hnone).mono fun _ => Besides.isIdle

/-! ## Runs of moves -/

theorem steps_move (s : Session) (m : Move) :
    s.world.Steps (fun _ => True) (s.after [m]).world := by
  cases hattempt : s.attempt? m with
  | none => exact (idle_move hattempt).mono fun _ _ => trivial
  | some p =>
    have hopens := opens_attempt (h := p.1) (c := p.2) hattempt
    exact .cons (e := .call p.1.owner p.2) trivial (hopens.idle.mono fun _ _ => trivial)

theorem steps_after (s : Session) (moves : List Move) :
    s.world.Steps (fun _ => True) (s.after moves).world := by
  induction moves generalizing s with
  | nil => exact .refl _
  | cons m moves ih => exact (steps_move s m).trans (ih (s.after [m]))

/-- **What every call keeps, all moves keep.** -/
theorem related_after {R : Instance → Instance → Prop} (hrefl : ∀ x, R x x)
    (htrans : ∀ {x y z}, R x y → R y z → R x z) (hcall : ∀ (c : Call) x, R x (c.act.on x).2)
    {i : InstanceId} {x : Instance} (hx : s.world.instance? i = some x) (moves : List Move) :
    ∃ y, (s.after moves).world.instance? i = some y ∧ R x y := by
  induction moves generalizing s x with
  | nil => exact ⟨x, hx, hrefl x⟩
  | cons m moves ih =>
    obtain ⟨y, hy, hxy⟩ := (steps_move s m).related hrefl htrans (fun c x _ => hcall c x) hx
    obtain ⟨z, hz, hyz⟩ := ih hy
    exact ⟨z, hz, htrans hxy hyz⟩

end Session

end LoopProtocol
