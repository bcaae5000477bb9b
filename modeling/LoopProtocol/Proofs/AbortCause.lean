import LoopProtocol.Proofs.FirstFault

/-!
# What an instance is aborted by

An instance has no fault on record until it is aborted, and then the one that aborted it. That fault
is what a call on the instance failed with, and the move that made the call replies it; or the
consumer of a sequence left while a body waited to be handed over, and the fault is that the
hand-off is closed. Either way it is the first: no call on the instance failed before.
-/

namespace LoopProtocol

open Act

/-! ## One call -/

/-- Nothing went wrong on the instance. -/
structure Instance.Unfailed (x : Instance) : Prop where
  running : x.aborted = false
  recorded : x.recorded = []

/-- What a call on an instance that runs goes wrong with: the fault that it answers or, if a
consumer leaves for which a body waits, that the hand-off is closed. -/
inductive Call.GoesWrong (x : Instance) : Call → Fault → Prop where
  | answered {c : Call} {e : Fault} : (c.act.on x).1 = .error e → GoesWrong x c e
  | left {q : SequenceId} : (x.handOff q).waiting ≠ [] →
    GoesWrong x (.abandon q) (.handOffClosed q.loop)

namespace Instance.Unfailed

variable {x : Instance} {c : Call}

/-- A consumer leaves a sequence. -/
theorem abandon (h : x.Unfailed) (q : SequenceId) :
    ((Call.abandon q).act.on x).2.Unfailed ∨
      (x.handOff q).waiting ≠ [] ∧
        ((Call.abandon q).act.on x).2.Failed (.handOffClosed q.loop) := by
  rw [Call.act, on_map, on_abandon]
  cases hw : (x.handOff q).waiting with
  | nil => exact .inl ⟨h.running, h.recorded⟩
  | cons t rest =>
    refine .inr ⟨by simp, Instance.aborted_fail _ _, ?_⟩
    have hrun : (x.setHandOff q (x.handOff q).abandon).aborted = false := h.running
    have hnone : (x.setHandOff q (x.handOff q).abandon).recorded = [] := h.recorded
    simp [recorded_fail, hrun, hnone]

/-- **A call leaves nothing on record, or the fault that it went wrong with.** -/
theorem call (h : x.Unfailed) (c : Call) :
    (c.act.on x).2.Unfailed ∨ ∃ e, c.GoesWrong x e ∧ (c.act.on x).2.Failed e := by
  by_cases habandon : ∃ q, c = .abandon q
  · obtain ⟨q, rfl⟩ := habandon
    rcases h.abandon q with h' | ⟨hw, hfailed⟩
    · exact .inl h'
    · exact .inr ⟨_, .left hw, hfailed⟩
  · have hc : ∀ q, c ≠ .abandon q := fun q hq => habandon ⟨q, hq⟩
    cases hr : (c.act.on x).1 with
    | ok grant =>
      obtain ⟨hrecorded, haborted⟩ := (Call.records hc x).of_ok hr
      exact .inl ⟨haborted.trans h.running, hrecorded.trans h.recorded⟩
    | error e => exact .inr ⟨e, .answered hr, .of_error h.running h.recorded hr hc⟩

end Instance.Unfailed

/-- A harmless call goes wrong only if a consumer leaves. -/
theorem Call.GoesWrong.of_harmless {x : Instance} {c : Call} {e : Fault} (h : c.GoesWrong x e)
    (hc : c.isHarmless = true) : ∃ q, c = .abandon q := by
  cases h with
  | left => exact ⟨_, rfl⟩
  | answered he =>
    cases c with
    | abandon q => exact ⟨q, rfl⟩
    | issue site | fork t | setParam name bound =>
      exfalso
      simp [Call.act, on_issue, on_setParam, Except.map] at he
    | take q =>
      exfalso
      rw [Call.act, on_map, on_take?] at he
      split at he <;> simp [Except.map] at he
    | _ => cases hc

/-! ## Steps -/

/-- On the way from one world to the other the call went wrong with the fault. Nothing had gone
wrong on the instance before. -/
structure World.Wrong (kind : Deed → Prop) (w w' : World) (i : InstanceId) (c : Call) (e : Fault) :
    Prop where
  made : kind (.call i c)
  wrong : ∃ v x, w.Steps kind v ∧ v.instance? i = some x ∧ x.Unfailed ∧ c.GoesWrong x e ∧
    (v.perform (.call i c)).Steps kind w'
  failed : ∃ y, w'.instance? i = some y ∧ y.Failed e

namespace World

variable {kind kind' : Deed → Prop} {v w w' : World} {i : InstanceId} {x : Instance} {c : Call}
  {e : Fault}

theorem Wrong.mono (h : World.Wrong kind w w' i c e) (hkind : ∀ d, kind d → kind' d) :
    World.Wrong kind' w w' i c e := by
  obtain ⟨v, x, hv, hx, hsound, hwrong, hrest⟩ := h.wrong
  exact ⟨hkind _ h.made, ⟨v, x, hv.mono hkind, hx, hsound, hwrong, hrest.mono hkind⟩, h.failed⟩

theorem Wrong.after (h : World.Wrong kind w w' i c e) (hv : v.Steps kind w) :
    World.Wrong kind v w' i c e := by
  obtain ⟨u, x, hu, hrest⟩ := h.wrong
  exact ⟨h.made, ⟨u, x, hv.trans hu, hrest⟩, h.failed⟩

/-- The first of the steps goes wrong. -/
theorem wrong_of_goesWrong (hmade : kind (.call i c)) (hx : w.instance? i = some x)
    (hsound : x.Unfailed) (hwrong : c.GoesWrong x e) (hfailed : (c.act.on x).2.Failed e)
    (hrest : (w.perform (.call i c)).Steps kind w') : World.Wrong kind w w' i c e :=
  ⟨hmade, ⟨w, x, .refl w, hx, hsound, hwrong, hrest⟩,
    hrest.failed (instance?_on_self hx c.act) hfailed⟩

/-- **Nothing goes wrong along the steps, or a first call does.** -/
theorem Steps.unfailed_or_wrong (h : w.Steps kind w') (hx : w.instance? i = some x)
    (hsound : x.Unfailed) :
    (∃ y, w'.instance? i = some y ∧ y.Unfailed) ∨ ∃ c e, World.Wrong kind w w' i c e := by
  induction h generalizing x with
  | refl => exact .inl ⟨x, hx, hsound⟩
  | @cons w w' d hd hrest ih =>
    have hstep : w.Steps kind (w.perform d) := .cons hd (.refl _)
    cases d with
    | clear r => exact (ih hx hsound).imp_right fun ⟨c, e, hw⟩ => ⟨c, e, hw.after hstep⟩
    | call j c =>
      by_cases hij : i = j
      · subst hij
        rcases hsound.call c with hsound' | ⟨e, hwrong, hfailed⟩
        · exact (ih (instance?_on_self hx c.act) hsound').imp_right fun ⟨c, e, hw⟩ =>
            ⟨c, e, hw.after hstep⟩
        · exact .inr ⟨c, e, wrong_of_goesWrong hd hx hsound hwrong hfailed hrest⟩
      · exact (ih ((instance?_on_of_ne hij c.act).trans hx) hsound).imp_right fun ⟨c, e, hw⟩ =>
          ⟨c, e, hw.after hstep⟩

/-- Along harmless steps only the departure of a consumer goes wrong. -/
theorem Steps.unfailed_or_left (h : w.Steps kind w') (hx : w.instance? i = some x)
    (hsound : x.Unfailed) (hkind : ∀ c, kind (.call i c) → c.isHarmless = true) :
    (∃ y, w'.instance? i = some y ∧ y.Unfailed) ∨
      ∃ q e, World.Wrong kind w w' i (.abandon q) e := by
  refine (h.unfailed_or_wrong hx hsound).imp_right ?_
  rintro ⟨c, e, hw⟩
  obtain ⟨v, y, -, -, -, hwrong, -⟩ := hw.wrong
  obtain ⟨q, rfl⟩ := hwrong.of_harmless (hkind c hw.made)
  exact ⟨q, e, hw⟩

end World

/-! ## One move -/

namespace Session

open SessionM

variable {s : Session} {m : Move} {i : InstanceId} {x : Instance} {h : Handle} {t : Token}
  {c : Call} {e : Fault}

/-- What a move does: the call that it attempts, and what it does besides. -/
def Does (s : Session) (m : Move) (d : Deed) : Prop :=
  s.Besides m d ∨ ∃ h c, s.attempt? m = some (h, c) ∧ d = .call h.owner c

/-- A call of the move was the first on the instance to go wrong, with the fault. The move replies
the fault, unless the call was the departure of a consumer. -/
def AbortsWith (s : Session) (m : Move) (i : InstanceId) (e : Fault) : Prop :=
  ∃ c, World.Wrong (s.Does m) s.world (s.after [m]).world i c e ∧
    ((∃ q, c = .abandon q) ∨ (s.reply m).fault? = some e)

theorem AbortsWith.failed (h : s.AbortsWith m i e) :
    ∃ y, (s.after [m]).world.instance? i = some y ∧ y.Failed e := by
  obtain ⟨c, hwrong, -⟩ := h
  exact hwrong.failed

/-- Nothing is on record after the move, or it aborted the instance. -/
def SoundOrAborts (s : Session) (m : Move) (i : InstanceId) : Prop :=
  (∃ y, (s.after [m]).world.instance? i = some y ∧ y.Unfailed) ∨ ∃ e, s.AbortsWith m i e

theorem does_of_besides {d : Deed} (hd : s.Besides m d) : s.Does m d := .inl hd

theorem steps_attempt (hattempt : s.attempt? m = some (h, c)) :
    s.world.Steps (s.Does m) (s.world.on h.owner c.act).2 :=
  .cons (e := .call h.owner c) (.inr ⟨h, c, hattempt, rfl⟩) (.refl _)

/-- After some of what the move does, the rest is harmless. -/
theorem soundOrAborts_of_rest {kind : Deed → Prop} {w : World} (hdone : s.world.Steps (s.Does m) w)
    (hrest : w.Steps kind (s.after [m]).world) (hx : w.instance? i = some x) (hsound : x.Unfailed)
    (hdoes : ∀ d, kind d → s.Does m d) (hkind : ∀ c, kind (.call i c) → c.isHarmless = true) :
    s.SoundOrAborts m i := by
  refine (hrest.unfailed_or_left hx hsound hkind).imp_right ?_
  rintro ⟨q, e, hw⟩
  exact ⟨e, .abandon q, (hw.mono hdoes).after hdone, .inl ⟨q, rfl⟩⟩

/-- A move that attempts nothing. -/
theorem soundOrAborts_of_besides (hs : s.Issued) (hx : s.world.instance? i = some x)
    (hsound : x.Unfailed) (hnone : s.attempt? m = none) : s.SoundOrAborts m i := by
  refine ((besides_move hnone).unfailed_or_wrong hx hsound).imp_right ?_
  rintro ⟨c, e, hw⟩
  refine ⟨e, c, hw.mono fun _ => does_of_besides, ?_⟩
  obtain ⟨v, y, -, -, -, hwrong, -⟩ := hw.wrong
  by_cases hc : c.isHarmless = true
  · exact .inl (hwrong.of_harmless hc)
  · -- the body of a callback loop failed
    right
    have hmade := hw.made
    cases c with
    | issue site | fork t | setParam name bound | take q | abandon q => exact absurd rfl hc
    | fail fault =>
      obtain rfl : fault = e := by
        cases hwrong with
        | answered he => simpa [Call.act, on_abort_fail, Except.map] using he
      rw [(reply_of_bodyFault? hs hmade).1]
      rfl
    | advance shape j =>
      obtain ⟨h, loop, hsome, -⟩ := hmade
      simp [hnone] at hsome
    | _ => cases hmade

/-- The call that a move attempts goes wrong. -/
theorem aborts_of_attempt (hattempt : s.attempt? m = some (⟨i, t⟩, c))
    (hx : s.world.instance? i = some x) (hsound : x.Unfailed) (hwrong : c.GoesWrong x e)
    (hfailed : (c.act.on x).2.Failed e) : s.AbortsWith m i e := by
  have hopens := opens_attempt hattempt
  have hrest := hopens.besides.mono fun _ => does_of_besides
  refine ⟨c, World.wrong_of_goesWrong (.inr ⟨_, c, hattempt, rfl⟩) hx hsound hwrong hfailed hrest,
    ?_⟩
  cases hwrong with
  | left => exact .inl ⟨_, rfl⟩
  | answered he => exact .inr (hopens.refused e (by rw [World.on_eq hx, he])).1

/-- The session in which a callback loop has gone on, before what came of it is stored. -/
def goneOn (s : Session) (h : Handle) (loop : RunningLoop) (outer : List RunningLoop)
    (name : String) : Session where
  world := ((s.world.on h.owner h.token.consume).2.on loop.owner (Callback.advance loop.shape)).2
  running := outer
  vars := Variables.erase s.vars name

theorem perform_advance (s : Session) (h : Handle) (loop : RunningLoop)
    (outer : List RunningLoop) (name : String) :
    (s.world.on h.owner h.token.consume).2.perform
      (.call loop.owner (.advance loop.shape h.owner)) = (s.goneOn h loop outer name).world := by
  show ((s.world.on h.owner h.token.consume).2.on loop.owner (Call.advance ..).act).2 = _
  rw [Call.act, World.on_map]
  rfl

section GoesOn

variable {name : String} {loop : RunningLoop} {outer : List RunningLoop}
  (hrunning : s.running = loop :: outer) (hget : s.vars.get? name = some (.state h))
  (htail : h.token.site = loop.shape.tail)
  (hok : (s.world.on h.owner h.token.consume).1 = .ok ())
include hrunning hget htail hok

/-- The body of a callback loop returned a state that ends an iteration, and the loop goes on. -/
theorem run_goesOn :
    (move (.returnState name)).run s = (takeTurn loop ((s.world.on h.owner h.token.consume).2.on
      loop.owner (Callback.advance loop.shape)).1).run (s.goneOn h loop outer name) := by
  rw [run_returnState hrunning hget htail, run_on, hok]
  rfl

/-- What comes of a loop that went on is stored, and that is all. -/
theorem steps_goesOn :
    (s.goneOn h loop outer name).world.Steps Deed.Releases
      (s.after [.returnState name]).world := by
  show World.Steps _ _ ((move (.returnState name)).run s).2.world
  rw [run_goesOn hrunning hget htail hok]
  exact (only_takeTurn loop _).steps rfl

/-- A loop that goes on and fails replies its fault. -/
theorem reply_goesOn
    (hx : (s.world.on h.owner h.token.consume).2.instance? loop.owner = some x)
    (he : ((Call.advance loop.shape h.owner).act.on x).1 = .error e) :
    (s.reply (.returnState name)).fault? = some e := by
  have hfault : ((Callback.advance loop.shape).on x).1 = .error e := by
    rw [Call.act, on_map] at he
    cases hr : ((Callback.advance loop.shape).on x).1 with
    | ok turn => simp [hr, Except.map] at he
    | error e' => simpa [hr, Except.map] using he
  rw [reply, run_goesOn hrunning hget htail hok, World.on_eq hx, hfault]
  rfl

theorem soundOrAborts_of_advance
    (hx : (s.world.on h.owner h.token.consume).2.instance? i = some x) (hsound : x.Unfailed) :
    s.SoundOrAborts (.returnState name) i := by
  have hattempt := attempt?_returnState hrunning hget htail
  have hdone : s.world.Steps (s.Does (.returnState name))
      (s.world.on h.owner h.token.consume).2 := by
    have hsteps := steps_attempt hattempt
    rwa [Call.act, World.on_map] at hsteps
  have hmade : s.Does (.returnState name) (.call loop.owner (.advance loop.shape h.owner)) :=
    .inl ⟨h, loop, hattempt, by simp [hrunning], rfl, rfl⟩
  have hworld := perform_advance s h loop outer name
  have hturn := steps_goesOn hrunning hget htail hok
  have hreleases : ∀ d : Deed, d.Releases → s.Does (.returnState name) d := fun d hd =>
    does_of_besides (besides_of_releases hd)
  -- nothing is on record after the loop went on
  have hrest : ∀ {y : Instance}, (s.goneOn h loop outer name).world.instance? i = some y →
      y.Unfailed → s.SoundOrAborts (.returnState name) i := by
    intro y hy hsound'
    refine soundOrAborts_of_rest (hdone.trans (.cons hmade ?_)) hturn hy hsound' hreleases ?_
    · rw [hworld]
      exact .refl _
    · intro c hc
      cases c with
      | abandon q => rfl
      | _ => exact absurd hc id
  by_cases howner : i = loop.owner
  · subst howner
    rcases hsound.call (.advance loop.shape h.owner) with hsound' | ⟨e, hwrong, hfailed⟩
    · refine hrest ?_ hsound'
      rw [← hworld]
      exact World.instance?_on_self hx (Call.advance loop.shape h.owner).act
    · have hafter := hturn.mono hreleases
      rw [← hworld] at hafter
      have hcall := World.wrong_of_goesWrong hmade hx hsound hwrong hfailed hafter
      refine .inr ⟨e, _, hcall.after hdone, .inr ?_⟩
      cases hwrong with
      | answered he => exact reply_goesOn hrunning hget htail hok hx he
  · exact hrest ((World.instance?_on_of_ne howner _).trans hx) hsound

end GoesOn

/-- The body of a callback loop returned a state of another instance, or its last one. -/
theorem soundOrAborts_of_returnState (hattempt : s.attempt? m = some (h, .giveBack h.token))
    (hx : (s.world.on h.owner (Call.giveBack h.token).act).2.instance? i = some x)
    (hsound : x.Unfailed) : s.SoundOrAborts m i := by
  obtain ⟨name, hname, hget, hcall⟩ := attempt?_eq_some_iff.1 hattempt
  obtain ⟨name', rfl, -⟩ := eq_returnState hattempt
  cases hname
  obtain ⟨loop, hloop, hc⟩ := Option.bind_eq_some_iff.1 hcall
  obtain ⟨outer, hrunning⟩ := List.head?_eq_some_iff.1 hloop
  have htail : h.token.site = loop.shape.tail := by
    by_contra hne
    simp [hne] at hc
  rw [Call.act, World.on_map] at hx
  cases hr : (s.world.on h.owner h.token.consume).1 with
  | ok v => exact soundOrAborts_of_advance hrunning hget htail hr hx hsound
  | error e =>
    refine .inl ⟨x, ?_, hsound⟩
    show ((move (.returnState name)).run s).2.world.instance? i = some x
    rw [run_returnState hrunning hget htail, run_on, hr]
    exact hx

/-- **One move.** Nothing is on record after it, or one of its calls was the first to go wrong. -/
theorem soundOrAborts (hs : s.Issued) (hx : s.world.instance? i = some x) (hsound : x.Unfailed)
    (m : Move) : s.SoundOrAborts m i := by
  cases hattempt : s.attempt? m with
  | none => exact soundOrAborts_of_besides hs hx hsound hattempt
  | some p =>
    obtain ⟨h, c⟩ := p
    -- first the call that the move attempts, and then the rest
    have hafter : (∃ e, s.AbortsWith m i e) ∨
        ∃ y, (s.world.on h.owner c.act).2.instance? i = some y ∧ y.Unfailed := by
      by_cases howner : i = h.owner
      · subst howner
        rcases hsound.call c with hsound' | ⟨e, hwrong, hfailed⟩
        · exact .inr ⟨_, World.instance?_on_self hx c.act, hsound'⟩
        · exact .inl ⟨e, aborts_of_attempt hattempt hx hsound hwrong hfailed⟩
      · exact .inr ⟨x, (World.instance?_on_of_ne howner c.act).trans hx, hsound⟩
    rcases hafter with haborts | ⟨y, hy, hsound'⟩
    · exact .inr haborts
    · by_cases hback : c = .giveBack h.token
      · subst hback
        exact soundOrAborts_of_returnState hattempt hy hsound'
      · refine soundOrAborts_of_rest (steps_attempt hattempt) (opens_attempt hattempt).besides hy
          hsound' (fun _ => does_of_besides) fun c' hbesides => ?_
        refine harmless_of_besides hbesides (fun e => ?_) fun g loop hgave => ?_
        · simp [bodyFault?_of_attempt? hattempt]
        · cases hattempt.symm.trans hgave
          exact absurd rfl hback

/-! ## All moves -/

/-- Of the moves one aborted the instance, with the fault. All transitions that were attempted on
the instance before had succeeded. -/
def FirstAbort (s : Session) (moves : List Move) (i : InstanceId) (e : Fault) : Prop :=
  ∃ before m later, moves = before ++ m :: later ∧ (s.after before).AbortsWith m i e ∧
    ∀ before' m' later' t c, before = before' ++ m' :: later' →
      (s.after before').attempt? m' = some (⟨i, t⟩, c) →
        ∃ grant, ((s.after before').world.on i c.act).1 = .ok grant

variable {recorders : Nat} {instances : List (BoundTable × Option RecorderId)}

/-- What was attempted on an instance that still runs has succeeded. -/
theorem ok_of_unfailed {before later : List Move}
    (hx : ((start recorders instances).after (before ++ m :: later)).world.instance? i = some x)
    (hsound : x.Unfailed)
    (hattempt : ((start recorders instances).after before).attempt? m = some (⟨i, t⟩, c)) :
    ∃ grant, (((start recorders instances).after before).world.on i c.act).1 = .ok grant := by
  cases hr : (((start recorders instances).after before).world.on i c.act).1 with
  | ok grant => exact ⟨grant, rfl⟩
  | error e =>
    have haborted := aborted_of_refused (issued_after recorders instances before) hattempt hr
    obtain ⟨y, hy, ha⟩ := haborted.steps (steps_after _ later)
    rw [← after_append, ← after_append] at hy
    obtain rfl := Option.some.inj (hx.symm.trans hy)
    simp [hsound.running] at ha

/-- **All moves.** Nothing is on record after them, or one of them aborted the instance. -/
theorem unfailed_or_firstAbort (recorders : Nat) (hi : i.index < instances.length)
    (moves : List Move) :
    ∃ x, ((start recorders instances).after moves).world.instance? i = some x ∧
      (x.Unfailed ∨ ∃ e, (start recorders instances).FirstAbort moves i e ∧ x.Failed e) := by
  induction moves using List.reverseRecOn with
  | nil =>
    have hx : (start recorders instances).world.instance? i =
        some (Instance.create i instances[i.index].1 instances[i.index].2) := by
      rw [instance?_start, List.getElem?_eq_getElem hi, Option.map_some]
    exact ⟨_, hx, .inl ⟨rfl, rfl⟩⟩
  | append_singleton moves m ih =>
    obtain ⟨x, hx, hsound | ⟨e, ⟨before, m', later, rfl, hrest⟩, hfailed⟩⟩ := ih
    · rw [after_append]
      rcases soundOrAborts (issued_after recorders instances moves) hx hsound m with
        ⟨y, hy, hsound'⟩ | ⟨e, haborts⟩
      · exact ⟨y, hy, .inl hsound'⟩
      · obtain ⟨y, hy, hfailed⟩ := haborts.failed
        refine ⟨y, hy, .inr ⟨e, ⟨moves, m, [], rfl, haborts, ?_⟩, hfailed⟩⟩
        rintro before' m' later' t c rfl hattempt
        exact ok_of_unfailed hx hsound hattempt
    · obtain ⟨y, hy, hkept⟩ := related_after (R := fun x y => x.Failed e → y.Failed e)
        (fun _ hx => hx) (fun hxy hyz hx => hyz (hxy hx)) (fun c x hx => hx.call c) hx [m]
      rw [after_append]
      exact ⟨y, hy, .inr ⟨e, ⟨before, m', later ++ [m], by simp, hrest⟩, hkept hfailed⟩⟩

end Session

end LoopProtocol
