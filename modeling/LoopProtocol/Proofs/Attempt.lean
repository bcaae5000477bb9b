import LoopProtocol.Proofs.SessionDeeds
import LoopProtocol.Proofs.Steps

/-!
# Attempts

A move attempts a transition when it works on a state with a call that uses the state up. This
module tells which moves do, on which state and with which call. The call comes first: what the move
does before it changes no instance, a fault of the call is what the move replies, and after a fault
nothing happens but that sequences are drained.
-/

namespace LoopProtocol

/-- The state in a variable. -/
def Session.stateIn? (s : Session) (name : String) : Option Handle :=
  match s.vars.get? name with
  | some (.state h) => some h
  | _ => none

/-- The sequence in a variable, with its instance. -/
def Session.sequenceIn? (s : Session) (name : String) : Option (InstanceId × SequenceId) :=
  match s.vars.get? name with
  | some (.sequence owner q) => some (owner, q)
  | _ => none

theorem Session.sequenceIn?_eq_some_iff {s : Session} {name : String}
    {p : InstanceId × SequenceId} :
    s.sequenceIn? name = some p ↔ s.vars.get? name = some (.sequence p.1 p.2) := by
  unfold sequenceIn?
  split
  · next hget => simp [hget, Prod.ext_iff]
  · next hne => simpa using fun hget => hne _ _ hget

/-- The variable with the state that a move works on. -/
def Move.source? : Move → Option String
  | .act (.use of _) => some of
  | .act (.enter source _ _ _) | .act (.exit source _) | .act (.send source _ _)
  | .act (.finish source) | .act (.finishTaking source _ _) | .act (.finishDropping source _)
  | .foreach source _ => some source.name
  | .returnState name => some name
  | _ => none

/-- Whether a move can find another fault after the call that it attempts: a callback loop goes on,
and the end of an iteration can wait for a sequence that is then dropped. -/
def Move.goesOn : Move → Bool
  | .act (.finishDropping _ _) | .returnState _ => true
  | _ => false

/-- The call that ends what ends at a state's site. -/
def Token.endCall? (t : Token) : EndPoint → Option Call
  | .protocol closes => some (.finish t closes)
  | .iteration nextBody => t.feed.map fun s => .endIteration t s nextBody

namespace Session

/-- The call that uses up the state a move works on. -/
def callOn? (s : Session) (t : Token) : Move → Option Call
  | .act (.use _ u) => some (.use t u)
  | .act (.enter _ surface _ _) =>
    (SessionM.enterable? surface t.site).map fun p =>
      if p.1 = .iterator then .iterate p.2 t else .enter p.2 t
  | .act (.exit _ _) => (t.site.loop? .polling).map (.exit · t)
  | .act (.send _ label _) => (t.site.send?.filter (·.label = label)).map (.send t)
  | .act (.finish _) => t.site.end?.bind t.endCall?
  | .act (.finishTaking _ sequence _) | .act (.finishDropping _ sequence) =>
    (s.sequenceIn? sequence).bind fun _ => t.site.end?.bind t.endCall?
  | .foreach _ _ => (t.site.loop? .callback).map (.begin · t)
  | .returnState _ =>
    s.running.head?.bind fun loop =>
      if t.site = loop.shape.tail then some (.giveBack t) else none
  | _ => none

/-- The state on which a move attempts a transition, and the call that it is attempted with. -/
def attempt? (s : Session) (m : Move) : Option (Handle × Call) :=
  m.source?.bind fun name =>
    (s.stateIn? name).bind fun h => (s.callOn? h.token m).map (h, ·)

/-- What a move replies. -/
def reply (s : Session) (m : Move) : Reply := ((SessionM.move m).run s).1

/-- The fault that the body of the innermost callback loop ends with, be it that it returned no
state that ends an iteration, and the instance of the loop. -/
def bodyFault? (s : Session) : Move → Option (InstanceId × Fault)
  | .returnFault fault => s.running.head?.map fun loop => (loop.owner, fault)
  | .returnState name =>
    s.running.head?.bind fun loop =>
      if (s.stateIn? name).any (·.token.site = loop.shape.tail) then none
      else some (loop.owner, SessionM.noTail)
  | _ => none

/-- The sequence that a move takes from, with its instance. -/
def takesFrom? (s : Session) : Move → Option (InstanceId × SequenceId)
  | .act (.take of _) => s.sequenceIn? of
  | .act (.finishTaking source sequence _) =>
    (s.stateIn? source.name).bind fun h => h.token.site.end?.bind fun _ => s.sequenceIn? sequence
  | _ => none

/-- What a move may do besides the transition that it attempts. -/
def Besides (s : Session) (m : Move) : Deed → Prop
  | .call i (.take q) => s.takesFrom? m = some (i, q)
  | .call i (.fail fault) => s.bodyFault? m = some (i, fault)
  | .call i (.advance shape _) => ∃ h loop, s.attempt? m = some (h, .giveBack h.token) ∧
    s.running.head? = some loop ∧ loop.owner = i ∧ loop.shape = shape
  | .call _ c => c.uses = none
  | .clear _ => True

variable {s : Session} {m : Move} {h : Handle} {c : Call}

theorem stateIn?_eq_some_iff {name : String} :
    s.stateIn? name = some h ↔ s.vars.get? name = some (.state h) := by
  unfold stateIn?
  split <;> simp_all

theorem attempt?_eq_some_iff : s.attempt? m = some (h, c) ↔
    ∃ name, m.source? = some name ∧ s.vars.get? name = some (.state h) ∧
      s.callOn? h.token m = some c := by
  simp only [attempt?, Option.bind_eq_some_iff, Option.map_eq_some_iff, Prod.mk.injEq]
  grind [stateIn?_eq_some_iff]

/-- The body of the innermost loop returns a state that ends an iteration of it. -/
theorem attempt?_returnState {loop : RunningLoop} {outer : List RunningLoop} {name : String}
    (hrunning : s.running = loop :: outer) (hget : s.vars.get? name = some (.state h))
    (htail : h.token.site = loop.shape.tail) :
    s.attempt? (.returnState name) = some (h, .giveBack h.token) :=
  attempt?_eq_some_iff.2 ⟨name, rfl, hget, by simp [callOn?, hrunning, htail]⟩

/-- The body of the innermost loop returns no such state. -/
theorem bodyFault?_returnState {loop : RunningLoop} {outer : List RunningLoop} {name : String}
    (hrunning : s.running = loop :: outer)
    (hnot : ∀ h, s.vars.get? name = some (.state h) → h.token.site ≠ loop.shape.tail) :
    s.bodyFault? (.returnState name) = some (loop.owner, SessionM.noTail) := by
  have hnone : (s.stateIn? name).any (·.token.site = loop.shape.tail) = false := by
    unfold stateIn?
    split
    · next g hget => simpa using hnot g hget
    · rfl
  simp [bodyFault?, hrunning, hnone]

theorem uses_endCall? {t : Token} {point : EndPoint} (h : t.endCall? point = some c) :
    c.uses = some t := by
  cases point with
  | protocol closes => cases h; rfl
  | iteration nextBody =>
    obtain ⟨q, -, rfl⟩ := Option.map_eq_some_iff.1 h
    rfl

/-- An attempt uses up the state that the move works on. -/
theorem uses_callOn? {t : Token} (h : s.callOn? t m = some c) : c.uses = some t := by
  cases m with
  | returnFault fault => cases h
  | foreach source dest =>
    obtain ⟨shape, -, rfl⟩ := Option.map_eq_some_iff.1 h
    rfl
  | returnState name =>
    obtain ⟨loop, -, hc⟩ := Option.bind_eq_some_iff.1 h
    split at hc <;> cases hc
    rfl
  | act action =>
    cases action with
    | use of u =>
      cases h
      rfl
    | enter source surface dest after =>
      obtain ⟨p, -, rfl⟩ := Option.map_eq_some_iff.1 h
      split <;> rfl
    | exit source dest | send source label dest =>
      obtain ⟨_, -, rfl⟩ := Option.map_eq_some_iff.1 h
      rfl
    | finish source =>
      obtain ⟨point, -, hc⟩ := Option.bind_eq_some_iff.1 h
      exact uses_endCall? hc
    | finishTaking source sequence dest | finishDropping source sequence =>
      obtain ⟨_, -, hend⟩ := Option.bind_eq_some_iff.1 h
      obtain ⟨point, -, hc⟩ := Option.bind_eq_some_iff.1 hend
      exact uses_endCall? hc
    | _ => cases h

theorem Besides.isIdle {e : Deed} (h : s.Besides m e) : e.IsIdle := by
  cases e with
  | clear r => trivial
  | call i c => cases c <;> first | rfl | exact h

theorem besides_of_releases {e : Deed} (h : e.Releases) : s.Besides m e := by
  cases e with
  | clear r => exact h.elim
  | call i c => cases c <;> first | rfl | exact h.elim

theorem besides_of_take {i : InstanceId} {q : SequenceId} (hm : s.takesFrom? m = some (i, q))
    {e : Deed} (h : e = .call i (.take q) ∨ e.Releases) : s.Besides m e := by
  rcases h with rfl | h
  · exact hm
  · exact besides_of_releases h

theorem uses_of_attempt? (h' : s.attempt? m = some (h, c)) : c.uses = some h.token := by
  obtain ⟨name, -, -, hcall⟩ := attempt?_eq_some_iff.1 h'
  exact uses_callOn? hcall

end Session

theorem Variables.get?_erase_of_ne {vs : Variables} {name name' : String} (h : name' ≠ name) :
    Variables.get? (Variables.erase vs name) name' = vs.get? name' := by
  induction vs with
  | nil => rfl
  | cons p vs ih =>
    obtain ⟨key, held⟩ := p
    unfold Variables.get? Variables.erase at ih ⊢
    by_cases hkey : key = name
    · subst hkey
      rw [List.filter_cons_of_neg (by simp), ih, List.lookup_cons, beq_false_of_ne h]
    · rw [List.filter_cons_of_pos (by simpa using hkey), List.lookup_cons, List.lookup_cons, ih]

theorem Variables.get?_erase_self (vs : Variables) (name : String) :
    Variables.get? (Variables.erase vs name) name = none := by
  have hall : ∀ p ∈ Variables.erase vs name, p.1 ≠ name := fun p hp => by
    simpa using (List.mem_filter.1 hp).2
  refine List.lookup_eq_none_iff.2 fun p hp => ?_
  simpa using Ne.symm (hall p hp)

/-- A session in which a transition has taken its state out of the variable, unless it is to be
kept. -/
def Session.moveOut (s : Session) (source : Source) : Session :=
  if source.keep then s else { s with vars := Variables.erase s.vars source.name }

namespace Session

variable {s : Session} {source : Source} {h : Handle}

@[simp] theorem world_moveOut : (s.moveOut source).world = s.world := by
  unfold moveOut
  split <;> rfl

/-- No sequence is moved out with a state. -/
theorem sequenceIn?_moveOut (hsource : s.vars.get? source.name = some (.state h)) (name : String) :
    (s.moveOut source).sequenceIn? name = s.sequenceIn? name := by
  unfold moveOut
  split
  · rfl
  · by_cases hname : name = source.name
    · subst hname
      simp [sequenceIn?, Variables.get?_erase_self, hsource]
    · simp [sequenceIn?, Variables.get?_erase_of_ne hname]

end Session

/-! ## A call, and what follows it -/

/-- What comes of a move that makes the call first. -/
structure Session.Opens (s : Session) (h : Handle) (c : Call) (m : Move) (p : Reply × Session) :
    Prop where
  besides : (s.world.on h.owner c.act).2.Steps (s.Besides m) p.2.world
  refused : ∀ e, (s.world.on h.owner c.act).1 = .error e →
    p.1.fault? = some e ∧ (s.world.on h.owner c.act).2.Steps Deed.Drains p.2.world
  accepted : m.goesOn = false → ∀ grant, (s.world.on h.owner c.act).1 = .ok grant →
    p.1.fault? = none

/-- What follows the call uses no state. -/
theorem Session.Opens.idle {s : Session} {h : Handle} {c : Call} {m : Move} {p : Reply × Session}
    (hopens : s.Opens h c m p) : (s.world.on h.owner c.act).2.Steps Deed.IsIdle p.2.world :=
  hopens.besides.mono fun _ => Session.Besides.isIdle

namespace SessionM

variable {α : Type} {s s' : Session} {h : Handle} {c : Call} {m : Move}

theorem opens_on {a : Act α} {g : α → Grant} {f : Except Fault α → SessionM Reply}
    (hs : s'.world = s.world) (hact : c.act = g <$> a) (hbesides : ∀ r, (f r).Only (s.Besides m))
    (hdrains : ∀ e, (f (.error e)).Only Deed.Drains)
    (hrefused : ∀ e s'', ((f (.error e)).run s'').1.fault? = some e)
    (haccepted : m.goesOn = false → ∀ v s'', ((f (.ok v)).run s'').1.fault? = none) :
    s.Opens h c m ((on h.owner a >>= f).run s') := by
  have hworld : (s.world.on h.owner c.act).2 = (s.world.on h.owner a).2 := by
    rw [hact, World.on_map]
  let t : Session := { s' with world := (s.world.on h.owner a).2 }
  have hrun : (on h.owner a >>= f).run s' = (f (s.world.on h.owner a).1).run t := by
    rw [run_on, hs]
  rw [hrun]
  refine ⟨?_, fun e he => ?_, fun hgoes grant hgrant => ?_⟩
  · rw [hworld]
    exact hbesides _ t
  · have hr : (s.world.on h.owner a).1 = .error e := by
      rw [hact, World.on_map] at he
      cases hr : (s.world.on h.owner a).1 with
      | ok v => simp [hr, Except.map] at he
      | error e' => simpa [hr, Except.map] using he
    rw [hworld, hr]
    exact ⟨hrefused e t, hdrains e t⟩
  · cases hr : (s.world.on h.owner a).1 with
    | ok v => exact haccepted hgoes v t
    | error e => simp [hact, World.on_map, hr, Except.map] at hgrant

/-- A call whose fault is replied. -/
theorem opens_onFault {a : Act α} {g : α → Grant} {f : Except Fault α → SessionM Reply}
    (hs : s'.world = s.world) (hact : c.act = g <$> a)
    (hfault : ∀ e, f (.error e) = pure (.fault e))
    (hbesides : ∀ v, (f (.ok v)).Only (s.Besides m))
    (haccepted : m.goesOn = false → ∀ v s'', ((f (.ok v)).run s'').1.fault? = none) :
    s.Opens h c m ((on h.owner a >>= f).run s') := by
  refine opens_on hs hact (fun r => ?_) (fun e => ?_) (fun e s'' => ?_) haccepted
  · cases r with
    | ok v => exact hbesides v
    | error e => rw [hfault]; exact only_pure _
  · rw [hfault]
    exact only_pure _
  · rw [hfault]
    rfl

/-- A call whose answer is a state, which is then stored. -/
theorem opens_onGive {a : Act Token} {dest : String} (hs : s'.world = s.world)
    (hact : c.act = .state <$> a) :
    s.Opens h c m ((on h.owner a >>= fun
      | .ok t => give dest h.owner t
      | .error fault => pure (.fault fault)).run s') :=
  opens_onFault hs hact (fun _ => rfl)
    (fun t => (only_give dest h.owner t).mono fun _ => Session.besides_of_releases) fun _ _ _ => rfl

/-- A call whose answer is nothing. -/
theorem opens_onAnswer {a : Act α} {reply : Reply} (hs : s'.world = s.world)
    (hact : c.act = (fun _ => .nothing) <$> a) (hreply : reply.fault? = none) :
    s.Opens h c m ((on h.owner a >>= answer reply).run s') :=
  opens_onFault hs hact (fun _ => rfl) (fun _ => only_answer reply _) fun _ _ _ => hreply

/-- The end of what ends at a site, before more is done. -/
theorem opens_finish {point : EndPoint} {rest : Reply → SessionM Reply} (hs : s'.world = s.world)
    (hc : h.token.endCall? point = some c) (hbesides : ∀ r, (rest r).Only (s.Besides m))
    (hdrains : ∀ r, (rest r).Only Deed.Drains)
    (hrefused : ∀ e s'', ((rest (.fault e)).run s'').1.fault? = some e)
    (haccepted : m.goesOn = false → ∀ r s'', r.fault? = none →
      ((rest r).run s'').1.fault? = none) :
    s.Opens h c m ((finish h point >>= rest).run s') := by
  cases point with
  | protocol closes =>
    cases hc
    simp only [finish, bind_assoc]
    refine opens_on (c := .finish h.token closes) hs rfl ?_ ?_ hrefused ?_
    · exact fun r => (only_answer _ r).bind hbesides
    · exact fun e => hdrains _
    · exact fun hgoes v s'' => haccepted hgoes .done s'' rfl
  | iteration nextBody =>
    obtain ⟨q, hfeed, rfl⟩ := Option.map_eq_some_iff.1 hc
    simp only [finish, hfeed, bind_assoc]
    refine opens_on (c := .endIteration h.token q nextBody) hs rfl ?_ ?_ hrefused ?_
    · intro r
      refine Only.bind ?_ hbesides
      split <;> exact only_pure _
    · exact fun e => hdrains _
    · intro hgoes progress s''
      cases progress with
      | waiting => exact haccepted hgoes .waiting s'' rfl
      | delivered | closed => exact haccepted hgoes .done s'' rfl

theorem run_withSource {source : Source} {p : Site → Option α} {v : α}
    {f : Handle → α → SessionM Reply} (hsource : s.vars.get? source.name = some (.state h))
    (hv : p h.token.site = some v) :
    (withSource source p f).run s = (f h v).run (s.moveOut source) := by
  simp only [withSource, withState, StateT.run_bind, StateT.run_get, pure_bind, hsource, hv,
    Session.moveOut]
  cases source.keep <;> rfl

/-- What a call replies that gives a state. -/
theorem reply_onGive {i : InstanceId} {a : Act Token} {t : Token}
    (hok : (s.world.on i a).1 = .ok t) (dest : String) :
    ((on i a >>= fun
      | .ok t => give dest i t
      | .error fault => pure (.fault fault)).run s).1 = .state t.site := by
  rw [run_on, hok]
  rfl

theorem run_withSequence {name : String} {f : InstanceId → SequenceId → SessionM Reply}
    {p : InstanceId × SequenceId} (h : s.sequenceIn? name = some p) :
    (withSequence name f).run s = (f p.1 p.2).run s := by
  have hget : s.vars.get? name = some (.sequence p.1 p.2) := Session.sequenceIn?_eq_some_iff.1 h
  simp only [withSequence, StateT.run_bind, StateT.run_get, pure_bind, hget]

theorem opens_withSource {source : Source} {p : Site → Option α} {v : α}
    {f : Handle → α → SessionM Reply} (hsource : s.vars.get? source.name = some (.state h))
    (hv : p h.token.site = some v) (hf : s.Opens h c m ((f h v).run (s.moveOut source))) :
    s.Opens h c m ((withSource source p f).run s) := by
  rwa [run_withSource hsource hv]

theorem opens_withSequence {source : Source} {sequence : String}
    {f : InstanceId → SequenceId → SessionM Reply} {p : InstanceId × SequenceId}
    (hsource : s.vars.get? source.name = some (.state h)) (hp : s.sequenceIn? sequence = some p)
    (hf : s.Opens h c m ((f p.1 p.2).run (s.moveOut source))) :
    s.Opens h c m ((withSequence sequence f).run (s.moveOut source)) := by
  rw [← Session.sequenceIn?_moveOut hsource] at hp
  rwa [run_withSequence hp]

/-- Entering a loop, by polling or by iteration. -/
theorem opens_enter {surface : Surface} {shape : LoopShape} {dest after : String}
    (hs : s'.world = s.world) :
    s.Opens h (if surface = .iterator then .iterate shape h.token else .enter shape h.token) m
      ((enter h surface shape dest after).run s') := by
  by_cases hsurface : surface = .iterator
  · subst hsurface
    rw [if_pos rfl]
    refine opens_onFault (c := .iterate shape h.token) hs rfl (fun _ => rfl) (fun p => ?_)
      fun _ _ _ => rfl
    refine (Only.bind (only_store dest _) fun _ => ?_).mono fun _ => Session.besides_of_releases
    exact (only_store after _).bind fun _ => only_pure _
  · rw [if_neg hsurface]
    cases surface <;> first | exact absurd rfl hsurface | exact opens_onGive hs rfl

/-- A variable is dropped, with what it holds. -/
theorem run_drop (s : Session) (name : String) : (perform (.drop name)).run s =
    (release (s.vars.get? name) >>= fun _ =>
      pure (if (s.vars.get? name).isSome then Reply.done else .noState)).run
      { s with vars := Variables.erase s.vars name } := by
  have hremove : (remove name).run s =
      (s.vars.get? name, { s with vars := Variables.erase s.vars name }) := rfl
  simp only [perform, StateT.run_bind, hremove]
  cases s.vars.get? name <;> rfl

/-- No body runs that could return. -/
theorem run_returning_nil {f : RunningLoop → SessionM Reply} (hrunning : s.running = []) :
    (returning f).run s = (.unsupported, s) := by
  simp only [returning, StateT.run_bind, StateT.run_get, pure_bind, hrunning]
  rfl

/-- The innermost body returns. -/
theorem run_returning_cons {f : RunningLoop → SessionM Reply} {loop : RunningLoop}
    {outer : List RunningLoop} (hrunning : s.running = loop :: outer) :
    (returning f).run s = (f loop).run { s with running := outer } := by
  simp only [returning, StateT.run_bind, StateT.run_get, pure_bind, hrunning]
  rfl

/-- The body of the innermost loop returned what is in a variable. -/
theorem run_return {loop : RunningLoop} {outer : List RunningLoop} {name : String}
    (hrunning : s.running = loop :: outer) :
    (move (.returnState name)).run s = (bodyReturned loop (s.vars.get? name)).run
      { s with running := outer, vars := Variables.erase s.vars name } :=
  run_returning_cons hrunning

/-- The body of the innermost loop failed. -/
theorem run_returnFault {loop : RunningLoop} {outer : List RunningLoop} {fault : Fault}
    (hrunning : s.running = loop :: outer) :
    (move (.returnFault fault)).run s =
      (bodyFailed loop fault).run { s with running := outer } :=
  run_returning_cons hrunning

/-- The body returned a state that ends its iterations. -/
theorem run_returnState {loop : RunningLoop} {outer : List RunningLoop} {name : String}
    (hrunning : s.running = loop :: outer) (hget : s.vars.get? name = some (.state h))
    (htail : h.token.site = loop.shape.tail) :
    (move (.returnState name)).run s =
      (on h.owner h.token.consume >>= fun
        | .ok () => do takeTurn loop (← on loop.owner (Callback.advance loop.shape))
        | .error fault => pure (.fault fault)).run
      { s with running := outer, vars := Variables.erase s.vars name } := by
  have hbody : bodyReturned loop (some (.state h)) = on h.owner h.token.consume >>= fun
      | .ok () => do takeTurn loop (← on loop.owner (Callback.advance loop.shape))
      | .error fault => pure (.fault fault) := if_pos htail
  rw [run_return hrunning, hget, hbody]

theorem opens_returnState {loop : RunningLoop} {outer : List RunningLoop} {name : String}
    (hrunning : s.running = loop :: outer) (hget : s.vars.get? name = some (.state h))
    (htail : h.token.site = loop.shape.tail) :
    s.Opens h (.giveBack h.token) (.returnState name) ((move (.returnState name)).run s) := by
  rw [run_returnState hrunning hget htail]
  refine opens_onFault (c := .giveBack h.token) rfl rfl (fun _ => rfl) (fun _ => ?_)
    fun hgoes => by cases hgoes
  have hattempt := Session.attempt?_returnState hrunning hget htail
  have hadvance : s.Besides (.returnState name)
      (.call loop.owner (.advance loop.shape h.owner)) :=
    ⟨h, loop, hattempt, by simp [hrunning], rfl, rfl⟩
  refine Only.bind (only_on (.advance loop.shape h.owner) rfl hadvance) fun r => ?_
  exact (only_takeTurn loop r).mono fun _ => Session.besides_of_releases

end SessionM

namespace Session

open SessionM

variable {s : Session} {m : Move} {h : Handle} {c : Call}

/-- **An attempt is made before all else.** If its call fails, the move replies the fault, and no
more is done but that sequences are drained. -/
theorem opens_attempt (hattempt : s.attempt? m = some (h, c)) :
    s.Opens h c m ((move m).run s) := by
  obtain ⟨name, hname, hget, hcall⟩ := attempt?_eq_some_iff.1 hattempt
  cases m with
  | returnFault fault => cases hname
  | foreach source dest =>
    cases hname
    obtain ⟨shape, hshape, rfl⟩ := Option.map_eq_some_iff.1 hcall
    refine opens_withSource (p := fun site => site.loop? .callback) hget hshape ?_
    refine opens_onFault (c := .begin shape h.token) world_moveOut rfl (fun _ => rfl)
      (fun turn => ?_) fun _ turn s'' => ?_
    · exact (only_takeTurn _ _).mono fun _ => besides_of_releases
    · cases turn <;> rfl
  | returnState name =>
    cases hname
    obtain ⟨loop, hloop, hc⟩ := Option.bind_eq_some_iff.1 hcall
    split at hc
    · next htail =>
      cases hc
      obtain ⟨outer, hrunning⟩ := List.head?_eq_some_iff.1 hloop
      exact opens_returnState hrunning hget htail
    · cases hc
  | act action =>
    cases action with
    | use of u =>
      cases hname
      cases hcall
      have hrun : (move (.act (.use name u))).run s = (useState h u).run s := by
        simp only [move, perform, withState, StateT.run_bind, StateT.run_get, pure_bind, hget]
      rw [hrun]
      cases u <;> exact opens_onAnswer (c := .use h.token _) rfl rfl rfl
    | enter source surface dest after =>
      cases hname
      obtain ⟨p, hp, rfl⟩ := Option.map_eq_some_iff.1 hcall
      exact opens_withSource hget hp (opens_enter world_moveOut)
    | exit source dest =>
      cases hname
      obtain ⟨shape, hshape, rfl⟩ := Option.map_eq_some_iff.1 hcall
      refine opens_withSource (p := fun site => site.loop? .polling) hget hshape ?_
      exact opens_onGive (c := .exit shape h.token) world_moveOut rfl
    | send source label dest =>
      cases hname
      obtain ⟨point, hpoint, rfl⟩ := Option.map_eq_some_iff.1 hcall
      refine opens_withSource (p := fun site => site.send?.filter (·.label = label)) hget hpoint
        ?_
      exact opens_onGive (c := .send h.token point) world_moveOut rfl
    | finish source =>
      cases hname
      obtain ⟨point, hpoint, hc⟩ := Option.bind_eq_some_iff.1 hcall
      refine opens_withSource hget hpoint ?_
      rw [← bind_pure (finish h point)]
      exact opens_finish world_moveOut hc (fun r => only_pure r) (fun r => only_pure r)
        (fun _ _ => rfl) fun _ _ _ hr => hr
    | finishTaking source sequence dest =>
      cases hname
      obtain ⟨p, hp, hend⟩ := Option.bind_eq_some_iff.1 hcall
      obtain ⟨point, hpoint, hc⟩ := Option.bind_eq_some_iff.1 hend
      refine opens_withSource hget hpoint (opens_withSequence hget hp ?_)
      have htakes : s.takesFrom? (.act (.finishTaking source sequence dest)) = some p := by
        simp [takesFrom?, stateIn?_eq_some_iff.2 hget, hpoint, hp]
      have htake (r : Reply) : Only (fun e => e = .call p.1 (.take p.2) ∨ e.Releases)
          (take p.1 p.2 dest >>= fun taken =>
            pure (Reply.endTaking (failureOfEnd none r) taken)) :=
        (only_take p.1 p.2 dest).bind fun _ => only_pure _
      refine opens_finish world_moveOut hc (fun r => ?_) (fun r => ?_) (fun _ _ => rfl)
        fun _ r s'' hr => ?_
      · exact (htake r).mono fun _ => besides_of_take htakes
      · exact (htake r).mono fun _ => Deed.drains_of_take
      · cases r <;> first | rfl | cases hr
    | finishDropping source sequence =>
      cases hname
      obtain ⟨p, hp, hend⟩ := Option.bind_eq_some_iff.1 hcall
      obtain ⟨point, hpoint, hc⟩ := Option.bind_eq_some_iff.1 hend
      refine opens_withSource hget hpoint (opens_withSequence hget hp ?_)
      have hreleases {f : SessionM Reply} (hf : Only Deed.Releases f) :
          Only Deed.Releases (remove sequence >>= fun held => release held >>= fun _ => f) :=
        (only_remove sequence).bind fun held => (only_release held).bind fun _ => hf
      refine opens_finish world_moveOut hc
        (fun r => (hreleases ?_).mono fun _ => besides_of_releases)
        (fun r => (hreleases ?_).mono fun _ => Deed.Releases.drains) (fun _ _ => rfl)
        (by simp [Move.goesOn])
      all_goals split <;> exact only_pure _
    | _ => cases hname

theorem legal_endCall? {given : List Token} {begun : List LoopShape} {t : Token} {point : EndPoint}
    (ht : t ∈ given) (hend : t.site.end? = some point) (hc : t.endCall? point = some c) :
    c.Legal given begun := by
  cases point with
  | protocol closes =>
    cases hc
    exact ⟨ht, hend⟩
  | iteration nextBody =>
    obtain ⟨q, hq, rfl⟩ := Option.map_eq_some_iff.1 hc
    exact ⟨ht, hend, hq⟩

/-- An attempt is made on a state that the driver was given, at a site that allows it. -/
theorem legal_attempt {d : Dealing} (hs : d.Covers s) (hattempt : s.attempt? m = some (h, c)) :
    c.Legal (d.givenBy h.owner) (d.begunOn h.owner) := by
  obtain ⟨name, hname, hget, hcall⟩ := attempt?_eq_some_iff.1 hattempt
  have ht : h.token ∈ d.givenBy h.owner := Dealing.mem_givenBy.2 (hs.mem hget)
  cases m with
  | returnFault fault => cases hname
  | foreach source dest =>
    obtain ⟨shape, hshape, rfl⟩ := Option.map_eq_some_iff.1 hcall
    exact ⟨ht, hshape⟩
  | returnState name =>
    obtain ⟨loop, hloop, hc⟩ := Option.bind_eq_some_iff.1 hcall
    split at hc
    · next htail =>
      cases hc
      obtain ⟨-, site, hsite⟩ := hs.running loop (List.mem_of_mem_head? hloop)
      exact ⟨ht, site, loop.shape, hsite, htail⟩
    · cases hc
  | act action =>
    cases action with
    | use of u =>
      cases hcall
      exact ht
    | enter source surface dest after =>
      obtain ⟨⟨via, shape⟩, hp, rfl⟩ := Option.map_eq_some_iff.1 hcall
      obtain ⟨hloop, hne⟩ := enterable?_eq_some hp
      cases via with
      | polling | iterator => exact ⟨ht, hloop⟩
      | callback => exact absurd rfl hne
    | exit source dest =>
      obtain ⟨shape, hshape, rfl⟩ := Option.map_eq_some_iff.1 hcall
      exact ⟨ht, hshape⟩
    | send source label dest =>
      obtain ⟨point, hpoint, rfl⟩ := Option.map_eq_some_iff.1 hcall
      exact ⟨ht, (Option.filter_eq_some_iff.1 hpoint).1⟩
    | finish source =>
      obtain ⟨point, hpoint, hc⟩ := Option.bind_eq_some_iff.1 hcall
      exact legal_endCall? ht hpoint hc
    | finishTaking source sequence dest | finishDropping source sequence =>
      obtain ⟨p, hp, hend⟩ := Option.bind_eq_some_iff.1 hcall
      obtain ⟨point, hpoint, hc⟩ := Option.bind_eq_some_iff.1 hend
      exact legal_endCall? ht hpoint hc
    | _ => cases hname

end Session

end LoopProtocol
