import LoopProtocol.Proofs.Abort

/-!
# Aborted instances

An aborted instance is frozen. Its stack stays as it is, no body comes into a sequence, and no event
is reported but that of a message that is sent without a look at the stack. Whatever needs the stack
is refused.
-/

namespace LoopProtocol

open Act

/-! ## What is left of an aborted instance -/

/-- `y` is what the aborted instance `x` has become. -/
structure Instance.Frozen (x y : Instance) : Prop where
  aborted : y.aborted = true
  stack : y.stack = x.stack
  events : ∃ labels : List String, y.events.toList = x.events.toList ++ labels.map .sent
  queue : ∀ q, (y.handOff q).queue <:+ (x.handOff q).queue

/-- A passage whose first value was taken gets nothing new. -/
theorem HandOff.queue_suffix_of_take {p : HandOff Token} {t : Token} {rest : List Token}
    (h : p.queue = t :: rest) : { p with queue := rest }.queue <:+ p.queue := by
  rw [h]
  exact List.suffix_cons t rest

namespace Instance

variable {x y z : Instance} {q : SequenceId} {p : HandOff Token}

/-- A passage that gets nothing new. -/
theorem queue_setHandOff (hp : p.queue <:+ (x.handOff q).queue) (q' : SequenceId) :
    ((x.setHandOff q p).handOff q').queue <:+ (x.handOff q').queue := by
  by_cases hq : q.index = q'.index
  · by_cases hlt : q.index < x.sequences.size
    · have hlt' : q'.index < x.sequences.size := hq ▸ hlt
      simpa [handOff, setHandOff, Array.getD_eq_getD_getElem?, hq, hlt'] using hp
    · have hle : x.sequences.size ≤ q.index := Nat.le_of_not_lt hlt
      simp [handOff, setHandOff, Array.getD_eq_getD_getElem?, ← hq, hle]
  · simp [handOff, setHandOff, Array.getD_eq_getD_getElem?, Array.getElem?_setIfInBounds_ne hq]

namespace Frozen

theorem refl (ha : x.aborted = true) : x.Frozen x :=
  ⟨ha, rfl, ⟨[], by simp⟩, fun _ => List.suffix_rfl⟩

theorem trans (h : x.Frozen y) (h' : y.Frozen z) : x.Frozen z := by
  obtain ⟨labels, hlabels⟩ := h.events
  obtain ⟨labels', hlabels'⟩ := h'.events
  refine ⟨h'.aborted, h'.stack.trans h.stack, ⟨labels ++ labels', ?_⟩,
    fun q => (h'.queue q).trans (h.queue q)⟩
  rw [hlabels', hlabels, List.map_append, List.append_assoc]

theorem fail (h : x.Frozen y) (e : Fault) : x.Frozen (y.fail e) := by
  rwa [fail_of_aborted e h.aborted]

theorem not_running (h : x.Frozen y) : y.aborted ≠ false := by
  rw [h.aborted]
  exact Bool.noConfusion

theorem setHandOff (h : x.Frozen y) (hp : p.queue <:+ (y.handOff q).queue) :
    x.Frozen (y.setHandOff q p) :=
  ⟨h.aborted, h.stack, h.events, fun q' => (queue_setHandOff hp q').trans (h.queue q')⟩

theorem withLines (h : x.Frozen y) (lines : Array LogLine) : x.Frozen { y with lines } :=
  ⟨h.aborted, h.stack, h.events, h.queue⟩

/-- **Every call keeps a frozen instance frozen.** No loop goes on, so no frame is ever ahead of its
iteration. -/
theorem invariant (x : Instance) : Invariant x.Frozen fun _ _ => False where
  fail h := h.fail
  failAhead h := h.elim
  consume _ _ _ h := ends_consume h.fail fun _ => ⟨h.aborted, h.stack, h.events, h.queue⟩
  issue _ _ _ h := ends_issue ⟨h.aborted, h.stack, h.events, h.queue⟩
  setParam _ _ _ h := ends_setParam ⟨h.aborted, h.stack, h.events, h.queue⟩
  accept label y h := by
    obtain ⟨labels, hlabels⟩ := h.events
    exact ends_accept ⟨h.aborted, h.stack, ⟨labels ++ [label], by simp [hlabels]⟩, h.queue⟩
  ensureClosed _ _ h := ends_ensureClosed h.fail fun ha => absurd ha h.not_running
  terminate _ h := ends_terminate h.fail fun ha => absurd ha h.not_running
  activate _ _ h := ends_activate h.fail (fun _ _ ha => absurd ha h.not_running) fun _ ha =>
    absurd ha h.not_running
  complete _ h := ends_complete h.fail fun _ _ ha => absurd ha h.not_running
  iteration h := h.elim
  exitAhead _ h := h.elim
  exit _ _ h := ends_exit h.fail fun _ _ ha => absurd ha h.not_running
  openAhead _ h := h.elim
  deliver _ _ h := h.elim
  close q y h := by
    have hclosed : (y.handOff q).close.queue <:+ (y.handOff q).queue := List.suffix_rfl
    exact ends_closeSequence ((h.setHandOff hclosed).withLines _)
  take q y h := by
    refine ends_take? (fun _ => h) (fun t hq => ?_) fun t u rest hq => ?_
    · exact h.setHandOff (HandOff.queue_suffix_of_take hq)
    · exact (h.setHandOff (HandOff.queue_suffix_of_take hq)).withLines _
  abandon q y h := by
    have hleft : x.Frozen (y.setHandOff q (y.handOff q).abandon) := h.setHandOff List.nil_suffix
    exact ends_abandon hleft hleft.fail

end Frozen

end Instance

theorem Call.frozen (c : Call) {x : Instance} (ha : x.aborted = true) : x.Frozen (c.act.on x).2 :=
  ((Instance.Frozen.invariant x).call c).on (.refl ha)

/-! ## Calls that are refused -/

/-- The fault of a use of the state on an aborted instance. -/
def Token.refusal (t : Token) (x : Instance) : Fault :=
  if t.isConsumed x then .linearityViolation t.site.name
  else .engineFault (.abortedEarlier x.id)

/-- Whether the call is a transition that needs the stack of its instance. -/
def Call.needsStack : Call → Bool
  | enter _ _ | exit _ _ | iterate _ _ | endIteration _ _ _ | finish _ _ | begin _ _ => true
  | use _ (.sendAfter _ _) | use _ .terminate | use _ (.terminateAfter _) => true
  | send _ point => point.closes.isSome
  | _ => false

/-- Whether the call sends a message without a look at the stack. -/
def Call.sendsUnchecked : Call → Bool
  | use _ (.send _) => true
  | send _ point => point.closes.isNone
  | _ => false

section Refused

variable {α β : Type} {x : Instance}

/-- An action that an aborted instance refuses. -/
def Act.NeedsStack (a : Act α) : Prop :=
  ∀ x, x.aborted = true → a.on x = (.error (.engineFault (.abortedEarlier x.id)), x)

theorem Act.NeedsStack.bind {a : Act α} (h : a.NeedsStack) (f : α → Act β) :
    (a >>= f).NeedsStack := by
  intro x ha
  rw [on_bind, h x ha]

theorem needsStack_activate (id : LoopId) (param : String) : (activate id param).NeedsStack := by
  intro x ha
  rw [on_activate, if_pos ha]

theorem needsStack_complete (id : LoopId) : (complete id).NeedsStack := by
  intro x ha
  rw [on_complete, if_pos ha]

theorem needsStack_exit (id : LoopId) : (Act.exit id).NeedsStack := by
  intro x ha
  rw [on_exit, if_pos ha]

theorem needsStack_ensureClosed (id : LoopId) : (ensureClosed id).NeedsStack := by
  intro x ha
  rw [on_ensureClosed, if_pos ha]

theorem needsStack_terminate : Act.terminate.NeedsStack := by
  intro x ha
  rw [on_terminate, if_pos ha]

theorem needsStack_advance (shape : LoopShape) : (Callback.advance shape).NeedsStack :=
  (needsStack_complete shape.head.id).bind (Callback.turn shape)

/-- What the use of a state comes to that leads to an action on the stack. -/
theorem on_refused (ha : x.aborted = true) {t : Token} {f : Unit → Act α}
    (hf : (f ()).NeedsStack) :
    (t.consume >>= f).on x =
      (.error (t.refusal x), if t.isConsumed x then x else x.spend t) := by
  rw [on_bind, on_consume, Token.refusal]
  cases hused : t.isConsumed x with
  | true => simp [Instance.fail_of_aborted _ ha]
  | false =>
    have hrefused := hf (x.spend t) ha
    simpa [Instance.spend] using hrefused

/-- **A transition that needs the stack is refused on an aborted instance.** Its state is used up,
and nothing else changes. -/
theorem Call.on_refused (ha : x.aborted = true) {c : Call} (hc : c.needsStack = true) {t : Token}
    (ht : c.uses = some t) :
    c.act.on x = (.error (t.refusal x), if t.isConsumed x then x else x.spend t) := by
  have hmap : ∀ {α : Type} {g : α → Grant} {f : Unit → Act α}, (f ()).NeedsStack →
      (g <$> (t.consume >>= f)).on x =
        (.error (t.refusal x), if t.isConsumed x then x else x.spend t) := by
    intro α g f hf
    rw [on_map, LoopProtocol.on_refused ha hf]
    rfl
  cases c with
  | enter shape head =>
    cases ht
    exact hmap ((needsStack_activate _ _).bind _)
  | exit shape head =>
    cases ht
    exact hmap ((needsStack_exit _).bind _)
  | iterate shape head =>
    cases ht
    exact hmap ((needsStack_activate _ _).bind _)
  | endIteration tail q nextBody =>
    cases ht
    exact hmap ((needsStack_complete _).bind _)
  | finish t closes =>
    cases ht
    cases closes with
    | none => exact hmap needsStack_terminate
    | some id => exact hmap ((needsStack_ensureClosed id).bind _)
  | begin shape head =>
    cases ht
    exact hmap ((needsStack_activate _ _).bind _)
  | use t u =>
    cases ht
    cases u with
    | sendAfter id label => exact hmap ((needsStack_ensureClosed id).bind _)
    | terminate => exact hmap needsStack_terminate
    | terminateAfter id => exact hmap ((needsStack_ensureClosed id).bind _)
    | _ => cases hc
  | send t point =>
    cases ht
    obtain ⟨label, next, closes⟩ := point
    cases closes with
    | none => cases hc
    | some id =>
      have hsend : t.sendAt ⟨label, next, some id⟩ = t.consume >>= fun _ =>
          (ensureClosed id >>= fun _ => accept label) >>= fun _ => Act.issue next t.feed :=
        bind_assoc _ _ _
      show (Grant.state <$> t.sendAt _).on x = _
      rw [hsend]
      exact hmap (((needsStack_ensureClosed id).bind _).bind _)
  | _ => cases hc

/-- An aborted instance reports nothing but messages that are sent without a look at the stack. -/
theorem Call.events_eq (ha : x.aborted = true) {c : Call} (hc : c.sendsUnchecked = false) :
    (c.act.on x).2.events = x.events := by
  have hrefused : ∀ t, c.needsStack = true → c.uses = some t →
      (c.act.on x).2.events = x.events := by
    intro t hstack ht
    rw [Call.on_refused ha hstack ht]
    dsimp only
    split <;> rfl
  have hconsume : ∀ t : Token, (t.consume.on x).2.events = x.events := by
    intro t
    rw [on_consume]
    split
    · exact Instance.events_fail _ _
    · rfl
  cases c with
  | issue site | fork t | setParam name bound => rfl
  | use t u =>
    cases u with
    | consume =>
      rw [Call.act, on_map]
      exact hconsume t
    | send label => cases hc
    | _ => exact hrefused t rfl rfl
  | send t point =>
    refine hrefused t ?_ rfl
    cases hclosed : point.closes with
    | none => simp [Call.sendsUnchecked, hclosed] at hc
    | some id => simp [Call.needsStack, hclosed]
  | take q =>
    rw [Call.act, on_map, on_take?]
    split
    · rfl
    · dsimp only
      split <;> rfl
  | abandon q =>
    rw [Call.act, on_map, on_abandon]
    dsimp only
    split
    · rfl
    · exact Instance.events_fail _ _
  | giveBack t =>
    rw [Call.act, on_map]
    exact hconsume t
  | advance shape j =>
    rw [Call.act, on_map, needsStack_advance shape x ha]
  | fail fault =>
    rw [Call.act, on_map, on_abort_fail]
    exact Instance.events_fail _ _
  | enter _ t | exit _ t | iterate _ t | endIteration t _ _ | finish t _ | begin _ t =>
    exact hrefused t rfl rfl

theorem Call.events_eq_of_idle (ha : x.aborted = true) {c : Call} (hc : c.uses = none) :
    (c.act.on x).2.events = x.events := by
  refine c.events_eq ha ?_
  cases c <;> first | rfl | cases hc

end Refused

/-! ## In a session -/

namespace Session

open SessionM

/-- In the session the instance is what it became since it was `x` and aborted. -/
structure HoldsFrozen (s : Session) (i : InstanceId) (x : Instance) : Prop where
  frozen : ∃ y, s.world.instance? i = some y ∧ x.Frozen y
  /-- Only a message that is sent without a look at the stack is reported. -/
  events : ∀ m, (∀ h c, s.attempt? m = some (h, c) → h.owner = i → c.sendsUnchecked = false) →
    ∀ y z, s.world.instance? i = some y → (s.after [m]).world.instance? i = some z →
      z.events = y.events
  /-- No head has more. -/
  hasMore : ∀ name h, s.vars.get? name = some (.state h) → h.owner = i →
    (h.token.site.loop? .polling).isSome → s.reply (.act (.hasMore name)) = .more false
  /-- A transition that needs the stack is refused. -/
  refused : ∀ m h c y, s.attempt? m = some (h, c) → h.owner = i → c.needsStack = true →
    s.world.instance? i = some y → (s.reply m).fault? = some (h.token.refusal y)
  /-- A loop that was running fails with the fault of its body. -/
  bodyFailed : ∀ loop outer fault, s.running = loop :: outer → loop.owner = i →
    s.reply (.returnFault fault) = .fault fault
  /-- A loop that was running fails after its body. -/
  bodyReturned : ∀ loop outer name h y, s.running = loop :: outer → loop.owner = i →
    s.vars.get? name = some (.state h) → h.token.site = loop.shape.tail →
    s.world.instance? h.owner = some y →
    s.reply (.returnState name) =
      .fault (if h.token.isConsumed y then .linearityViolation h.token.site.name
        else .engineFault (.abortedEarlier i))
  /-- A loop that was running fails if its body returned nothing that ends an iteration. -/
  noTail : ∀ loop outer name, s.running = loop :: outer → loop.owner = i →
    (∀ h, s.vars.get? name = some (.state h) → h.token.site ≠ loop.shape.tail) →
    s.reply (.returnState name) = .fault noTail

variable {s : Session} {i : InstanceId} {x y : Instance}

/-- An instance that is aborted reports nothing in a move that sends no message without a look at
the stack. -/
theorem events_eq (hy : s.world.instance? i = some y) (ha : y.aborted = true) {m : Move}
    (hm : ∀ h c, s.attempt? m = some (h, c) → h.owner = i → c.sendsUnchecked = false) :
    ∃ z, (s.after [m]).world.instance? i = some z ∧ z.events = y.events := by
  -- what is kept is said of aborted instances only, and calls keep them aborted
  have hidle : ∀ {w w' : World} {z : Instance}, w.Steps Deed.IsIdle w' →
      w.instance? i = some z → z.aborted = true →
      ∃ z', w'.instance? i = some z' ∧ z'.events = z.events := by
    intro w w' z hsteps hz hza
    obtain ⟨z', hz', hquiet⟩ := hsteps.related
      (R := fun x y => x.aborted = true → y.aborted = true ∧ y.events = x.events)
      (fun x hxa => ⟨hxa, rfl⟩)
      (fun hxy hyz hxa => by
        obtain ⟨hya, hevents⟩ := hxy hxa
        obtain ⟨hza, hevents'⟩ := hyz hya
        exact ⟨hza, hevents'.trans hevents⟩)
      (fun c x hc hxa => ⟨(c.frozen hxa).aborted, c.events_eq_of_idle hxa hc⟩) hz
    exact ⟨z', hz', (hquiet hza).2⟩
  cases hattempt : s.attempt? m with
  | none => exact hidle (idle_move hattempt) hy ha
  | some p =>
    have hopens := opens_attempt (h := p.1) (c := p.2) hattempt
    by_cases howner : p.1.owner = i
    · subst howner
      have hevents := Call.events_eq ha (hm p.1 p.2 hattempt rfl)
      obtain ⟨z, hz, hsame⟩ := hidle hopens.idle (World.instance?_on_self hy p.2.act)
        (p.2.frozen ha).aborted
      exact ⟨z, hz, hsame.trans hevents⟩
    · exact hidle hopens.idle ((World.instance?_on_of_ne (Ne.symm howner) p.2.act).trans hy) ha

/-- The body of a callback loop returned a state that ends its iterations, and the loop's instance
is aborted. -/
theorem reply_returnState {loop : RunningLoop} {outer : List RunningLoop} {name : String}
    {h : Handle} (hy : s.world.instance? loop.owner = some y) (hid : y.id = loop.owner)
    (ha : y.aborted = true) (hrunning : s.running = loop :: outer)
    (hget : s.vars.get? name = some (.state h)) (htail : h.token.site = loop.shape.tail)
    {z : Instance} (hz : s.world.instance? h.owner = some z) :
    s.reply (.returnState name) =
      .fault (if h.token.isConsumed z then .linearityViolation h.token.site.name
        else .engineFault (.abortedEarlier loop.owner)) := by
  unfold reply
  rw [run_returnState hrunning hget htail, run_on]
  have hconsume : (s.world.on h.owner h.token.consume).1 = (h.token.consume.on z).1 := by
    rw [World.on_eq hz]
  rw [hconsume, on_consume]
  cases hused : h.token.isConsumed z with
  | true => rfl
  | false =>
    obtain ⟨y', hy', haborted, hid'⟩ : ∃ y',
        (s.world.on h.owner h.token.consume).2.instance? loop.owner = some y' ∧
          y'.aborted = true ∧ y'.id = loop.owner := by
      by_cases howner : h.owner = loop.owner
      · have hgrown : y.Grown (h.token.consume.on y).2 :=
          ((Instance.Grown.stable y).invariant.consume h.token trivial).on (.refl y)
        refine ⟨_, ?_, hgrown.aborted ha, hgrown.id.trans hid⟩
        rw [howner]
        exact World.instance?_on_self hy _
      · exact ⟨y, (World.instance?_on_of_ne (Ne.symm howner) _).trans hy, ha, hid⟩
    have hadvance : ((s.world.on h.owner h.token.consume).2.on loop.owner
        (Callback.advance loop.shape)).1 = .error (.engineFault (.abortedEarlier loop.owner)) := by
      rw [World.on_eq hy', needsStack_advance loop.shape y' haborted, hid']
    simp only [Bool.false_eq_true, if_false, run_on, hadvance]
    rfl

/-- **An aborted instance is frozen**, whatever the session does from then on. -/
theorem frozen_after {recorders : Nat} {instances : List (BoundTable × Option RecorderId)}
    {moves : List Move} (hx : ((start recorders instances).after moves).world.instance? i = some x)
    (ha : x.aborted = true) (moves' : List Move) :
    (((start recorders instances).after moves).after moves').HoldsFrozen i x := by
  obtain ⟨y, hy, hfrozen⟩ := related_after (R := fun x y => x.aborted = true → x.Frozen y)
    (fun _ => Instance.Frozen.refl) (fun hxy hyz ha => (hxy ha).trans (hyz (hxy ha).aborted))
    (fun c _ => c.frozen) hx moves'
  specialize hfrozen ha
  have hissued : (((start recorders instances).after moves).after moves').Issued := by
    rw [← after_append]
    exact issued_after recorders instances (moves ++ moves')
  generalize ((start recorders instances).after moves).after moves' = s at hy hissued ⊢
  have hid : y.id = i := hissued.id i y hy
  refine ⟨⟨y, hy, hfrozen⟩, ?_, ?_, ?_, ?_, ?_, ?_⟩
  · intro m hm y' z hy' hz
    obtain rfl : y = y' := Option.some.inj (hy.symm.trans hy')
    obtain ⟨z', hz', hevents⟩ := events_eq hy hfrozen.aborted hm
    obtain rfl : z = z' := Option.some.inj (hz.symm.trans hz')
    exact hevents
  · intro name h hget howner hloop
    obtain ⟨shape, hshape⟩ := Option.isSome_iff_exists.1 hloop
    subst howner
    simp only [reply, move, perform, withState, withInstance, StateT.run_bind, StateT.run_get,
      pure_bind, hget, hy, hshape]
    show Reply.more (y.hasMore shape.head.id) = .more false
    rw [Instance.hasMore, hfrozen.aborted]
    rfl
  · intro m h c y' hattempt howner hstack hy'
    obtain rfl : y = y' := Option.some.inj (hy.symm.trans hy')
    subst howner
    have hcall := Call.on_refused hfrozen.aborted hstack (uses_of_attempt? hattempt)
    have herror : (s.world.on h.owner c.act).1 = .error (h.token.refusal y) := by
      rw [World.on_eq hy, hcall]
    exact ((opens_attempt hattempt).refused _ herror).1
  · intro loop outer fault hrunning howner
    subst howner
    unfold reply
    rw [run_returnFault hrunning]
    exact (run_bodyFailed (by exact hy) fault).1
  · intro loop outer name h z hrunning howner hget htail hz
    subst howner
    exact reply_returnState hy hid hfrozen.aborted hrunning hget htail hz
  · intro loop outer name hrunning howner hnone
    subst howner
    obtain ⟨s', z, hz, hrun⟩ := run_noTail hrunning hy hnone
    unfold reply
    rw [hrun]
    exact (run_bodyFailed hz noTail).1

/-- A body uses the head of its own loop once more, and then cannot enter the inner loop. -/
theorem frozen_in_body :
    let s := (start 0 [(BoundTable.ofList [("k", 2)], none)]).after
      [.act (.issue (Nested.start .callback) ⟨0⟩ "head"), .foreach ⟨"head", true⟩ "after",
        .act (.use "head" .terminate)]
    s.running.map (·.owner) = [⟨0⟩] ∧ ∃ x, s.world.instance? ⟨0⟩ = some x ∧ x.aborted = true ∧
      (s.after [.foreach ⟨"it", false⟩ "inner"]).HoldsFrozen ⟨0⟩ x := by
  intro s
  have haborted : (s.world.instance? ⟨0⟩).any (·.aborted) = true := by decide +kernel
  obtain ⟨x, hx, ha⟩ : ∃ x, s.world.instance? ⟨0⟩ = some x ∧ x.aborted = true := by
    simpa [Option.any_eq_true] using haborted
  exact ⟨by decide +kernel, x, hx, ha, frozen_after hx ha _⟩

end Session

end LoopProtocol
