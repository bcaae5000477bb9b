import LoopProtocol.Proofs.Growth
import LoopProtocol.Proofs.PhaseCall

/-!
# One state at a time

By polling and through callbacks the nested protocol gives a driver one state after another: each
transition uses up the only state that is unused, and the next one is given when it is done.
`OneState surface given p x` says so. On the polling surface a state at a loop head is either one
that has not entered the loop yet or one that came back from the body; the phase tells which. A
body function can return any state, but only an unused one takes the loop on, and that one is the
last of its iteration.
-/

namespace LoopProtocol.Nested

open Act

/-! ## The place of a phase -/

namespace Phase

/-- Where the unused state stands. -/
def live : Phase → Option Place
  | idle | ended _ _ => none
  | start => some .outer
  | outerBody _ _ _ => some .inner
  | innerBody _ _ _ _ => some .innerBody
  | innerEnd _ _ _ _ => some .innerEnd
  | afterInner _ _ _ => some .afterInner
  | outerEnd _ _ _ => some .outerEnd
  | done _ _ => some .done

/-- Where the state after a loop stands whose iterations end at the place. -/
def afterLoop? : Place → Option Place
  | .innerEnd => some .afterInner
  | .outerEnd => some .done
  | _ => none

variable {p p' : Phase} {place used : Place} {new : List Place}

theorem fits_of_live (h : p.live = some place) : p.Fits place := by
  cases p <;> cases h <;> trivial

/-- The next state is given by the step, or when it leaves a loop. -/
theorem Step.live_eq (h : Step used p p' new) : p'.live = new.head?.or (afterLoop? used) := by
  cases h <;> rfl

end Phase

/-- The site of a place. On the polling surface an iteration ends at the loop's head. -/
def siteAt (surface : Surface) : Place → Site
  | .innerEnd => (inner surface).tail
  | .outerEnd => (outer surface).tail
  | place => .nested surface place

/-! ## The states of a run -/

/-- All that the instance reported and has on its stack is as the phase says, and of the states
that it gave at most one is unused, which stands at the place of the phase. -/
structure OneState (surface : Surface) (given : List Token) (p : Phase) (x : Instance) : Prop where
  valid : p.Valid
  log : x.events.toList = p.log
  frames : x.aborted = false → x.stack.frames = p.frames
  sequences : x.sequences = #[]
  placed : ∀ t ∈ given, ∃ place, t.site = siteAt surface place
  issued : ∀ t ∈ given, t.guard.index < x.guards.spent.size
  live : ∀ t ∈ given, t.isConsumed x = false →
    ∃ place, t.site = siteAt surface place ∧ p.live = some place
  unique : ∀ t ∈ given, ∀ t' ∈ given, t.isConsumed x = false → t'.isConsumed x = false →
    t.guard = t'.guard

/-- The state at the place was used, and the next one is not given yet. -/
structure NoState (surface : Surface) (given : List Token) (p : Phase) (used : Place)
    (x : Instance) : Prop extends OneState surface given p x where
  used : p.live = some used
  consumed : ∀ t ∈ given, t.isConsumed x = true

variable {surface : Surface} {given : List Token} {p p' : Phase} {x y : Instance} {t t' : Token}
  {used place : Place} {new : List Place}

namespace OneState

/-- What reports nothing and gives nothing. -/
theorem stay (h : OneState surface given p x) (hlog : y.events = x.events)
    (hstack : y.aborted = false → y.stack = x.stack)
    (haborted : x.aborted = true → y.aborted = true) (hsequences : y.sequences = x.sequences)
    (hguards : x.guards.Le y.guards) : OneState surface given p y := by
  -- a state that is unused now was unused before
  have hunused : ∀ t ∈ given, t.isConsumed y = false → t.isConsumed x = false := by
    intro t ht hy
    cases hx : t.isConsumed x with
    | false => rfl
    | true =>
      rw [Token.isConsumed, hguards.used t.guard (h.issued t ht) hx] at hy
      cases hy
  refine ⟨h.valid, by rw [hlog, h.log], fun ha => ?_, by rw [hsequences, h.sequences], h.placed,
    fun t ht => Nat.lt_of_lt_of_le (h.issued t ht) hguards.size,
    fun t ht hy => h.live t ht (hunused t ht hy),
    fun t ht t' ht' hy hy' => h.unique t ht t' ht' (hunused t ht hy) (hunused t' ht' hy')⟩
  have hrun : x.aborted = false := by
    cases hx : x.aborted with
    | false => rfl
    | true =>
      rw [haborted hx] at ha
      cases ha
  rw [hstack ha, h.frames hrun]

theorem fail (h : OneState surface given p x) (e : Fault) : OneState surface given p (x.fail e) :=
  h.stay (Instance.events_fail x e) (fun _ => Instance.stack_fail x e)
    (fun _ => Instance.aborted_fail x e)
    (Instance.sequences_fail x e) (by rw [Instance.guards_fail]; exact .refl _)

/-- **The use of an unused state leaves none.** -/
theorem spend (h : OneState surface given p x) (ht : t ∈ given)
    (hunused : t.isConsumed x = false) :
    ∃ place, t.site = siteAt surface place ∧ NoState surface given p place (x.spend t) := by
  obtain ⟨place, hsite, hlive⟩ := h.live t ht hunused
  have hspent : OneState surface given p (x.spend t) :=
    h.stay rfl (fun _ => rfl) (fun ha => ha) rfl (x.guards.le_spend t.guard)
  refine ⟨place, hsite, hspent, hlive, fun t' ht' => ?_⟩
  show (x.guards.spend t.guard).isConsumed t'.guard = true
  rw [Guards.isConsumed_spend]
  cases hused : x.guards.isConsumed t'.guard with
  | true => exact Bool.or_true _
  | false =>
    have hsame : t.guard = t'.guard := h.unique t ht t' ht' hunused hused
    simp [hsame]

theorem ends_consume (h : OneState surface given p x) (ht : t ∈ given) :
    t.consume.Ends x
      (fun _ y => ∃ place, t.site = siteAt surface place ∧ NoState surface given p place y)
      (fun _ => OneState surface given p) :=
  Act.ends_consume h.fail fun hunused => h.spend ht hunused

end OneState

/-- **When no state is unused, the next one can be given**, at the place of the phase. -/
theorem OneState.give (h : OneState surface given p x)
    (hconsumed : ∀ t ∈ given, t.isConsumed x = true) (hvalid : p'.Valid)
    (hlog : y.events.toList = p'.log)
    (hframes : y.aborted = false → y.stack.frames = p'.frames) (hsequences : y.sequences = #[])
    (hguards : y.guards = x.guards.issue) (hplace : p'.live = some place)
    (feed : Option SequenceId) :
    OneState surface (given ++ [⟨x.guards.next, siteAt surface place, feed⟩]) p' y := by
  let t : Token := ⟨x.guards.next, siteAt surface place, feed⟩
  have hmem : ∀ t' ∈ given ++ [t], t' ∈ given ∨ t' = t := fun t' ht' => by simpa using ht'
  have hsize : x.guards.spent.size < y.guards.spent.size := by
    rw [hguards]
    exact Guards.index_next_lt x.guards
  -- the states of before are used, so an unused state is the one that was given last
  have hlast : ∀ t' ∈ given ++ [t], t'.isConsumed y = false → t' = t := by
    intro t' ht' hunused
    refine (hmem t' ht').resolve_left fun hold => ?_
    have hused := (x.guards.le_issue).used t'.guard (h.issued t' hold) (hconsumed t' hold)
    rw [← hguards] at hused
    exact Bool.false_ne_true (hunused.symm.trans hused)
  refine ⟨hvalid, hlog, hframes, hsequences, fun t' ht' => ?_, fun t' ht' => ?_,
    fun t' ht' hunused => ?_, fun t' ht' t'' ht'' hunused hunused' => ?_⟩
  · rcases hmem t' ht' with hold | rfl
    · exact h.placed t' hold
    · exact ⟨place, rfl⟩
  · rcases hmem t' ht' with hold | rfl
    · exact Nat.lt_trans (h.issued t' hold) hsize
    · exact hsize
  · rw [hlast t' ht' hunused]
    exact ⟨place, rfl, hplace⟩
  · rw [hlast t' ht' hunused, hlast t'' ht'' hunused']

namespace NoState

/-- **The next state is given**, at the place of the phase that the run has come to. -/
theorem next (h : NoState surface given p used x) {frames : List Frame} {w : List Event}
    (hleads : p.Leads used new frames w p') (hplace : p'.live = some place)
    (hlog : y.events.toList = x.events.toList ++ w)
    (hframes : y.aborted = false → y.stack.frames = frames) (hsequences : y.sequences = #[])
    (hguards : y.guards = x.guards.issue) (feed : Option SequenceId) :
    OneState surface (given ++ [⟨x.guards.next, siteAt surface place, feed⟩]) p' y := by
  refine h.give h.consumed hleads.valid ?_ (fun ha => ?_) hsequences hguards hplace feed
  · rw [hlog, h.log, hleads.log]
  · rw [hframes ha, hleads.frames]

/-- The run is over. -/
theorem finish (h : NoState surface given p used x) {w : List Event}
    (hleads : p.Leads used [] [] w p') (hlog : y.events.toList = x.events.toList ++ w)
    (hframes : y.stack.frames = []) (hsequences : y.sequences = #[])
    (hguards : y.guards = x.guards) : OneState surface given p' y := by
  have hused : ∀ t ∈ given, t.isConsumed y = true := by
    intro t ht
    rw [Token.isConsumed, hguards]
    exact h.consumed t ht
  refine ⟨hleads.valid, ?_, fun _ => ?_, hsequences, h.placed, ?_, fun t ht hunused => ?_,
    fun t ht t' ht' hunused _ => ?_⟩
  · rw [hlog, h.log, hleads.log]
  · rw [hframes, hleads.frames]
  · rw [hguards]
    exact h.issued
  · exact absurd hunused (by rw [hused t ht]; exact Bool.noConfusion)
  · exact absurd hunused (by rw [hused t ht]; exact Bool.noConfusion)

end NoState

/-- The phase after a call in which so many first states are still to be given out. -/
def OneState.Reaches (surface : Surface) (given : List Token) (starts : Nat)
    (y : Instance) : Prop :=
  ∃ p : Phase, p.starts = starts ∧ OneState surface given p y

theorem OneState.reaches (h : OneState surface given p x) : Reaches surface given p.starts x :=
  ⟨p, rfl, h⟩

/-- The run has stepped on from the phase, with its bounds and its abort as they were, and gave the
state `next`, which is unused. -/
structure Gave (surface : Surface) (given : List Token) (p : Phase) (bounds : BoundTable)
    (aborted : Bool) (next : Token) (y : Instance) : Prop where
  step : ∃ used p' new, Phase.Step used p p' new ∧ OneState surface (given ++ [next]) p' y
  unused : next.isConsumed y = false
  bounds : y.bounds = bounds
  aborted : y.aborted = aborted

theorem Gave.reaches {bounds : BoundTable} {aborted : Bool}
    (h : Gave surface given p bounds aborted t y) :
    OneState.Reaches surface (given ++ [t]) p.starts y := by
  obtain ⟨used, p', new, hstep, hy⟩ := h.step
  exact ⟨p', hstep.starts_eq, hy⟩

theorem NoState.gives (h : NoState surface given p used x) {frames : List Frame} {w : List Event}
    (hleads : p.Leads used new frames w p') (hplace : p'.live = some place)
    (hlog : y.events.toList = x.events.toList ++ w)
    (hframes : y.aborted = false → y.stack.frames = frames) (hsequences : y.sequences = #[])
    (hguards : y.guards = x.guards.issue) (hbounds : y.bounds = x.bounds)
    (haborted : y.aborted = x.aborted) (feed : Option SequenceId) :
    Gave surface given p x.bounds x.aborted ⟨x.guards.next, siteAt surface place, feed⟩ y := by
  have hnext := h.next hleads hplace hlog hframes hsequences hguards feed
  refine ⟨⟨used, p', new, hleads.step, hnext⟩, ?_, hbounds, haborted⟩
  rw [Token.isConsumed, hguards]
  exact Guards.isConsumed_issue_next x.guards

/-! ## Messages, and the end -/

theorem send?_siteAt {point : SendPoint} (h : (siteAt surface place).send? = some point) :
    (place = .innerBody ∧ point = foo surface) ∨ (place = .afterInner ∧ point = bar surface) := by
  cases place with
  | innerBody => exact .inl ⟨rfl, (Option.some.inj h).symm⟩
  | afterInner => exact .inr ⟨rfl, (Option.some.inj h).symm⟩
  | innerEnd | outerEnd => cases surface <;> cases h
  | _ => cases h

theorem end?_siteAt (hsurface : surface ≠ .iterator) {point : EndPoint}
    (h : (siteAt surface place).end? = some point) :
    place = .done ∧ point = .protocol none := by
  cases surface <;> cases place <;> simp_all [siteAt, Site.end?, inner, outer, closesAtEnd]

namespace OneState

/-- A message is sent on an aborted instance as well. -/
theorem ends_sendAt (h : OneState surface given p x) (ht : t ∈ given) {point : SendPoint}
    (hpoint : t.site.send? = some point) (hsurface : surface ≠ .iterator := by decide) :
    (t.sendAt point).Ends x (Gave surface given p x.bounds x.aborted)
      (fun _ => Reaches surface given p.starts) := by
  obtain ⟨place, hsite⟩ := h.placed t ht
  rw [hsite] at hpoint
  have hcloses : point.closes = none := by
    rcases send?_siteAt hpoint with ⟨-, rfl⟩ | ⟨-, rfl⟩
    · rfl
    · exact if_neg hsurface
  unfold Token.sendAt
  rw [hcloses]
  show ((t.consume >>= fun _ => Act.accept point.label) >>= _).Ends _ _ _
  rw [bind_assoc]
  refine Ends.bind (Act.ends_consume (fun e => (h.fail e).reaches) fun hunused => ?_)
  obtain ⟨place', hsite', hno⟩ := h.spend ht hunused
  refine Ends.bind (ends_accept (ends_issue ?_))
  rw [← hsite, hsite'] at hpoint
  have hfits := Phase.fits_of_live hno.used
  rcases send?_siteAt hpoint with ⟨rfl, rfl⟩ | ⟨rfl, rfl⟩
  · obtain ⟨p', hleads⟩ := Phase.leads_sendFoo hno.valid hfits
    refine hno.gives hleads hleads.step.live_eq ?_ ?_ ?_ ?_ ?_ ?_ t.feed
    · simp [foo]
    · exact hno.frames
    · exact hno.sequences
    · rfl
    · rfl
    · rfl
  · have hclosed : ∀ f ∈ p.frames, f.id ≠ innerId := by
      have hused := hno.used
      cases p <;> cases hused
      simp [Phase.frames, outerId, innerId]
    obtain ⟨p', hleads⟩ := Phase.leads_sendBar hno.valid hfits hclosed
    refine hno.gives hleads hleads.step.live_eq ?_ ?_ ?_ ?_ ?_ ?_ t.feed
    · simp [bar]
    · exact hno.frames
    · exact hno.sequences
    · rfl
    · rfl
    · rfl

/-- The protocol ends only with a complete run. -/
theorem ends_finish (h : OneState surface given p x) (ht : t ∈ given) {closes : Option LoopId}
    (hend : t.site.end? = some (.protocol closes))
    (hsurface : surface ≠ .iterator := by decide) :
    (t.finish closes).Ends x
      (fun _ y => ∃ b c, p.starts = 0 ∧ OneState surface given (.ended b c) y)
      (fun _ => Reaches surface given p.starts) := by
  obtain ⟨place, hsite⟩ := h.placed t ht
  rw [hsite] at hend
  obtain ⟨-, hnone⟩ := end?_siteAt hsurface hend
  cases hnone
  refine Ends.bind (Act.ends_consume (fun e => (h.fail e).reaches) fun hunused => ?_)
  obtain ⟨place', hsite', hno⟩ := h.spend ht hunused
  rw [← hsite, hsite'] at hend
  obtain ⟨rfl, -⟩ := end?_siteAt hsurface hend
  refine ends_terminate (fun e => (hno.fail e).reaches) fun ha hs => ?_
  have hempty : p.frames = [] := (hno.frames ha).symm.trans hs
  obtain ⟨b, c, hleads⟩ := Phase.leads_terminate (Phase.fits_of_live hno.used) hempty
  refine ⟨b, c, hleads.step.starts_eq.symm, ?_⟩
  exact hno.finish hleads (by simp) hs hno.sequences rfl

end OneState

/-! ## Loops through callbacks -/

namespace NoState

/-- A loop is entered, and its first body is given. -/
theorem ends_enter (h : NoState .callback given p used x) {shape : LoopShape} {body : Place}
    (hbody : shape.body = siteAt .callback body)
    (henters : p.Enters used shape.head.id new) (hnew : new.head? = some body) :
    (Act.activate shape.head.id shape.head.param >>= Callback.turn shape).Ends x
      (fun turn => OneState.Reaches .callback (given ++ (Grant.ofTurn turn).tokens) p.starts)
      (fun _ => OneState.Reaches .callback given p.starts) := by
  refine Ends.bind (ends_activate (fun e => (h.fail e).reaches) ?_ ?_)
  · intro top below ha hs hid
    exact absurd hid (henters.ne_of_frames ((h.frames ha).symm.trans hs))
  · intro b ha _ _
    obtain ⟨p', hleads⟩ := henters.2 b
    have hlive : p'.live = some body := by rw [hleads.step.live_eq, hnew, Option.some_or]
    unfold Callback.turn
    rw [Frame.canEnter_start, if_pos rfl]
    refine Ends.bind (ends_iteration (Ends.bind (ends_issue (ends_pure ?_))))
    refine ⟨p', hleads.step.starts_eq, ?_⟩
    rw [hbody]
    refine h.next hleads hlive ?_ (fun _ => ?_) ?_ ?_ none
    · simp [Frame.start]
    · show _ :: x.stack.frames = _
      rw [h.frames ha, Frame.iterating_zero]
    · exact h.sequences
    · rfl

/-- An iteration is over. The next body is given, or the state after the loop. -/
theorem ends_advance (h : NoState .callback given p used x) {shape : LoopShape}
    {body after : Place} (hbody : shape.body = siteAt .callback body)
    (hafter : shape.after = siteAt .callback after)
    (hleave : Phase.afterLoop? used = some after) (hturns : p.Turns used shape.head.id body) :
    (Callback.advance shape).Ends x
      (fun turn => OneState.Reaches .callback (given ++ (Grant.ofTurn turn).tokens) p.starts)
      (fun _ => OneState.Reaches .callback given p.starts) := by
  obtain ⟨b, i, below', hframes, hi, hnext, hlast⟩ := hturns
  refine Ends.bind (ends_complete (fun e => (h.fail e).reaches) ?_)
  intro top below ha hs _
  have hstack : top :: below = Frame.iterating shape.head.id b i :: below' := by
    rw [← hframes, ← h.frames ha]
    exact hs.symm
  obtain ⟨rfl, rfl⟩ := List.cons_eq_cons.1 hstack
  rw [Frame.advance_iterating]
  unfold Callback.turn
  rw [Frame.canEnter_iterating (Nat.succ_le_of_lt hi)]
  by_cases hmore : i + 1 < b.count.toNat
  · obtain ⟨p', hleads⟩ := hnext hmore
    rw [decide_eq_true hmore, if_pos rfl]
    refine Ends.bind (ends_iteration (Ends.bind (ends_issue (ends_pure ?_))))
    refine ⟨p', hleads.step.starts_eq, ?_⟩
    rw [hbody]
    refine h.next hleads hleads.step.live_eq ?_ (fun _ => rfl) ?_ ?_ none
    · simp [Frame.iterating]
    · exact h.sequences
    · rfl
  · obtain ⟨p', hleads⟩ := hlast (by omega)
    have hlive : p'.live = some after := hleads.step.live_eq.trans hleave
    have hover : (Frame.iterating shape.head.id b (i + 1)).hasNext = false := by
      rw [Frame.hasNext_iterating (Nat.succ_le_of_lt hi), decide_eq_false (by omega)]
    rw [decide_eq_false hmore, if_neg Bool.false_ne_true]
    refine Ends.bind (ends_exit_top ha rfl rfl hover (Ends.bind (ends_issue (ends_pure ?_))))
    refine ⟨p', hleads.step.starts_eq, ?_⟩
    rw [hafter]
    refine h.next hleads hlive ?_ (fun _ => rfl) ?_ ?_ none
    · simp
    · exact h.sequences
    · rfl

end NoState

/-- The loops of the protocol. -/
def IsLoop (shape : LoopShape) : Prop := shape = outer .callback ∨ shape = inner .callback

namespace OneState

theorem isLoop (h : OneState surface given p x) (ht : t ∈ given) {shape : LoopShape}
    (hloop : t.site.loop? .callback = some shape) : IsLoop shape := by
  obtain ⟨place, hsite⟩ := h.placed t ht
  rw [hsite] at hloop
  cases surface <;> cases place <;> cases hloop
  · exact .inl rfl
  · exact .inr rfl

theorem ends_begin (h : OneState .callback given p x) (ht : t ∈ given) {shape : LoopShape}
    (hloop : t.site.loop? .callback = some shape) :
    (Callback.begin shape t).Ends x
      (fun turn => Reaches .callback (given ++ (Grant.ofTurn turn).tokens) p.starts)
      (fun _ => Reaches .callback given p.starts) := by
  refine Ends.bind (Act.ends_consume (fun e => (h.fail e).reaches) fun hunused => ?_)
  obtain ⟨place, hsite, hno⟩ := h.spend ht hunused
  rw [hsite] at hloop
  have hfits := Phase.fits_of_live hno.used
  cases place <;> cases hloop
  · exact hno.ends_enter rfl (Phase.enters_outer hfits) rfl
  · exact hno.ends_enter rfl (Phase.enters_inner hno.valid hfits) rfl

end OneState

/-- The loop goes on after the last state of its iteration. -/
theorem NoState.ends_loop (h : NoState .callback given p place x) {shape : LoopShape}
    (hshape : IsLoop shape) (htail : shape.tail = siteAt .callback place) :
    (Callback.advance shape).Ends x
      (fun turn => OneState.Reaches .callback (given ++ (Grant.ofTurn turn).tokens) p.starts)
      (fun _ => OneState.Reaches .callback given p.starts) := by
  have hfits := Phase.fits_of_live h.used
  rcases hshape with rfl | rfl
  · obtain rfl : Place.outerEnd = place := by
      cases place <;> first | rfl | cases htail
    exact h.ends_advance rfl rfl rfl (Phase.turns_outer h.valid hfits)
  · obtain rfl : Place.innerEnd = place := by
      cases place <;> first | rfl | cases htail
    exact h.ends_advance rfl rfl rfl (Phase.turns_inner h.valid hfits)

/-! ## Loops by polling -/

namespace OneState

/-- A run that was aborted remains where it was. -/
theorem halt (h : OneState surface given p x) (hlog : y.events = x.events)
    (haborted : y.aborted = true) (hsequences : y.sequences = x.sequences)
    (hguards : x.guards.Le y.guards) : OneState surface given p y :=
  h.stay hlog (fun ha => by rw [haborted] at ha; cases ha) (fun _ => haborted) hsequences hguards

end OneState

namespace NoState

/-- The head of a loop that was not entered is left in vain. -/
theorem ends_leave_new (h : NoState .polling given p used x) {shape : LoopShape}
    (henters : p.Enters used shape.head.id new) :
    (Act.exit shape.head.id >>= fun _ => Act.issue shape.after none).Ends x
      (Gave .polling given p x.bounds x.aborted)
      (fun _ => OneState.Reaches .polling given p.starts) := by
  refine Ends.bind (ends_exit (fun e => (h.fail e).reaches) fun top below ha hs hid _ => ?_)
  exact absurd hid (henters.ne_of_frames ((h.frames ha).symm.trans hs))

/-- What a polled loop does whose frame is on top, or was just pushed. -/
theorem ends_enter_new (h : NoState .polling given p used x) {shape : LoopShape} {body : Place}
    (hbody : shape.body = siteAt .polling body) (henters : p.Enters used shape.head.id new)
    (hnew : new.head? = some body) :
    (Act.activate shape.head.id shape.head.param >>= fun f =>
      if f.canEnter then do Act.iteration f; Act.issue shape.body none
      else Act.abort (.boundsExceeded f)).Ends x
      (Gave .polling given p x.bounds x.aborted)
      (fun _ => OneState.Reaches .polling given p.starts) := by
  refine Ends.bind (ends_activate (fun e => (h.fail e).reaches) ?_ ?_)
  · intro top below ha hs hid
    exact absurd hid (henters.ne_of_frames ((h.frames ha).symm.trans hs))
  · intro b ha _ _
    obtain ⟨p', hleads⟩ := henters.2 b
    have hlive : p'.live = some body := by rw [hleads.step.live_eq, hnew, Option.some_or]
    rw [Frame.canEnter_start, if_pos rfl]
    refine Ends.bind (ends_iteration (ends_issue ?_))
    rw [hbody]
    refine h.gives hleads hlive ?_ (fun _ => ?_) ?_ ?_ ?_ ?_ none
    · simp [Frame.start]
    · show _ :: x.stack.frames = _
      rw [h.frames ha, Frame.iterating_zero]
    · exact h.sequences
    · rfl
    · rfl
    · rfl

/-- The driver came back to the head from the body, and enters the next iteration. After the last
one the instance is aborted, with the frame past its bound. -/
theorem ends_enter_next (h : NoState .polling given p used x) {shape : LoopShape} {body : Place}
    (hbody : shape.body = siteAt .polling body) (hturns : p.Turns used shape.head.id body) :
    (Act.activate shape.head.id shape.head.param >>= fun f =>
      if f.canEnter then do Act.iteration f; Act.issue shape.body none
      else Act.abort (.boundsExceeded f)).Ends x
      (Gave .polling given p x.bounds x.aborted)
      (fun _ => OneState.Reaches .polling given p.starts) := by
  obtain ⟨b, i, below', hframes, hi, hnext, hlast⟩ := hturns
  refine Ends.bind (ends_activate (fun e => (h.fail e).reaches) ?_ ?_)
  · intro top below ha hs _
    have hstack : top :: below = Frame.iterating shape.head.id b i :: below' := by
      rw [← hframes, ← h.frames ha]
      exact hs.symm
    obtain ⟨rfl, rfl⟩ := List.cons_eq_cons.1 hstack
    rw [Frame.advance_iterating, Frame.canEnter_iterating (Nat.succ_le_of_lt hi)]
    by_cases hmore : i + 1 < b.count.toNat
    · obtain ⟨p', hleads⟩ := hnext hmore
      rw [decide_eq_true hmore, if_pos rfl]
      refine Ends.bind (ends_iteration (ends_issue ?_))
      rw [hbody]
      refine h.gives hleads hleads.step.live_eq ?_ (fun _ => rfl) ?_ ?_ ?_ ?_ none
      · simp [Frame.iterating]
      · exact h.sequences
      · rfl
      · rfl
      · rfl
    · rw [decide_eq_false hmore, if_neg Bool.false_ne_true]
      refine ends_abort (OneState.reaches (h.halt ?_ ?_ ?_ ?_))
      · exact Instance.events_fail _ _
      · exact Instance.aborted_fail _ _
      · exact Instance.sequences_fail _ _
      · rw [Instance.guards_fail]
        exact .refl _
  · intro b' ha hc _
    rw [FrameStack.contains_eq_false_iff, h.frames ha, hframes] at hc
    exact absurd rfl (hc _ List.mem_cons_self)

/-- The driver came back to the head from the body of the last iteration, and leaves the loop. -/
theorem ends_leave (h : NoState .polling given p used x) {shape : LoopShape} {body after : Place}
    (hafter : shape.after = siteAt .polling after)
    (hleave : Phase.afterLoop? used = some after) (hturns : p.Turns used shape.head.id body) :
    (Act.exit shape.head.id >>= fun _ => Act.issue shape.after none).Ends x
      (Gave .polling given p x.bounds x.aborted)
      (fun _ => OneState.Reaches .polling given p.starts) := by
  obtain ⟨b, i, below', hframes, hi, -, hlast⟩ := hturns
  refine Ends.bind (ends_exit (fun e => (h.fail e).reaches) fun top below ha hs _ hover => ?_)
  have hstack : top :: below = Frame.iterating shape.head.id b i :: below' := by
    rw [← hframes, ← h.frames ha]
    exact hs.symm
  obtain ⟨rfl, rfl⟩ := List.cons_eq_cons.1 hstack
  rw [Frame.hasNext_iterating (Nat.le_of_lt hi), decide_eq_false_iff_not] at hover
  obtain ⟨p', hleads⟩ := hlast (by omega)
  refine ends_issue ?_
  rw [hafter]
  refine h.gives hleads (hleads.step.live_eq.trans hleave) ?_ (fun _ => rfl) ?_ ?_ ?_ ?_ none
  · simp
  · exact h.sequences
  · rfl
  · rfl
  · rfl

end NoState

namespace OneState

/-- The two loops can be entered at two places each: at the head, and where their iterations
end. -/
theorem loop?_siteAt {shape : LoopShape} (h : (siteAt surface place).loop? surface = some shape) :
    (shape = outer surface ∧ (place = .outer ∨ place = .outerEnd)) ∨
      (shape = inner surface ∧ (place = .inner ∨ place = .innerEnd)) := by
  cases surface <;> cases place <;> cases h <;> simp

theorem ends_enter (h : OneState .polling given p x) (ht : t ∈ given) {shape : LoopShape}
    (hloop : t.site.loop? .polling = some shape) :
    (Polling.enter shape t).Ends x (Gave .polling given p x.bounds x.aborted)
      (fun _ => Reaches .polling given p.starts) := by
  refine Ends.bind (Act.ends_consume (fun e => (h.fail e).reaches) fun hunused => ?_)
  obtain ⟨place, hsite, hno⟩ := h.spend ht hunused
  rw [hsite] at hloop
  have hfits := Phase.fits_of_live hno.used
  rcases loop?_siteAt hloop with ⟨rfl, rfl | rfl⟩ | ⟨rfl, rfl | rfl⟩
  · exact hno.ends_enter_new rfl (Phase.enters_outer hfits) rfl
  · exact hno.ends_enter_next rfl (Phase.turns_outer hno.valid hfits)
  · exact hno.ends_enter_new rfl (Phase.enters_inner hno.valid hfits) rfl
  · exact hno.ends_enter_next rfl (Phase.turns_inner hno.valid hfits)

theorem ends_exit (h : OneState .polling given p x) (ht : t ∈ given) {shape : LoopShape}
    (hloop : t.site.loop? .polling = some shape) :
    (Polling.exit shape t).Ends x (Gave .polling given p x.bounds x.aborted)
      (fun _ => Reaches .polling given p.starts) := by
  refine Ends.bind (Act.ends_consume (fun e => (h.fail e).reaches) fun hunused => ?_)
  obtain ⟨place, hsite, hno⟩ := h.spend ht hunused
  rw [hsite] at hloop
  have hfits := Phase.fits_of_live hno.used
  rcases loop?_siteAt hloop with ⟨rfl, rfl | rfl⟩ | ⟨rfl, rfl | rfl⟩
  · exact hno.ends_leave_new (Phase.enters_outer hfits)
  · exact hno.ends_leave rfl rfl (Phase.turns_outer hno.valid hfits)
  · exact hno.ends_leave_new (Phase.enters_inner hno.valid hfits)
  · exact hno.ends_leave rfl rfl (Phase.turns_inner hno.valid hfits)

end OneState

/-! ## All calls -/

/-- What a driver may do on the instance: its first state is the only one without a loop around it,
a state is used by its own transitions or not for anything, and a loop goes on for no state of
another instance. -/
def Permits (surface : Surface) (i : InstanceId) : Call → Prop
  | .issue site => site = start surface
  | .use _ u => u = .consume
  | .advance _ j => j = i
  | _ => True

/-- A place belongs to one surface. -/
theorem surface_eq_of_loop? {surface' : Surface} {shape : LoopShape}
    (h : (siteAt surface place).loop? surface' = some shape) : surface = surface' := by
  cases surface <;> cases place <;> cases surface' <;> first | rfl | cases h

theorem surface_eq_of_tail {shape : LoopShape} (hshape : IsLoop shape)
    (h : shape.tail = siteAt surface place) : surface = .callback := by
  rcases hshape with rfl | rfl <;> cases surface <;> cases place <;> first | rfl | cases h

namespace OneState

variable {c : Call} {begun : List LoopShape} {i : InstanceId}

/-- The first state is given out. -/
theorem issue (h : OneState surface given .idle x) :
    OneState surface (given ++ [⟨x.guards.next, start surface, none⟩]) .start
      { x with guards := x.guards.issue } := by
  have hconsumed : ∀ t ∈ given, t.isConsumed x = true := by
    intro t ht
    cases hx : t.isConsumed x with
    | true => rfl
    | false =>
      obtain ⟨place, -, hlive⟩ := h.live t ht hx
      cases hlive
  have hvalid : Phase.start.Valid := trivial
  have hplace : Phase.start.live = some .outer := rfl
  refine h.give hconsumed hvalid ?_ ?_ ?_ ?_ hplace none
  · exact h.log
  · exact h.frames
  · exact h.sequences
  · rfl

theorem ends_take? (h : OneState surface given p x) (q : SequenceId) :
    (Iterator.take? q).Ends x (fun t => Reaches surface (given ++ t.toList) p.starts)
      (fun _ => Reaches surface given p.starts) := by
  have hqueue : (x.handOff q).queue = [] := by
    simp [Instance.handOff, h.sequences, HandOff.gone]
  refine Act.ends_take? (fun _ => ?_) (fun t ht => ?_) fun t u rest ht => ?_
  · simpa using h.reaches
  · cases hqueue.symm.trans ht
  · cases hqueue.symm.trans ht

theorem ends_abandon (h : OneState surface given p x) (q : SequenceId) :
    (Iterator.abandon q).Ends x (fun _ => Reaches surface given p.starts)
      (fun _ => Reaches surface given p.starts) := by
  have hsequences : (x.setHandOff q (x.handOff q).abandon).sequences = x.sequences := by
    simp [Instance.setHandOff, h.sequences]
  have hleft : OneState surface given p (x.setHandOff q (x.handOff q).abandon) :=
    h.stay rfl (fun _ => rfl) (fun ha => ha) hsequences (.refl _)
  exact Act.ends_abandon hleft.reaches fun e => (hleft.fail e).reaches

/-- **Every call leaves at most one state unused**, whatever it is made on and however it ends. -/
theorem ends_call (h : OneState surface given p x) (hlegal : c.Legal given begun)
    (hbegun : ∀ shape ∈ begun, IsLoop shape) (hsurface : surface ≠ .iterator)
    (hpermits : Permits surface i c)
    (hdue : ∀ shape, c = .advance shape i →
      ∃ place, shape.tail = siteAt surface place ∧ NoState surface given p place x)
    (hstarts : startsOf c ≤ p.starts) :
    c.act.Ends x (fun grant => Reaches surface (given ++ grant.tokens) (p.starts - startsOf c))
      (fun _ => Reaches surface given (p.starts - startsOf c)) := by
  have hnothing : ∀ y, Reaches surface given p.starts y →
      Reaches surface (given ++ Grant.nothing.tokens) p.starts y := fun y hy => by
    simpa [Grant.tokens] using hy
  have hconsume : ∀ t ∈ given, t.consume.Ends x (fun _ => Reaches surface given p.starts)
      (fun _ => Reaches surface given p.starts) := by
    intro t ht
    refine (h.ends_consume ht).mono ?_ fun _ _ hy => hy.reaches
    rintro - y ⟨place, -, hy⟩
    exact hy.reaches
  cases c with
  | issue site =>
    obtain rfl : site = start surface := hpermits
    obtain rfl := Phase.eq_idle_of_starts hstarts
    exact Ends.map (Act.ends_issue h.issue.reaches)
  | setParam name bound =>
    have hset : OneState surface given p { x with bounds := x.bounds.insert name bound } :=
      h.stay rfl (fun _ => rfl) (fun ha => ha) rfl (.refl _)
    exact Ends.map (Act.ends_setParam (hnothing _ hset.reaches))
  | use t u =>
    obtain rfl : u = .consume := hpermits
    exact Ends.map ((hconsume t hlegal).mono (fun _ => hnothing) fun _ _ he => he)
  | giveBack t =>
    exact Ends.map ((hconsume t hlegal.1).mono (fun _ => hnothing) fun _ _ he => he)
  | send t point =>
    have hsend := h.ends_sendAt hlegal.1 hlegal.2 hsurface
    exact Ends.map (hsend.mono (fun _ _ hy => hy.reaches) fun _ _ he => he)
  | finish t closes =>
    refine Ends.map ((h.ends_finish hlegal.1 hlegal.2 hsurface).mono ?_ fun _ _ he => he)
    rintro - y ⟨b, c, hp, hy⟩
    exact hnothing y ⟨.ended b c, hp.symm, hy⟩
  | take q =>
    refine Ends.map ((h.ends_take? q).mono (fun t y hy => ?_) fun _ _ he => he)
    cases t <;> exact hy
  | abandon q => exact Ends.map ((h.ends_abandon q).mono (fun _ => hnothing) fun _ _ he => he)
  | enter shape t =>
    obtain ⟨place, hplace⟩ := h.placed t hlegal.1
    obtain rfl : surface = .polling := surface_eq_of_loop? (hplace ▸ hlegal.2)
    have henter := h.ends_enter hlegal.1 hlegal.2
    exact Ends.map (henter.mono (fun _ _ hy => hy.reaches) fun _ _ he => he)
  | exit shape t =>
    obtain ⟨place, hplace⟩ := h.placed t hlegal.1
    obtain rfl : surface = .polling := surface_eq_of_loop? (hplace ▸ hlegal.2)
    have hexit := h.ends_exit hlegal.1 hlegal.2
    exact Ends.map (hexit.mono (fun _ _ hy => hy.reaches) fun _ _ he => he)
  | begin shape t =>
    obtain ⟨place, hplace⟩ := h.placed t hlegal.1
    obtain rfl : surface = .callback := surface_eq_of_loop? (hplace ▸ hlegal.2)
    exact Ends.map (h.ends_begin hlegal.1 hlegal.2)
  | advance shape j =>
    obtain rfl : j = i := hpermits
    obtain ⟨place, htail, hno⟩ := hdue shape rfl
    obtain rfl : surface = .callback := surface_eq_of_tail (hbegun shape hlegal) htail
    exact Ends.map (hno.ends_loop (hbegun shape hlegal) htail)
  | fail e => exact Ends.map (ends_abort (h.fail e).reaches)
  | fork t =>
    obtain ⟨place, hplace⟩ := h.placed t hlegal.1
    cases surface <;> cases place <;> cases hplace.symm.trans hlegal.2
  | iterate shape t =>
    obtain ⟨place, hplace⟩ := h.placed t hlegal.1
    exact absurd (surface_eq_of_loop? (hplace ▸ hlegal.2)) hsurface
  | endIteration t q nextBody =>
    obtain ⟨place, hplace⟩ := h.placed t hlegal.1
    cases (end?_siteAt hsurface (hplace ▸ hlegal.2.1)).2

end OneState

end LoopProtocol.Nested
