import LoopProtocol.Proofs.InPhase

/-!
# Calls in a phase

Each call of the iterator surface, on any state that the driver was ever given, leaves the instance
in a phase. The call fails without a step when its state is used up, when the instance is aborted,
or when the loop is not where the call needs it; otherwise the state fits the phase, and the phase
says what the call finds on the stack.
-/

namespace LoopProtocol.Nested

open Act

/-- The instance is in a phase in which so many first states are still to be given out. -/
def Conforms (given : List Token) (starts : Nat) (x : Instance) : Prop :=
  ∃ p : Phase, p.starts = starts ∧ InPhase given p x

namespace InPhase

variable {given : List Token} {p : Phase} {x : Instance} {t : Token} {place : Place}

theorem conforms (h : InPhase given p x) : Conforms given p.starts x := ⟨p, rfl, h⟩

/-- A call that used its state and failed. -/
theorem failed (h : InPhase given p x) (t : Token) (e : Fault) :
    Conforms given p.starts ((x.spend t).fail e) :=
  ((h.spend t).fail e).conforms

theorem usable_of_running (ha : x.aborted = false) (hunused : t.isConsumed x = false) :
    Usable x place t :=
  ⟨hunused, fun hab => by rw [ha] at hab; cases hab⟩

/-- Where the state after a send point stands. -/
theorem isAt_next {point : SendPoint} {place' : Place} (hat : IsAt t place) {g : GuardId}
    (hnext : point.next = .nested .iterator place') (hfeeds : feeds place' = feeds place) :
    IsAt ⟨g, point.next, t.feed⟩ place' :=
  ⟨hnext, hat.feed.trans hfeeds.symm⟩

/-- A message of an inner body is sent even on an aborted instance. -/
theorem ends_sendFoo (h : InPhase given p x) (ht : Known given x t) (hat : IsAt t .innerBody) :
    (t.sendAt (foo .iterator)).Ends x (fun next => Conforms (given ++ [next]) p.starts)
      (fun _ => Conforms given p.starts) := by
  show ((t.consume >>= fun _ => Act.accept "foo") >>= _).Ends _ _ _
  rw [bind_assoc]
  refine Ends.bind (ends_consume (fun e => (h.fail e).conforms) fun hunused => ?_)
  refine Ends.bind (ends_accept (ends_issue ?_))
  have hu : Usable x .innerBody t := ⟨hunused, fun _ => rfl⟩
  have hfits := h.fits t .innerBody ht hat hu
  obtain ⟨p', hleads⟩ := Phase.leads_sendFoo h.valid hfits
  have hnext : IsAt ⟨(x.guards.spend t.guard).next, (foo .iterator).next, t.feed⟩ .innerEnd :=
    isAt_next hat rfl rfl
  refine ⟨p', hleads.step.starts_eq, ?_⟩
  exact h.step ht hat hu hleads (by simp [Instance.spend]) h.frames (fun ha => ha) rfl
    (known_issue rfl hnext Guards.size_spend)

/-- The message after the inner loop is sent only when the loop is over. -/
theorem ends_sendBar (h : InPhase given p x) (ht : Known given x t) (hat : IsAt t .afterInner) :
    (t.sendAt (bar .iterator)).Ends x (fun next => Conforms (given ++ [next]) p.starts)
      (fun _ => Conforms given p.starts) := by
  show ((t.consume >>= fun _ => Act.ensureClosed innerId >>= fun _ => Act.accept "bar") >>= _).Ends
    _ _ _
  simp only [bind_assoc]
  refine Ends.bind (ends_consume (fun e => (h.fail e).conforms) fun hunused => ?_)
  refine Ends.bind (ends_ensureClosed (h.failed t) fun ha hc => ?_)
  refine Ends.bind (ends_accept (ends_issue ?_))
  have hu : Usable x .afterInner t := usable_of_running ha hunused
  have hclosed : ∀ f ∈ p.frames, f.id ≠ innerId := by
    rw [← h.frames ha]
    exact FrameStack.contains_eq_false_iff.1 hc
  have hfits := h.fits t .afterInner ht hat hu
  obtain ⟨p', hleads⟩ := Phase.leads_sendBar h.valid hfits hclosed
  have hnext : IsAt ⟨(x.guards.spend t.guard).next, (bar .iterator).next, t.feed⟩ .outerEnd :=
    isAt_next hat rfl rfl
  refine ⟨p', hleads.step.starts_eq, ?_⟩
  exact h.step ht hat hu hleads (by simp [Instance.spend]) h.frames (fun ha => ha) rfl
    (known_issue rfl hnext Guards.size_spend)

theorem ends_sendAt (h : InPhase given p x) (ht : Known given x t) {point : SendPoint}
    (hpoint : t.site.send? = some point) :
    (t.sendAt point).Ends x (fun next => Conforms (given ++ [next]) p.starts)
      (fun _ => Conforms given p.starts) := by
  obtain ⟨place, hat⟩ := h.placed t ht
  rw [hat.site] at hpoint
  cases place <;> cases hpoint
  · exact h.ends_sendFoo ht hat
  · exact h.ends_sendBar ht hat

/-- The protocol ends only with a complete run. -/
theorem ends_finish (h : InPhase given p x) (ht : Known given x t) {closes : Option LoopId}
    (hend : t.site.end? = some (.protocol closes)) :
    (t.finish closes).Ends x (fun _ y => ∃ b c, p.starts = 0 ∧ InPhase given (.ended b c) y)
      (fun _ => Conforms given p.starts) := by
  obtain ⟨place, hat⟩ := h.placed t ht
  rw [hat.site] at hend
  cases place <;> cases hend
  refine Ends.bind (ends_consume (fun e => (h.fail e).conforms) fun hunused => ?_)
  refine Ends.bind (ends_ensureClosed (h.failed t) fun _ _ => ?_)
  refine ends_terminate (h.failed t) fun ha hs => ?_
  have hu : Usable x .done t := usable_of_running ha hunused
  have hfits := h.fits t .done ht hat hu
  have hempty : p.frames = [] := (h.frames ha).symm.trans hs
  obtain ⟨b, c, hleads⟩ := Phase.leads_terminate hfits hempty
  refine ⟨b, c, hleads.step.starts_eq.symm, ?_⟩
  exact h.step ht hat hu hleads (by simp [Instance.spend]) (fun _ => hs) (fun ha => ha) rfl
    fun _ ht => .inl ht

/-! ## The iterations of a loop -/

/-- Entering a loop gives its first body, which is on its way to the driver, and the state after
the loop. -/
theorem ends_enter (h : InPhase given p x) (ht : Known given x t) (hat : IsAt t place)
    {shape : LoopShape} {body after : Place} (hbody : shape.body = .nested .iterator body)
    (hafter : shape.after = .nested .iterator after) (hfeeds : feeds body = some shape.head.id)
    (hfeeds' : feeds after = feeds place)
    (henters : p.Fits place → p.Enters place shape.head.id [body, after]) :
    (Iterator.enter shape t).Ends x (fun r => Conforms (given ++ [r.2]) p.starts)
      (fun _ => Conforms given p.starts) := by
  refine Ends.bind (ends_consume (fun e => (h.fail e).conforms) fun hunused => ?_)
  refine Ends.bind (ends_activate (h.failed t) ?_ ?_)
  · intro top below ha hs hid
    have hu : Usable x place t := usable_of_running ha hunused
    have hfits := h.fits t place ht hat hu
    exact absurd hid ((henters hfits).ne_of_frames ((h.frames ha).symm.trans hs))
  · intro b ha _ _
    have hu : Usable x place t := usable_of_running ha hunused
    have hfits := h.fits t place ht hat hu
    obtain ⟨p', hleads⟩ := (henters hfits).2 b
    refine Ends.bind (ends_openSequence ?_)
    refine Ends.bind ?_
    unfold Iterator.turn
    rw [Frame.canEnter_start, if_pos rfl]
    refine Ends.bind (ends_iteration (Ends.bind (ends_issue (ends_handOver_empty ?_ ?_))))
    · simp [Instance.handOff, Instance.spend, Array.getD_eq_getD_getElem?]
    refine Ends.bind (ends_issue (ends_pure ⟨p', hleads.step.starts_eq, ?_⟩))
    refine h.step ht hat hu hleads ?_ (fun _ => ?_) (fun ha => ha) rfl fun t' ht' => ?_
    · simp [Instance.setHandOff, Instance.spend, Frame.start]
    · show _ :: x.stack.frames = _
      rw [h.frames ha, Frame.iterating_zero]
    · rcases ht' with ht' | hq
      · rcases List.mem_append.1 ht' with ht' | ht'
        · exact .inl (.inl ht')
        · obtain rfl := List.mem_singleton.1 ht'
          -- the state after the loop was issued behind the first body
          refine .inr ⟨1, after, rfl, ⟨hafter, hat.feed.trans hfeeds'.symm⟩, ?_⟩
          simp [Guards.next, Guards.issue, Instance.spend, Instance.setHandOff]
      · rcases Queued.of_set hq with hq | hq
        · obtain rfl := List.mem_singleton.1 hq
          exact .inr ⟨0, body, rfl, ⟨hbody, hfeeds.symm⟩, Guards.size_spend⟩
        · exact .inl (.inr hq.of_push)

theorem ends_iterate (h : InPhase given p x) (ht : Known given x t) {shape : LoopShape}
    (hloop : t.site.loop? .iterator = some shape) :
    (Iterator.enter shape t).Ends x (fun r => Conforms (given ++ [r.2]) p.starts)
      (fun _ => Conforms given p.starts) := by
  obtain ⟨place, hat⟩ := h.placed t ht
  rw [hat.site] at hloop
  cases place <;> cases hloop
  · exact h.ends_enter ht hat rfl rfl rfl rfl Phase.enters_outer
  · exact h.ends_enter ht hat rfl rfl rfl rfl (Phase.enters_inner h.valid)

/-- The end of an iteration reports the next one before the body is handed over. If the driver has
let go of the sequence, the instance is aborted in the phase of that iteration. -/
theorem ends_turn (h : InPhase given p x) (ht : Known given x t) (hat : IsAt t place)
    {s : SequenceId} {body : Place} (hfeeds : feeds body = some s.loop)
    (hturns : p.Fits place → p.Turns place s.loop body) :
    (Iterator.endIteration t s (.nested .iterator body)).Ends x
      (fun _ => Conforms given p.starts) (fun _ => Conforms given p.starts) := by
  refine Ends.bind (ends_consume (fun e => (h.fail e).conforms) fun hunused => ?_)
  refine Ends.bind (ends_complete (h.failed t) ?_)
  intro top below ha hs _
  have hu : Usable x place t := usable_of_running ha hunused
  have hfits := h.fits t place ht hat hu
  obtain ⟨b, i, below', hframes, hi, hnext, hlast⟩ := hturns hfits
  have hstack : top :: below = Frame.iterating s.loop b i :: below' := by
    rw [← hframes, ← h.frames ha]
    exact hs.symm
  obtain ⟨rfl, rfl⟩ := List.cons_eq_cons.1 hstack
  rw [Frame.advance_iterating]
  unfold Iterator.turn
  rw [Frame.canEnter_iterating (Nat.succ_le_of_lt hi)]
  by_cases hmore : i + 1 < b.count.toNat
  · obtain ⟨p', hleads⟩ := hnext hmore
    rw [decide_eq_true hmore, if_pos rfl]
    refine Ends.bind (ends_iteration (Ends.bind (ends_issue ?_)))
    refine ends_handOver (fun e => ⟨p', hleads.step.starts_eq, ?_⟩)
      fun _ _ _ => ⟨p', hleads.step.starts_eq, ?_⟩
    · refine h.step ht hat hu hleads ?_ ?_ ?_ ?_ fun t' ht' => ?_
      · simp [Instance.spend, Frame.iterating]
      · simp
      · simp
      · simp [Instance.spend, Nat.repeat]
      · exact .inl (ht'.imp_right fun hq => by simpa [Instance.spend] using hq)
    · refine h.step ht hat hu hleads ?_ (fun _ => rfl) (fun ha => ha) rfl fun t' ht' => ?_
      · simp [Instance.spend, Instance.setHandOff, Frame.iterating]
      · rcases ht' with ht' | hq
        · exact .inl (.inl ht')
        · rcases Queued.of_set hq with hq | hq
          · rcases List.mem_append.1 hq with hq | hq
            · exact .inl (.inr (queued_handOff hq))
            · obtain rfl := List.mem_singleton.1 hq
              exact .inr ⟨0, body, rfl, ⟨rfl, hfeeds.symm⟩, Guards.size_spend⟩
          · exact .inl (.inr hq)
  · obtain ⟨p', hleads⟩ := hlast (by omega)
    have hover : (Frame.iterating s.loop b (i + 1)).hasNext = false := by
      rw [Frame.hasNext_iterating (Nat.succ_le_of_lt hi), decide_eq_false (by omega)]
    rw [decide_eq_false hmore, if_neg Bool.false_ne_true]
    refine Ends.bind (ends_exit_top ha rfl rfl hover ?_)
    refine Ends.bind (ends_closeSequence (ends_pure ⟨p', hleads.step.starts_eq, ?_⟩))
    refine h.step ht hat hu hleads ?_ (fun _ => rfl) (fun ha => ha) rfl fun t' ht' => ?_
    · simp [Instance.spend, Instance.setHandOff]
    · refine .inl (ht'.imp_right fun hq => ?_)
      have hsame : (x.handOff s).close.queue ⊆ (x.handOff s).queue := List.Subset.refl _
      exact Queued.of_setHandOff hsame hq

theorem ends_endIteration (h : InPhase given p x) (ht : Known given x t) {s : SequenceId}
    {nextBody : Site} (hend : t.site.end? = some (.iteration nextBody)) (hfeed : t.feed = some s) :
    (Iterator.endIteration t s nextBody).Ends x
      (fun _ => Conforms given p.starts) (fun _ => Conforms given p.starts) := by
  obtain ⟨place, hat⟩ := h.placed t ht
  have hloop := hat.feed
  rw [hfeed, Option.map_some] at hloop
  rw [hat.site] at hend
  cases place <;> cases hend
  · have hs : s.loop = innerId := Option.some.inj hloop
    refine h.ends_turn ht hat hloop.symm ?_
    rw [hs]
    exact Phase.turns_inner h.valid
  · have hs : s.loop = outerId := Option.some.inj hloop
    refine h.ends_turn ht hat hloop.symm ?_
    rw [hs]
    exact Phase.turns_outer h.valid

/-! ## What changes no phase -/

theorem ends_take? (h : InPhase given p x) (s : SequenceId) :
    (Iterator.take? s).Ends x (fun t => Conforms (given ++ t.toList) p.starts)
      (fun _ => Conforms given p.starts) := by
  -- a body that is taken was on its way, and the others of its sequence still are
  have htaken : ∀ {t rest y}, (x.handOff s).queue = t :: rest → y.events = x.events →
      y.stack = x.stack → y.aborted = x.aborted → y.guards = x.guards →
      y.sequences = (x.setHandOff s { x.handOff s with queue := rest }).sequences →
      Conforms (given ++ [t]) p.starts y := by
    intro t rest y hq hlog hstack haborted hguards hseq
    have hknown : ∀ t', Known (given ++ [t]) y t' → Known given x t' := by
      rintro t' (ht' | hq')
      · rcases List.mem_append.1 ht' with ht' | ht'
        · exact .inl ht'
        · obtain rfl := List.mem_singleton.1 ht'
          exact .inr (queued_handOff (by rw [hq]; exact List.mem_cons_self))
      · rw [hseq] at hq'
        refine .inr (hq'.of_setHandOff ?_)
        rw [hq]
        exact List.subset_cons_self t rest
    have hgrants : Grants given x [] (given ++ [t]) y := by
      refine ⟨fun ha => haborted.trans ha, by rw [hguards]; rfl, fun id _ hid => ?_,
        fun t' ht' => .inl (hknown t' ht')⟩
      rwa [hguards] at hid
    exact ⟨p, rfl, h.stay hgrants hlog hstack⟩
  refine Act.ends_take? ?_ ?_ ?_
  · intro _
    simpa using h.conforms
  · intro t hq
    exact htaken hq rfl rfl rfl rfl rfl
  · intro t u rest hq
    exact htaken hq rfl rfl rfl rfl rfl

theorem ends_abandon (h : InPhase given p x) (s : SequenceId) :
    (Iterator.abandon s).Ends x (fun _ => Conforms given p.starts)
      (fun _ => Conforms given p.starts) := by
  have hknown : ∀ t, Known given (x.setHandOff s (x.handOff s).abandon) t → Known given x t := by
    intro t ht
    exact ht.imp_right (Queued.of_setHandOff (List.nil_subset _))
  have hgrants : Grants given x [] given (x.setHandOff s (x.handOff s).abandon) :=
    ⟨fun ha => ha, rfl, fun _ _ hid => hid, fun t ht => .inl (hknown t ht)⟩
  have hleft : InPhase given p (x.setHandOff s (x.handOff s).abandon) := h.stay hgrants rfl rfl
  exact Act.ends_abandon hleft.conforms fun e => (hleft.fail e).conforms

theorem ends_setParam (h : InPhase given p x) (name : String) (bound : UInt64) :
    (Act.setParam name bound).Ends x (fun _ => Conforms given p.starts)
      (fun _ => Conforms given p.starts) := by
  have hgrants : Grants given x [] given { x with bounds := x.bounds.insert name bound } :=
    ⟨fun ha => ha, rfl, fun _ _ hid => hid, fun _ ht => .inl ht⟩
  exact Act.ends_setParam (h.stay hgrants rfl rfl).conforms

end InPhase

/-! ## All calls -/

/-- The calls of a driver of the nested protocol: its first state is the only one without a loop
around it, and states are used by its own transitions alone. -/
def Admits : Call → Prop
  | .issue site => site = start .iterator
  | .use _ _ => False
  | _ => True

/-- How many first states the call gives out. -/
def startsOf : Call → Nat
  | .issue _ => 1
  | _ => 0

/-- No body of a callback loop ends on the iterator surface. -/
theorem tail_ne {site : Site} {shape : LoopShape} {place : Place}
    (h : site.loop? .callback = some shape) :
    shape.tail ≠ .nested .iterator place := by
  cases site with
  | nested s place =>
    cases place <;> simp only [Site.loop?, reduceCtorEq] at h
    all_goals
      split at h
      · next hs =>
        subst hs
        cases h
        simp [outer, inner]
      · cases h
  | free head =>
    cases h
    simp
  | step | item | bare _ _ => cases h

/-- The calls that have a use on the iterator surface. -/
def isStreamed : Call → Bool
  | .issue _ | .setParam _ _ | .send _ _ | .finish _ _ | .iterate _ _ | .endIteration _ _ _
  | .take _ | .abandon _ => true
  | _ => false

/-- The states of the iterator surface have no other calls, and no callback loop began. -/
theorem isStreamed_of_legal {given : List Token} {c : Call}
    (hsite : ∀ t ∈ given, ∃ place, t.site = .nested .iterator place)
    (hlegal : c.Legal given []) (hadmits : Admits c) : isStreamed c = true := by
  cases c with
  | use t u => exact hadmits.elim
  | fork t =>
    obtain ⟨place, hplace⟩ := hsite t hlegal.1
    cases hplace.symm.trans hlegal.2
  | enter shape t | exit shape t | begin shape t =>
    obtain ⟨place, hplace⟩ := hsite t hlegal.1
    cases place <;> simp [Call.Legal, hplace, Site.loop?] at hlegal
  | giveBack t =>
    obtain ⟨ht, site, shape, hloop, htail⟩ := hlegal
    obtain ⟨place, hplace⟩ := hsite t ht
    exact (tail_ne hloop (htail.symm.trans hplace)).elim
  | advance shape j => cases hlegal
  | fail e => exact (hlegal rfl).elim
  | _ => rfl

namespace InPhase

variable {given : List Token} {p : Phase} {x : Instance} {c : Call}

theorem begins_eq_nil (h : InPhase given p x) (hlegal : c.Legal given []) : c.begins = [] := by
  cases c with
  | begin shape t =>
    obtain ⟨place, hat⟩ := h.placed t (.inl hlegal.1)
    cases place <;> simp [Call.Legal, hat.site, Site.loop?] at hlegal
  | _ => rfl

/-- **Every call leaves the instance in a phase**, whatever it is made on and however it ends. -/
theorem ends_call (h : InPhase given p x) (hlegal : c.Legal given [])
    (hadmits : Admits c) (hstarts : startsOf c ≤ p.starts) :
    c.act.Ends x (fun grant => Conforms (given ++ grant.tokens) (p.starts - startsOf c))
      (fun _ => Conforms given (p.starts - startsOf c)) := by
  have hstreamed : isStreamed c = true := isStreamed_of_legal
    (fun t ht => (h.placed t (.inl ht)).imp fun _ hat => hat.site) hlegal hadmits
  have hnothing : ∀ y, Conforms given p.starts y →
      Conforms (given ++ Grant.nothing.tokens) p.starts y := fun y hy => by
    simpa [Grant.tokens] using hy
  cases c with
  | issue site =>
    obtain rfl : site = start .iterator := hadmits
    obtain rfl := Phase.eq_idle_of_starts hstarts
    exact Ends.map (ends_issue h.issue.conforms)
  | setParam name bound =>
    exact Ends.map ((h.ends_setParam name bound).mono (fun _ => hnothing) fun _ _ he => he)
  | send t point => exact Ends.map (h.ends_sendAt (.inl hlegal.1) hlegal.2)
  | finish t closes =>
    refine Ends.map ((h.ends_finish (.inl hlegal.1) hlegal.2).mono ?_ fun _ _ he => he)
    rintro - y ⟨b, c, hp, hy⟩
    exact hnothing y ⟨.ended b c, hp.symm, hy⟩
  | iterate shape t => exact Ends.map (h.ends_iterate (.inl hlegal.1) hlegal.2)
  | endIteration t s nextBody =>
    have hends := h.ends_endIteration (.inl hlegal.1) hlegal.2.1 hlegal.2.2
    exact Ends.map (hends.mono (fun _ => hnothing) fun _ _ he => he)
  | take s =>
    refine Ends.map ((h.ends_take? s).mono (fun t y hy => ?_) fun _ _ he => he)
    cases t <;> exact hy
  | abandon s =>
    exact Ends.map ((h.ends_abandon s).mono (fun _ => hnothing) fun _ _ he => he)
  | use _ _ | fork _ | enter _ _ | exit _ _ | begin _ _ | giveBack _ | advance _ _ | fail _ =>
    cases hstreamed

end InPhase

end LoopProtocol.Nested
