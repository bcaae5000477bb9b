import LoopProtocol.Proofs.Failure
import LoopProtocol.Proofs.NestedRun
import LoopProtocol.Proofs.Passage
import LoopProtocol.Proofs.StreamCall

/-!
# Draining never stalls

A driver runs the nested protocol once on the iterator surface, in whatever order. The end of an
iteration never finds its sequence's slot taken. As long as nothing is lost, every sequence that was
opened is in one of three situations: a body is in its slot; the slot is empty and one held state is
to fill it or to close the sequence; or its loop was left and the sequence has ended. So a take that
finds the end of a loop's sequence also tells that what comes after the loop can be done.
-/

namespace LoopProtocol

open Nested

/-! ## Along the deeds of a session -/

namespace Dealing

variable {d d' : Dealing} {es : List Deed} {i : InstanceId} {x : Instance} {n : Nat}

/-- The instance is in a phase, and its sequences go together with its stack and its states. -/
structure Draining (d : Dealing) (i : InstanceId) (n : Nat) : Prop where
  follows : d.Follows i n
  issued : d.Issued
  flows : ∀ x, d.world.instance? i = some x → Flows (d.givenBy i) x

theorem Draining.perform (h : d.Draining i n) {e : Deed} (hlegal : d.Legal e)
    (hadmits : e.Admits i) (hstarts : [e].countP (Deed.startsOn i) ≤ n) :
    (d.perform e).Draining i (n - [e].countP (Deed.startsOn i)) := by
  refine ⟨h.follows.perform hlegal hadmits hstarts, h.issued.perform hlegal, fun y hy => ?_⟩
  obtain ⟨x, hx, p, -, hp⟩ := h.follows.conforms
  match e with
  | .clear r => exact h.flows y hy
  | .call j c =>
    by_cases hj : j = i
    · subst hj
      obtain ⟨hc, -⟩ := hlegal
      rw [h.follows.begun] at hc
      obtain rfl := Option.some.inj ((World.instance?_on_self hx c.act).symm.trans hy)
      rw [givenBy_perform_self hx]
      intro hrunning
      have hrun : x.aborted = false := by
        cases ha : x.aborted with
        | false => rfl
        | true => exact absurd ((c.grown x).aborted ha) (by simp [hrunning])
      obtain ⟨active, hstreams⟩ := h.flows x hx hrun
      have hends := hstreams.ends_call hp (h.issued.distinct j x hx) hrun hc (hadmits rfl)
      refine Act.Ends.gains (P := Flows) (hends.mono (fun _ _ hy => hy) fun _ y hy => ?_) hrunning
      intro hrun'
      simp [hy] at hrun'
    · obtain ⟨hgiven, -⟩ := perform_of_ne (d := d) hj c
      rw [hgiven]
      exact h.flows y ((World.instance?_on_of_ne (Ne.symm hj) c.act).symm.trans hy)

end Dealing

namespace NestedRun

variable {i : InstanceId} {moves : List Move} {recorders : Nat}
  {instances : List (BoundTable × Option RecorderId)} {p : BoundTable × Option RecorderId}

theorem draining_start (hi : instances[i.index]? = some p) :
    (Dealing.start (Session.start recorders instances).world).Draining i 1 := by
  refine ⟨follows_start hi, Session.issued_start recorders instances, fun x hx => ?_⟩
  obtain rfl := Option.some.inj ((instance?_start hi).symm.trans hx)
  exact (Streams.of_empty rfl rfl rfl (by simp [Dealing.start, Dealing.givenBy])).flows

theorem draining (h : NestedRun .iterator i (.start recorders instances) moves)
    (hi : instances[i.index]? = some p) :
    ∃ (d : Dealing) (n : Nat),
      d.Covers ((Session.start recorders instances).after moves) ∧ d.Draining i n := by
  obtain ⟨es, d, hr, hcov, horders, hcount⟩ := h.deeds (Dealing.covers_start recorders instances)
  obtain ⟨n, hd⟩ := hr.counted (F := fun n d => d.Draining i n) (draining_start hi)
    (fun e he => h.admits (horders e he)) hcount fun hd hlegal hadmits hle =>
      hd.perform hlegal hadmits hle
  exact ⟨d, n, hcov, hd⟩

end NestedRun

/-! ## Where a sequence stands -/

/-- The loops that were activated and not left, the innermost first, each with the number of its
activation. -/
def Instance.entered (x : Instance) : List SequenceId := (Event.loops x.events.toList).2

namespace Nested.Streams

variable {given : List Token} {active : List SequenceId} {p : Phase} {x : Instance} {t : Token}
  {q : SequenceId}

theorem entered_eq (h : Streams given active x) : x.entered = active := by
  rw [Instance.entered, h.told]

/-- The sequence of a loop that runs has a body in its slot, or a state that is to fill it. -/
theorem filled_or_fed (h : Streams given active x) (hq : q ∈ active)
    (hconsumer : (x.handOff q).abandoned = false) :
    (∃ body, (x.handOff q).queue = [body]) ∨ (x.handOff q).queue = [] ∧
      ∃ t ∈ given, t.isConsumed x = false ∧ t.feed = some q := by
  cases hqueue : (x.handOff q).queue with
  | cons body rest =>
    obtain ⟨hslot, -⟩ := h.queued q body (by simp [hqueue])
    exact .inl ⟨body, hqueue ▸ hslot⟩
  | nil =>
    refine .inr ⟨rfl, ?_⟩
    obtain hab | ⟨t, ht, hunused, hfeed⟩ := h.fed q hq
    · simp [hconsumer] at hab
    refine ⟨t, ?_, hunused, hfeed⟩
    -- a state in a slot feeds the sequence of that slot, and this slot is empty
    refine ht.resolve_right fun hqueued => ?_
    obtain ⟨q', hmem⟩ := Instance.queued_iff.1 hqueued
    have hindex := (h.queued q' t hmem).2.2.2
    rw [hfeed] at hindex
    rw [← Instance.handOff_congr (Option.some.inj hindex), hqueue] at hmem
    cases hmem

/-- A loop that was left closed its sequence, and nothing is in the slot. -/
theorem finished (h : Streams given active x) (hlt : q.index < x.sequences.size)
    (hnumbered : q.loop = if q.index = 0 then outerId else innerId) (hq : q ∉ active) :
    (x.handOff q).closed = true ∧ (x.handOff q).queue = [] := by
  have hnot : q.index ∉ active.map (·.index) := by
    intro hmem
    obtain ⟨q', hq', hindex⟩ := List.mem_map.1 hmem
    have hsame : q' = q := by
      have hloop := h.numbered q' hq'
      rw [hindex, ← hnumbered] at hloop
      cases q'
      cases q
      simp_all
    exact hq (hsame ▸ hq')
  have hclosed : (x.handOff q).closed = true := by
    cases hc : (x.handOff q).closed with
    | true => rfl
    | false => exact absurd ((h.closed q hlt).1 hc) hnot
  refine ⟨hclosed, ?_⟩
  cases hqueue : (x.handOff q).queue with
  | nil => rfl
  | cons body rest =>
    obtain ⟨-, hunused, -, hindex⟩ := h.queued q body (by simp [hqueue])
    obtain ⟨q', hfeed, hindex⟩ := Option.map_eq_some_iff.1 hindex
    have hqueued : Known given x body := .inr (queued_handOff (by rw [hqueue]; simp))
    have hactive := h.feeds body q' hqueued hunused hfeed
    exact absurd (List.mem_map_of_mem (f := (·.index)) hactive) (by rw [hindex]; exact hnot)

/-- The loop of a sequence that was left is not on the stack, if no other loop of that number was
entered since. -/
theorem contains_eq_false (h : Streams given active x)
    (hnumbered : q.loop = if q.index = 0 then outerId else innerId) (hq : q ∉ active)
    (hlatest : q.loop = innerId → q.index + 1 = x.sequences.size) :
    x.stack.contains q.loop = false := by
  refine FrameStack.contains_eq_false_iff.2 fun f hf hid => ?_
  have hmem : f.id ∈ active.map (·.loop) := h.stack ▸ List.mem_map_of_mem hf
  obtain ⟨q', hq', hloop⟩ := List.mem_map.1 hmem
  have hloop' : q'.loop = q.loop := hloop.trans hid
  have hindex : q'.index = q.index := by
    have hnumbered' := h.numbered q' hq'
    rw [hloop', hnumbered] at hnumbered'
    by_cases hzero : q.index = 0
    · by_cases hzero' : q'.index = 0
      · rw [hzero, hzero']
      · simp [hzero, hzero', outerId, innerId] at hnumbered'
    · rw [if_neg hzero] at hnumbered
      have hlast := hlatest hnumbered
      have hlast' := h.latest q' hq' (hloop'.trans hnumbered)
      omega
  have hsame : q' = q := by
    cases q'
    cases q
    simp_all
  exact hq (hsame ▸ hq')

/-- **The end of an iteration finds its slot empty.** -/
theorem free_end (hflows : Flows given x) (hp : InPhase given p x) (hdistinct : Distinct given x)
    (ht : t ∈ given) (hfeed : t.feed = some q) (body : Site) :
    ((Iterator.endIteration t q body).on x).1 ≠ .ok .waiting ∧
      (((Iterator.endIteration t q body).on x).1 = .ok .delivered → (x.handOff q).queue = []) := by
  refine ⟨fun hwaiting => ?_, fun hdelivered =>
    (((Iterator.ends_endIteration t q body x).of_ok hdelivered).delivered rfl).2⟩
  have hrun : (Iterator.endIteration t q body).Ends x (fun _ _ => x.aborted = false)
      fun _ _ => True := by
    refine Act.Ends.bind (Act.ends_consume (fun _ => trivial) fun _ => Act.Ends.bind ?_)
    exact Act.ends_complete (fun _ => trivial) fun _ _ ha _ _ =>
      (Act.ends_any _).mono (fun _ _ _ => ha) fun _ _ _ => trivial
  have hrunning := hrun.of_ok hwaiting
  obtain ⟨active, hstreams⟩ := hflows hrunning
  exact ((hstreams.ends_endIteration hp hdistinct hrunning ht hfeed body).of_ok hwaiting).1 rfl

end Nested.Streams

/-- The last state is there from the start of the outer loop, and nothing runs once it is left. -/
theorem Nested.Phase.frames_eq_nil {p : Phase} (h : p.Fits .done)
    (hover : ∀ f ∈ p.frames, f.id ≠ outerId) : p.frames = [] := by
  cases p <;> simp_all [Fits, frames]

/-! ## What a driver sees of it -/

namespace Session

/-- Nothing of the instance was lost: every unused state is in a variable or on its way in a
sequence, and no sequence lost its consumer before the end of its loop. -/
structure Whole (s : Session) (i : InstanceId) (x : Instance) : Prop where
  states : ∀ g : GuardId, x.guards.isConsumed g = false →
    (∃ name t, s.vars.get? name = some (.state ⟨i, t⟩) ∧ t.guard = g) ∨
      ∃ t, Queued x.sequences t ∧ t.guard = g
  sequences : ∀ q, (x.handOff q).abandoned = true → (x.handOff q).closed = true

/-- A variable holds the state, which is unused and feeds the sequence. -/
structure Carries (s : Session) (i : InstanceId) (x : Instance) (q : SequenceId) (t : Token) :
    Prop where
  held : ∃ name, s.vars.get? name = some (.state ⟨i, t⟩)
  unused : t.isConsumed x = false
  feed : t.feed = some q

end Session

/-- The three situations of a sequence that was opened. -/
inductive Situation where
  /-- A body is in the slot. -/
  | buffered
  /-- The driver holds the one state on which the next body depends. -/
  | awaited
  /-- The loop was left. -/
  | finished

/-- The situation is that of the sequence. In the second one the state stands where the iteration
that the events tell of has come to. -/
def Situation.Holds (s : Session) (i : InstanceId) (x : Instance) (q : SequenceId) :
    Situation → Prop
  | buffered => ∃ body, (x.handOff q).queue = [body]
  | awaited => (x.handOff q).queue = [] ∧ (x.handOff q).isClosed = false ∧
    ∃ t, s.Carries i x q t ∧ (∀ t', s.Carries i x q t' → t' = t) ∧
      ∃ (p : Phase) (place : Place), x.events.toList = p.log ∧ p.Fits place ∧
        t.site = .nested .iterator place ∧ feeds place = some q.loop
  | finished => q ∉ x.entered ∧ (x.handOff q).queue = [] ∧ (x.handOff q).closed = true ∧
    ∀ moves dest, ((SessionM.take i q dest).run (s.after moves)).1 = .ended

/-- How the sequences of an instance stand to a driver: it never has to wait when it ends an
iteration, and, as long as the instance runs and nothing is lost, each of its sequences is in one
situation, and the end of a sequence unlocks what comes after the loop. The inner loop may have been
entered many times; the end of a sequence tells about its latest run only, for which no sequence was
opened later. -/
structure Session.Drains (s : Session) (i : InstanceId) (x : Instance)
    (Opened : SequenceId → Prop) : Prop where
  free : ∀ m t q body, s.attempt? m = some (⟨i, t⟩, .endIteration t q body) →
    ((Iterator.endIteration t q body).on x).1 ≠ .ok .waiting ∧
      (((Iterator.endIteration t q body).on x).1 = .ok .delivered → (x.handOff q).queue = [])
  entered : x.aborted = false → x.stack.frames.map (·.id) = x.entered.map (·.loop)
  situation : x.aborted = false → s.Whole i x → ∀ q, Opened q →
    ∃! situation : Situation, situation.Holds s i x q
  unlocks : x.aborted = false → s.Whole i x → ∀ q dest, Opened q →
    (q.loop = innerId → q.index + 1 = x.sequences.size) →
    ((SessionM.take i q dest).run s).1 = .ended →
    let s' := ((SessionM.take i q dest).run s).2
    x.stack.contains q.loop = false ∧
    (q.loop = outerId → ∀ (source : Source) (t : Token),
      s.vars.get? source.name = some (.state ⟨i, t⟩) → t.isConsumed x = false →
      t.site = .nested .iterator .done → s'.reply (.act (.finish source)) = .done) ∧
    (q.loop = innerId → ∀ (source : Source) (t : Token) (dest' : String),
      s.vars.get? source.name = some (.state ⟨i, t⟩) → t.isConsumed x = false →
      t.site = .nested .iterator .afterInner →
      s'.reply (.act (.send source "bar" dest')) = .state (.nested .iterator .outerEnd))

/-- No sequence is in two situations. -/
theorem Situation.eq_of_holds {s : Session} {i : InstanceId} {x : Instance} {q : SequenceId}
    {k k' : Situation} (h : k.Holds s i x q) (h' : k'.Holds s i x q) : k = k' := by
  cases k <;> cases k' <;> simp_all [Holds, HandOff.isClosed]

namespace Session

variable {s : Session} {i : InstanceId} {x : Instance} {d : Dealing} {q : SequenceId} {t : Token}
  {p : Phase} {active : List SequenceId}

theorem Whole.held (h : s.Whole i x) (hcov : d.Covers s) (hdistinct : Distinct (d.givenBy i) x)
    (ht : t ∈ d.givenBy i) (hunused : t.isConsumed x = false) (hnot : ¬Queued x.sequences t) :
    ∃ name, s.vars.get? name = some (.state ⟨i, t⟩) := by
  rcases h.states t.guard hunused with ⟨name, t', hget, hguard⟩ | ⟨t', hqueued, hguard⟩
  · have hmem : t' ∈ d.givenBy i := Dealing.mem_givenBy.2 (hcov.mem hget)
    obtain rfl := hdistinct.eq_of_guard_eq (.inl hmem) (.inl ht) hguard
    exact ⟨name, hget⟩
  · obtain rfl := hdistinct.eq_of_guard_eq (.inr hqueued) (.inl ht) hguard
    exact absurd hqueued hnot

theorem Carries.feeds (h : s.Carries i x q t) : s.vars.feeds i q = true := by
  obtain ⟨name, hget⟩ := h.held
  obtain ⟨l₁, l₂, hvars, -⟩ := List.lookup_eq_some_iff.1 hget
  rw [Variables.feeds, List.any_eq_true]
  exact ⟨(name, .state ⟨i, t⟩), by rw [hvars]; simp, by simp [h.feed]⟩

/-- **Every sequence that was opened is in one situation**, as long as nothing is lost. -/
theorem exists_situation (hcov : d.Covers s) (hx : s.world.instance? i = some x)
    (hdistinct : Distinct (d.givenBy i) x) (hp : InPhase (d.givenBy i) p x)
    (hstreams : Streams (d.givenBy i) active x) (hrun : x.aborted = false) (hwhole : s.Whole i x)
    (hlt : q.index < x.sequences.size)
    (hnumbered : q.loop = if q.index = 0 then outerId else innerId) :
    ∃ k : Situation, k.Holds s i x q := by
  by_cases hq : q ∈ active
  · have hopen : (x.handOff q).closed = false :=
      (hstreams.closed q hlt).2 (List.mem_map_of_mem hq)
    have hconsumer : (x.handOff q).abandoned = false := by
      cases hab : (x.handOff q).abandoned with
      | false => rfl
      | true => simp [hwhole.sequences q hab] at hopen
    obtain hbody | ⟨hempty, t, ht, hunused, hfeed⟩ := hstreams.filled_or_fed hq hconsumer
    · exact ⟨.buffered, hbody⟩
    have hnot : ¬Queued x.sequences t := by
      intro hqueued
      obtain ⟨q', hmem⟩ := Instance.queued_iff.1 hqueued
      have hindex := (hstreams.queued q' t hmem).2.2.2
      rw [hfeed] at hindex
      rw [← Instance.handOff_congr (Option.some.inj hindex), hempty] at hmem
      cases hmem
    obtain ⟨place, hat⟩ := hp.placed t (.inl ht)
    have hfits := hp.fits t place (.inl ht) hat (InPhase.usable_of_running hrun hunused)
    have hplace := hat.feed
    rw [hfeed] at hplace
    have hheld := hwhole.held hcov hdistinct ht hunused hnot
    refine ⟨.awaited, hempty, ?_, t, ⟨hheld, hunused, hfeed⟩, fun t' ht' => ?_,
      p, place, hp.log, hfits, hat.site, hplace.symm⟩
    · rw [HandOff.isClosed, hopen, hconsumer]
      rfl
    · obtain ⟨name, hget⟩ := ht'.held
      have hmem : t' ∈ d.givenBy i := Dealing.mem_givenBy.2 (hcov.mem hget)
      refine hp.one hdistinct hrun (.inl ht) hunused (.inl hmem) ht'.unused ?_ ?_
      · rw [ht'.feed, hfeed]
      · rw [ht'.feed]
        exact Option.some_ne_none q
  · obtain ⟨hclosed, hempty⟩ := hstreams.finished hlt hnumbered hq
    refine ⟨.finished, by rwa [hstreams.entered_eq], hempty, hclosed, ?_⟩
    exact take_drained hx hlt (by rw [HandOff.isClosed, hclosed]; rfl) hempty

/-- The last state ends the protocol when no loop runs. -/
theorem reply_finish (hx : s.world.instance? i = some x) (hrun : x.aborted = false)
    (hframes : x.stack.frames = []) {source : Source} {closes : Option LoopId}
    (hget : s.vars.get? source.name = some (.state ⟨i, t⟩)) (hunused : t.isConsumed x = false)
    (hend : t.site.end? = some (.protocol closes)) :
    s.reply (.act (.finish source)) = .done := by
  obtain ⟨grant, hgrant⟩ := Call.succeeds (c := .finish t closes) rfl hunused hrun fun _ =>
    Call.free_finish hframes
  have hok : (s.world.on i ((fun _ => Grant.nothing) <$> t.finish closes)).1 = .ok grant := by
    rw [World.on_eq hx]
    exact hgrant
  obtain ⟨v, hv⟩ := World.on_map_eq_ok hok
  rw [reply, move_finish hget hend, hv]

/-- A message is sent when the loop that has to be over is. -/
theorem reply_send (hx : s.world.instance? i = some x) (hrun : x.aborted = false)
    {source : Source} {point : SendPoint}
    (hover : ∀ id, point.closes = some id → x.stack.contains id = false)
    (hget : s.vars.get? source.name = some (.state ⟨i, t⟩)) (hunused : t.isConsumed x = false)
    (hpoint : t.site.send? = some point) (dest : String) :
    s.reply (.act (.send source point.label dest)) = .state point.next := by
  obtain ⟨grant, hgrant⟩ := Call.succeeds (c := .send t point) rfl hunused hrun fun _ =>
    Call.free_send hover
  have hok : (s.world.on i (Grant.state <$> t.sendAt point)).1 = .ok grant := by
    rw [World.on_eq hx]
    exact hgrant
  obtain ⟨next, hnext⟩ := World.on_map_eq_ok hok
  have hsite : (t.sendAt point).Ends x (fun next _ => next.site = point.next) fun _ _ => True := by
    unfold Token.sendAt
    cases point.closes <;> exact Act.ends_last fun _ _ => Act.ends_issue rfl
  let labelled (site : Site) : Option SendPoint := site.send?.filter (·.label = point.label)
  have hlabel : labelled t.site = some point := by simp [labelled, hpoint]
  have hmove : (SessionM.move (.act (.send source point.label dest))).run s = _ :=
    SessionM.run_withSource (p := labelled) hget hlabel
  have hreply := SessionM.reply_onGive (s := s.moveOut source) (by rw [world_moveOut, hnext]) dest
  rw [World.on_eq hx] at hnext
  rw [← hsite.of_ok hnext, ← hreply]
  exact congrArg Prod.fst hmove

/-- A take finds the end of a sequence only when the loop was left. -/
theorem over_of_ended {k : Situation} (hk : k.Holds s i x q) (hx : s.world.instance? i = some x)
    {dest : String} (hended : ((SessionM.take i q dest).run s).1 = .ended) : k = .finished := by
  cases k with
  | finished => rfl
  | buffered =>
    obtain ⟨body, hqueue⟩ := hk
    rw [SessionM.run_take_cons hx hqueue] at hended
    cases hended
  | awaited =>
    obtain ⟨hempty, hopen, t, ht, -⟩ := hk
    rw [SessionM.run_take_nil hx hempty, hopen, ht.feeds] at hended
    cases hended

end Session

namespace NestedRun

variable {i : InstanceId} {moves : List Move} {recorders : Nat}
  {instances : List (BoundTable × Option RecorderId)} {p : BoundTable × Option RecorderId}
  {q : SequenceId} {x : Instance}

/-- The first sequence of the instance is that of the outer loop, and all others are those of inner
loops. -/
theorem numbered (h : NestedRun .iterator i (.start recorders instances) moves)
    (hi : instances[i.index]? = some p)
    (hx : ((Session.start recorders instances).after moves).world.instance? i = some x)
    (hrun : x.aborted = false) (hopened : (Session.start recorders instances).Opened moves i q) :
    q.index < x.sequences.size ∧ q.loop = if q.index = 0 then outerId else innerId := by
  obtain ⟨before, m, later, rfl, hopens⟩ := hopened
  obtain ⟨d, n, hcov, hd⟩ := h.start.draining hi
  obtain ⟨x₁, y, shape, t, hx₁, hattempt, hunused, hy, hopen⟩ := Session.exists_of_opened? hopens
  rw [Session.after_append] at hx
  obtain ⟨z, hz, hflowed⟩ := Session.flowed_of_attempt hattempt hy later
  obtain rfl := Option.some.inj (hx.symm.trans hz)
  have hsize : y.sequences.size = x₁.sequences.size + 1 := by
    rcases hopen.sequences with h | h <;> simp [h]
  refine ⟨?_, ?_⟩
  · have hle := hflowed.size
    rw [hopen.id]
    show x₁.sequences.size < _
    omega
  · have hx₁' : d.world.instance? i = some x₁ := by rw [hcov.world, hx₁]
    obtain ⟨x', hx', p', -, hp⟩ := hd.follows.conforms
    obtain rfl := Option.some.inj (hx₁'.symm.trans hx')
    have hrun₁ : x₁.aborted = false := by
      obtain ⟨z, hz, hgrown⟩ := Session.related_after .refl .trans Call.grown hx₁ (m :: later)
      obtain rfl := Option.some.inj (hx.symm.trans hz)
      cases ha : x₁.aborted with
      | false => rfl
      | true => simp [hgrown.aborted ha] at hrun
    obtain ⟨active, hstreams⟩ := hd.flows x₁ hx₁' hrun₁
    obtain ⟨ht, hloop⟩ := Session.legal_attempt hcov hattempt
    obtain ⟨-, hid, -⟩ := hstreams.at_head hp hrun₁ ht hunused hloop
    rw [hopen.id]
    exact hid

/-- **Draining never stalls, and unlocks the continuation.** A driver runs the nested protocol once
on the iterator surface, with any aliases and bounds and in any order. -/
theorem drains_in_any_order (h : NestedRun .iterator i (.start recorders instances) moves)
    (hi : instances[i.index]? = some p) :
    let s := (Session.start recorders instances).after moves
    ∃ x, s.world.instance? i = some x ∧
      s.Drains i x ((Session.start recorders instances).Opened moves i) := by
  intro s
  obtain ⟨d, n, hcov, hd⟩ := h.draining hi
  obtain ⟨x, hx, p', -, hp⟩ := hd.follows.conforms
  have hx' : s.world.instance? i = some x := by rw [← hcov.world, hx]
  have hdistinct := hd.issued.distinct i x hx
  refine ⟨x, hx', fun m t q body hattempt => ?_, fun hrun => ?_, fun hrun hwhole q hopened => ?_,
    fun hrun hwhole q dest hopened hlatest hended => ?_⟩
  · obtain ⟨ht, -, hfeed⟩ := Session.legal_attempt hcov hattempt
    exact Streams.free_end (hd.flows x hx) hp hdistinct ht hfeed body
  · obtain ⟨active, hstreams⟩ := hd.flows x hx hrun
    rw [hstreams.entered_eq, hstreams.stack]
  · obtain ⟨active, hstreams⟩ := hd.flows x hx hrun
    obtain ⟨hlt, hnumbered⟩ := h.numbered hi hx' hrun hopened
    obtain ⟨k, hk⟩ :=
      Session.exists_situation hcov hx' hdistinct hp hstreams hrun hwhole hlt hnumbered
    exact ⟨k, hk, fun k' hk' => Situation.eq_of_holds hk' hk⟩
  · obtain ⟨active, hstreams⟩ := hd.flows x hx hrun
    obtain ⟨hlt, hnumbered⟩ := h.numbered hi hx' hrun hopened
    obtain ⟨k, hk⟩ :=
      Session.exists_situation hcov hx' hdistinct hp hstreams hrun hwhole hlt hnumbered
    obtain rfl := Session.over_of_ended hk hx' hended
    obtain ⟨hleft, hempty, -, -⟩ := hk
    rw [hstreams.entered_eq] at hleft
    have hnone := hstreams.contains_eq_false hnumbered hleft hlatest
    let s' : Session := { s with world := (s.world.on i (Iterator.take? q)).2 }
    have hs' : ((SessionM.take i q dest).run s).2 = s' := by rw [SessionM.run_take_nil hx' hempty]
    have hsame : s'.world.instance? i = some x := by
      rw [World.instance?_on_self hx', SessionM.on_take?_nil hempty]
    rw [hs']
    refine ⟨hnone, fun houter source t hget hunused hsite => ?_,
      fun hinner source t dest' hget hunused hsite => ?_⟩
    · have ht : t ∈ d.givenBy i := Dealing.mem_givenBy.2 (hcov.mem hget)
      obtain ⟨place, hat⟩ := hp.placed t (.inl ht)
      obtain rfl : place = .done := by simpa [hsite] using hat.site.symm
      have hfits := hp.fits t .done (.inl ht) hat (InPhase.usable_of_running hrun hunused)
      have hframes : x.stack.frames = [] := by
        rw [hp.frames hrun]
        refine Phase.frames_eq_nil hfits ?_
        rwa [← hp.frames hrun, ← FrameStack.contains_eq_false_iff, ← houter]
      have hend : t.site.end? = some (.protocol (some outerId)) := by rw [hsite]; rfl
      exact Session.reply_finish hsame hrun hframes hget hunused hend
    · have hpoint : t.site.send? = some (bar .iterator) := by rw [hsite]; rfl
      have hover : ∀ id, (bar .iterator).closes = some id → x.stack.contains id = false := by
        rintro id hid
        obtain rfl : innerId = id := Option.some.inj hid
        rwa [← hinner]
      exact Session.reply_send hsame hrun hover hget hunused hpoint dest'

/-- The inner loop has had its only iteration, and a state of it is aliased. -/
theorem drains_after_inner :
    let instances : List (BoundTable × Option RecorderId) := [(BoundTable.ofList [("k", 1)], none)]
    let moves : List Move :=
      [.act (.issue (Nested.start .iterator) ⟨0⟩ "outer"),
        .act (.enter ⟨"outer", false⟩ none "bodies" "done"), .act (.take "bodies" "inner"),
        .act (.enter ⟨"inner", false⟩ none "items" "after"), .act (.take "items" "item"),
        .act (.alias "item" "copy"), .act (.send ⟨"item", false⟩ "foo" "end"),
        .act (.finish ⟨"end", false⟩)]
    let s := (Session.start 0 instances).after moves
    NestedRun .iterator ⟨0⟩ (.start 0 instances) moves ∧
    ∃ x, s.world.instance? ⟨0⟩ = some x ∧ x.aborted = false ∧ s.Whole ⟨0⟩ x ∧
      ((SessionM.take ⟨0⟩ ⟨1, innerId⟩ "item").run s).1 = .ended ∧
      ((SessionM.take ⟨0⟩ ⟨1, innerId⟩ "item").run s).2.reply
        (.act (.send ⟨"after", false⟩ "bar" "end")) = .state (.nested .iterator .outerEnd) := by
  intro instances moves s
  have hmoves : NestedRun .iterator ⟨0⟩ (.start 0 instances) moves :=
    .of_forall (by decide +kernel) (by decide)
  obtain ⟨x, hx, hdrains⟩ := drains_in_any_order hmoves (p := (_, none)) rfl
  have hany : (s.world.instance? ⟨0⟩).any (fun x => !x.aborted &&
      x.guards.spent == #[true, true, false, true, false, true] &&
      x.sequences == #[⟨[], false, false⟩, ⟨[], true, false⟩]) = true := by decide +kernel
  obtain ⟨x', hx', hfacts⟩ := (Option.any_eq_true _ _).1 hany
  obtain rfl := Option.some.inj (hx.symm.trans hx')
  simp only [Bool.and_eq_true, Bool.not_eq_true', beq_iff_eq] at hfacts
  obtain ⟨⟨hrun, hspent⟩, hsequences⟩ := hfacts
  let after : Token := ⟨⟨4⟩, .nested .iterator .afterInner, some ⟨0, outerId⟩⟩
  have hafter : s.vars.get? "after" = some (.state ⟨⟨0⟩, after⟩) := by decide +kernel
  have hdone : s.vars.get? "done" = some (.state ⟨⟨0⟩, ⟨⟨2⟩, .nested .iterator .done, none⟩⟩) := by
    decide +kernel
  have hwhole : s.Whole ⟨0⟩ x := by
    refine ⟨fun g hg => .inl ?_, fun q hq => ?_⟩
    · obtain ⟨k⟩ := g
      rw [Guards.isConsumed, hspent] at hg
      obtain rfl | rfl | hk : k = 2 ∨ k = 4 ∨ (k ≠ 2 ∧ k ≠ 4) := by omega
      · exact ⟨"done", _, hdone, rfl⟩
      · exact ⟨"after", after, hafter, rfl⟩
      · rcases k with _ | _ | _ | _ | _ | _ | k <;> simp at hg hk
    · obtain ⟨k, id⟩ := q
      rw [Instance.handOff, hsequences] at hq ⊢
      rcases k with _ | _ | k
      · simp at hq
      · simp at hq
      · simp [HandOff.gone]
  have hopened : (Session.start 0 instances).Opened moves ⟨0⟩ ⟨1, innerId⟩ :=
    ⟨moves.take 3, .act (.enter ⟨"inner", false⟩ none "items" "after"), moves.drop 4, rfl,
      by decide +kernel⟩
  have hended : ((SessionM.take ⟨0⟩ ⟨1, innerId⟩ "item").run s).1 = .ended := by decide +kernel
  have hunused : after.isConsumed x = false := by
    rw [Token.isConsumed, Guards.isConsumed, hspent]
    rfl
  obtain ⟨-, -, hbar⟩ :=
    hdrains.unlocks hrun hwhole _ "item" hopened (fun _ => by rw [hsequences]; rfl) hended
  exact ⟨hmoves, x, hx, hrun, hwhole, hended,
    hbar rfl ⟨"after", false⟩ after "end" hafter hunused rfl⟩

end NestedRun

end LoopProtocol
