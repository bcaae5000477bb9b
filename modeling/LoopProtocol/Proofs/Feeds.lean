import LoopProtocol.Proofs.Ledger

/-!
# Sequences that nothing feeds any more

The end of an iteration feeds the sequence that its state belongs to. A state has its sequence from
the state that it follows, or from the loop whose body it is; in between it may lie in that
sequence. So when no state in a variable feeds a sequence and nothing is in its slot, then no state
will ever feed it, and a take that found its end will find it again.
-/

namespace LoopProtocol

open Act
open Nested (Known)

/-! ## What a call passes on -/

namespace Call

variable {c : Call} {x : Instance} {q : SequenceId} {given : List Token} {begun : List LoopShape}
  {t u : Token}

/-- The sequence that the states feed which a call issues. -/
def passesOn : Call → Option SequenceId
  | fork t | send t _ | iterate _ t => t.feed
  | _ => none

/-- What a call issues feeds the sequence that the call passes on. -/
theorem ends_passesOn (hc : ∀ s, c ≠ .take s) :
    c.act.Ends x (fun grant _ => ∀ u ∈ grant.tokens, u.feed = c.passesOn) fun _ _ => True := by
  have hnothing {α : Type} (a : Act α) :
      ((fun _ => Grant.nothing) <$> a).Ends x (fun grant _ => ∀ u ∈ grant.tokens,
        u.feed = c.passesOn) fun _ _ => True :=
    Ends.map ((ends_any a).mono (fun _ _ _ _ hu => by cases hu) fun _ _ h => h)
  have hissue (site : Site) (y : Instance) : (Act.issue site c.passesOn).Ends y
      (fun t _ => ∀ u ∈ (Grant.state t).tokens, u.feed = c.passesOn) fun _ _ => True :=
    ends_issue fun u hu => by rw [List.mem_singleton.1 hu]
  have hturn (hnone : c.passesOn = none) (shape : LoopShape) (f : Frame) (y : Instance) :
      (Callback.turn shape f).Ends y
        (fun turn _ => ∀ u ∈ (Grant.ofTurn turn).tokens, u.feed = c.passesOn)
        fun _ _ => True := by
    rw [hnone] at hissue ⊢
    unfold Callback.turn
    split
    · exact ends_last fun _ _ => (hissue _ _).andThen fun _ _ hu => ends_pure hu
    · exact ends_last fun _ _ => (hissue _ _).andThen fun _ _ hu => ends_pure hu
  cases c with
  | issue site => exact Ends.map (hissue site x)
  | fork t => exact Ends.map (hissue .item x)
  | send t point =>
    refine Ends.map ?_
    unfold Token.sendAt
    cases point.closes <;> exact ends_last fun _ _ => hissue _ _
  | enter shape t =>
    refine Ends.map (ends_last fun _ _ => ends_last fun f _ => ?_)
    split
    · exact ends_last fun _ _ => hissue _ _
    · exact ends_abort trivial
  | exit shape t => exact Ends.map (ends_last fun _ _ => ends_last fun _ _ => hissue _ _)
  | iterate shape t =>
    refine Ends.map (ends_last fun _ _ => ends_last fun _ _ => ends_last fun _ _ =>
      ends_last fun _ _ => ?_)
    exact (hissue shape.after _).andThen fun _ _ hu => ends_pure hu
  | begin shape t =>
    exact Ends.map (ends_last fun _ _ => ends_last fun f _ => hturn rfl shape f _)
  | advance shape j => exact Ends.map (ends_last fun f _ => hturn rfl shape f _)
  | take s => exact absurd rfl (hc s)
  | setParam name bound | use t u | finish t closes | endIteration t s body | abandon s
  | giveBack t | fail fault => exact hnothing _

/-- A sequence is passed on from a state that was given. -/
theorem exists_of_passesOn (hc : c.Legal given begun) (hq : c.passesOn = some q) :
    ∃ t ∈ given, t.feed = some q := by
  cases c with
  | fork t | send t point | iterate shape t => exact ⟨t, hc.1, hq⟩
  | _ => cases hq

/-- **What a state that is given feeds**, another state fed before, unless it was on its way. -/
theorem feed_of_mem_gains (hc : c.Legal given begun) (hu : u ∈ c.gains x)
    (hfeed : u.feed = some q) : (∃ t ∈ given, t.feed = some q) ∨ Queued x.sequences u := by
  unfold gains at hu
  cases hok : (c.act.on x).1 with
  | error e => simp [hok] at hu
  | ok grant =>
    rw [hok] at hu
    by_cases htake : ∃ s, c = .take s
    · obtain ⟨s, rfl⟩ := htake
      have hends : (Call.take s).act.Ends x
          (fun grant _ => ∀ u ∈ grant.tokens, Queued x.sequences u) fun _ _ => True := by
        have hfirst {t : Token} {rest : List Token} (hqueue : (x.handOff s).queue = t :: rest) :
            ∀ u ∈ (Grant.state t).tokens, Queued x.sequences u := by
          intro u hu
          rw [List.mem_singleton.1 hu]
          exact queued_handOff (by rw [hqueue]; exact List.mem_cons_self)
        refine Ends.map (Act.ends_take? (fun _ u hu => by cases hu) ?_ ?_)
        · exact fun t hqueue => hfirst hqueue
        · exact fun t _ rest hqueue => hfirst hqueue
      exact .inr (hends.of_ok hok u hu)
    · have hne : ∀ s, c ≠ .take s := fun s hs => htake ⟨s, hs⟩
      have hpassed := (ends_passesOn (x := x) hne).of_ok hok u hu
      exact .inl (exists_of_passesOn hc (hpassed.symm.trans hfeed))

/-- **What is put into a sequence feeds it**, as the state did that was used for it. The first body
of a loop feeds the new sequence. -/
theorem queued_on (hc : c.Legal given begun) (ht : t ∈ ((c.act.on x).2.handOff q).queue) :
    t ∈ (x.handOff q).queue ∨ ∃ q' : SequenceId, q'.index = q.index ∧ t.feed = some q' ∧
      ((∃ u ∈ given, u.feed = some q') ∨
        ∃ shape u, c = .iterate shape u ∧ q' = ⟨x.sequences.size, shape.head.id⟩) := by
  by_cases hlt : q.index < x.sequences.size
  · rw [handOff_on hlt] at ht
    cases c with
    | take s =>
      rw [passed] at ht
      split at ht
      · exact .inl (List.mem_of_mem_tail ht)
      · exact .inl ht
    | abandon s =>
      rw [passed] at ht
      split at ht
      · cases ht
      · exact .inl ht
    | endIteration u s body =>
      obtain ⟨hgiven, -, hfeed⟩ := hc
      rw [passed] at ht
      split at ht
      · next hs =>
        rw [← Instance.handOff_congr hs] at ht ⊢
        split at ht
        · next progress _ =>
          cases progress with
          | delivered | waiting =>
            rcases List.mem_append.1 ht with ht | ht
            · exact .inl ht
            · obtain rfl := List.mem_singleton.1 ht
              exact .inr ⟨s, hs, rfl, .inl ⟨u, hgiven, hfeed⟩⟩
          | closed => exact .inl ht
        · exact .inl ht
      · exact .inl ht
    | _ => exact .inl ht
  · have hnone {y : Instance} (hsize : y.sequences.size ≤ q.index) : t ∉ (y.handOff q).queue := by
      rw [Instance.handOff_of_size_le hsize]
      exact List.not_mem_nil
    by_cases hiterate : ∃ shape u, c = .iterate shape u
    · obtain ⟨shape, u, rfl⟩ := hiterate
      have hpush {p : HandOff Token}
          (hy : ((Call.iterate shape u).act.on x).2.sequences = x.sequences.push p) :
          t ∈ p.queue ∧ q.index = x.sequences.size := by
        have hindex : q.index = x.sequences.size := by
          refine Nat.le_antisymm ?_ (Nat.le_of_not_lt hlt)
          have hltnew := Instance.index_lt_of_mem ht
          rw [hy, Array.size_push] at hltnew
          omega
        refine ⟨?_, hindex⟩
        rw [Instance.handOff, hy, hindex] at ht
        simpa [Array.getD_eq_getD_getElem?] using ht
      have hends := Iterator.ends_enter shape u x
      rw [Call.act, Act.on_map] at hpush
      unfold Act.Ends at hends
      split at hends
      · next r y hon =>
        rw [hon] at hpush
        rcases hends.sequences with hy | hy
        · obtain ⟨hmem, hindex⟩ := hpush hy
          obtain rfl := List.mem_singleton.1 hmem
          refine .inr ⟨r.1, by rw [hends.id, hindex], rfl, .inr ⟨shape, u, rfl, hends.id⟩⟩
        · cases (hpush hy).1
      · next e y hon =>
        rw [Call.act, Act.on_map, hon] at ht
        rw [hon] at hpush
        rcases hends with hy | hy
        · exact absurd ht (hnone (by rw [hy]; exact Nat.le_of_not_lt hlt))
        · cases (hpush hy).1
    · have hsize := size_on (c := c) (x := x) fun shape u h => hiterate ⟨shape, u, h⟩
      exact absurd ht (hnone (by rw [hsize]; exact Nat.le_of_not_lt hlt))

end Call

/-! ## Which sequences are fed -/

/-- Whatever lies in a sequence feeds it, and every state that was given or is on its way feeds a
sequence that was opened and has the property. -/
structure FeedsWithin (F : SequenceId → Prop) (given : List Token) (x : Instance) : Prop where
  queued : ∀ q t, t ∈ (x.handOff q).queue → ∃ q' : SequenceId, q'.index = q.index ∧
    t.feed = some q'
  feeds : ∀ t q, Known given x t → t.feed = some q → q.index < x.sequences.size ∧ F q

namespace FeedsWithin

variable {F F' : SequenceId → Prop} {given : List Token} {begun : List LoopShape} {x : Instance}
  {c : Call} {q : SequenceId}

theorem mono (h : FeedsWithin F given x) (hF : ∀ q, q.index < x.sequences.size → F q → F' q) :
    FeedsWithin F' given x := by
  refine ⟨h.queued, fun t q ht hfeed => ?_⟩
  obtain ⟨hlt, hq⟩ := h.feeds t q ht hfeed
  exact ⟨hlt, hF q hlt hq⟩

/-- One call does not feed what no state feeds, but for the sequence that it opens. -/
theorem call (h : FeedsWithin F given x) (hc : c.Legal given begun)
    (hopened : ∀ shape t, c = .iterate shape t → F ⟨x.sequences.size, shape.head.id⟩) :
    FeedsWithin F (given ++ c.gains x) (c.act.on x).2 := by
  have hsize := c.size_le x
  have hold : ∀ t q, Known given x t → t.feed = some q →
      q.index < (c.act.on x).2.sequences.size ∧ F q := fun t q ht hfeed =>
    ⟨Nat.lt_of_lt_of_le (h.feeds t q ht hfeed).1 hsize, (h.feeds t q ht hfeed).2⟩
  refine ⟨fun q t ht => ?_, fun t q ht hfeed => ?_⟩
  · rcases Call.queued_on hc ht with ht | ⟨q', hindex, hfeed, -⟩
    · exact h.queued q t ht
    · exact ⟨q', hindex, hfeed⟩
  · rcases ht with ht | hqueued
    · rcases List.mem_append.1 ht with ht | ht
      · exact hold t q (.inl ht) hfeed
      · rcases Call.feed_of_mem_gains hc ht hfeed with ⟨u, hu, hu'⟩ | hqueued
        · exact hold u q (.inl hu) hu'
        · exact hold t q (.inr hqueued) hfeed
    · obtain ⟨q₀, ht⟩ := Instance.queued_iff.1 hqueued
      rcases Call.queued_on hc ht with ht' | ⟨q', hindex, hfeed', hsource⟩
      · exact hold t q (.inr (queued_handOff ht')) hfeed
      · obtain rfl : q' = q := Option.some.inj (hfeed'.symm.trans hfeed)
        refine ⟨hindex ▸ Instance.index_lt_of_mem ht, ?_⟩
        rcases hsource with ⟨u, hu, hu'⟩ | ⟨shape, u, hiterate, rfl⟩
        · exact (hold u q' (.inl hu) hu').2
        · exact hopened shape u hiterate

/-- Nothing is in a sequence that no state feeds. -/
theorem queue_eq_nil (h : FeedsWithin (fun q' => q'.index ≠ q.index) given x) :
    (x.handOff q).queue = [] := by
  refine List.eq_nil_iff_forall_not_mem.2 fun t ht => ?_
  obtain ⟨q', hindex, hfeed⟩ := h.queued q t ht
  exact (h.feeds t q' (.inr (queued_handOff ht)) hfeed).2 hindex

end FeedsWithin

namespace Dealing

variable {F : SequenceId → Prop} {d d' : Dealing} {i : InstanceId} {es : List Deed}

/-- The states of an instance feed only sequences with the property, which those have as well that
are still to be opened. -/
def FeedsWithin (d : Dealing) (F : SequenceId → Prop) (i : InstanceId) : Prop :=
  ∀ x, d.world.instance? i = some x → LoopProtocol.FeedsWithin F (d.givenBy i) x ∧
    ∀ q : SequenceId, x.sequences.size ≤ q.index → F q

theorem FeedsWithin.perform (h : d.FeedsWithin F i) {e : Deed} (hlegal : d.Legal e) :
    (d.perform e).FeedsWithin F i := by
  intro y hy
  match e with
  | .clear r => exact h y hy
  | .call j c =>
    by_cases hj : j = i
    · subst hj
      obtain ⟨x, hx⟩ : ∃ x, d.world.instance? j = some x := by
        rcases World.instance?_on hy with ⟨-, x, hx, -⟩ | ⟨hne, -⟩
        · exact ⟨x, hx⟩
        · exact absurd rfl hne
      obtain ⟨hfeeds, hfresh⟩ := h x hx
      obtain rfl := Option.some.inj ((World.instance?_on_self hx c.act).symm.trans hy)
      rw [givenBy_perform_self hx]
      exact ⟨hfeeds.call hlegal.1 fun _ _ _ => hfresh _ (Nat.le_refl _),
        fun q hle => hfresh q (Nat.le_trans (c.size_le x) hle)⟩
    · rw [(perform_of_ne (d := d) hj c).1]
      exact h y ((World.instance?_on_of_ne (Ne.symm hj) c.act).symm.trans hy)

theorem Runs.feedsWithin (hr : d.Runs es d') (h : d.FeedsWithin F i) : d'.FeedsWithin F i := by
  induction hr with
  | nil => exact h
  | cons hlegal _ ih => exact ih (h.perform hlegal)

theorem feedsWithin_start (recorders : Nat) (instances : List (BoundTable × Option RecorderId))
    (i : InstanceId) :
    (Dealing.start (Session.start recorders instances).world).FeedsWithin (fun _ => True) i := by
  intro x hx
  rw [Dealing.start, Session.instance?_start, Option.map_eq_some_iff] at hx
  obtain ⟨p, -, rfl⟩ := hx
  refine ⟨⟨fun q t ht => ?_, fun t q ht => ?_⟩, fun _ _ => trivial⟩
  · simp [Instance.handOff, Instance.create, HandOff.gone] at ht
  · simp [Known, Queued, givenBy, Dealing.start, Instance.create] at ht

end Dealing

/-! ## Sequences of a session -/

namespace Session

open SessionM

variable {s : Session} {m : Move} {d : Dealing} {i : InstanceId} {q : SequenceId}

/-- Where a driver stands that forgot all but what is in its variables. -/
def dealing (s : Session) : Dealing where
  world := s.world
  given := s.vars.filterMap fun
    | (_, .state h) => some h
    | (_, .sequence _ _) => none
  begun := s.running.map fun loop => (loop.owner, loop.shape)
  due := none

theorem covers_dealing (hcov : d.Covers s) : s.dealing.Covers s where
  world := rfl
  vars name h hmem := List.mem_filterMap.2 ⟨(name, .state h), hmem, rfl⟩
  running loop hmem :=
    ⟨List.mem_map.2 ⟨loop, hmem, rfl⟩, (hcov.running loop hmem).2⟩

/-- What is in a variable is remembered wherever the driver was given it. -/
theorem givenBy_dealing_subset (hcov : d.Covers s) : s.dealing.givenBy i ⊆ d.givenBy i := by
  intro t ht
  obtain ⟨⟨name, held⟩, hmem, hheld⟩ := List.mem_filterMap.1 (Dealing.mem_givenBy.1 ht)
  cases held with
  | state h =>
    cases hheld
    exact Dealing.mem_givenBy.2 (hcov.vars name _ hmem)
  | sequence owner q => cases hheld

theorem feeds_of_mem_dealing {t : Token} (ht : t ∈ s.dealing.givenBy i) (hfeed : t.feed = some q) :
    s.vars.feeds i q = true := by
  obtain ⟨⟨name, held⟩, hmem, hheld⟩ := List.mem_filterMap.1 (Dealing.mem_givenBy.1 ht)
  cases held with
  | state h =>
    cases hheld
    exact List.any_eq_true.2 ⟨_, hmem, by simp [hfeed]⟩
  | sequence owner q => cases hheld

/-- Only an iteration is entered that way. -/
theorem eq_enter {h : Handle} {shape : LoopShape} {t : Token}
    (hattempt : s.attempt? m = some (h, .iterate shape t)) :
    ∃ source surface dest after, m = .act (.enter source surface dest after) ∧
      s.vars.get? source.name = some (.state h) ∧
      enterable? surface h.token.site = some (.iterator, shape) := by
  obtain ⟨name, hname, hget, hcall⟩ := attempt?_eq_some_iff.1 hattempt
  have hend {point : EndPoint} (hc : h.token.endCall? point = some (.iterate shape t)) : False := by
    cases point with
    | protocol closes => cases hc
    | iteration nextBody =>
      obtain ⟨_, -, hc⟩ := Option.map_eq_some_iff.1 hc
      cases hc
  cases m with
  | returnFault fault => cases hname
  | foreach source dest =>
    obtain ⟨_, -, hc⟩ := Option.map_eq_some_iff.1 hcall
    cases hc
  | returnState name' =>
    obtain ⟨_, -, hc⟩ := Option.bind_eq_some_iff.1 hcall
    split at hc <;> cases hc
  | act action =>
    cases action with
    | use of u => cases hcall
    | enter source surface dest after =>
      cases hname
      obtain ⟨⟨via, shape'⟩, hp, hc⟩ := Option.map_eq_some_iff.1 hcall
      split at hc
      · next hvia =>
        cases hc
        obtain rfl : via = .iterator := hvia
        exact ⟨source, surface, dest, after, rfl, hget, hp⟩
      · cases hc
    | exit source dest | send source label dest =>
      obtain ⟨_, -, hc⟩ := Option.map_eq_some_iff.1 hcall
      cases hc
    | finish source =>
      obtain ⟨_, -, hc⟩ := Option.bind_eq_some_iff.1 hcall
      exact (hend hc).elim
    | finishTaking source sequence dest | finishDropping source sequence =>
      obtain ⟨_, -, hc⟩ := Option.bind_eq_some_iff.1 hcall
      obtain ⟨_, -, hc⟩ := Option.bind_eq_some_iff.1 hc
      exact (hend hc).elim
    | _ => cases hname

/-- The move that opens a sequence enters the loop, and then stores what it was given. -/
theorem opened_deeds (hcov : d.Covers s) (hopened : s.opened? m = some (i, q)) :
    ∃ (shape : LoopShape) (t : Token) (es : List Deed) (d' : Dealing),
      s.attempt? m = some (⟨i, t⟩, .iterate shape t) ∧ d.Legal (.call i (.iterate shape t)) ∧
        (d.perform (.call i (.iterate shape t))).Runs es d' ∧ d'.Covers (s.after [m]) := by
  unfold opened? at hopened
  split at hopened
  · next g shape u hattempt =>
    obtain rfl : u = g.token := Option.some.inj (uses_of_attempt? hattempt)
    cases hr : (s.world.on g.owner (Iterator.enter shape g.token)).1 with
    | error e => simp [hr] at hopened
    | ok p =>
      obtain ⟨q', next⟩ := p
      rw [hr] at hopened
      obtain ⟨rfl, rfl⟩ := Prod.mk.inj (Option.some.inj hopened)
      obtain ⟨source, surface, dest, after, rfl, hget, hp⟩ := eq_enter hattempt
      have hlegal : d.Legal (.call g.owner (.iterate shape g.token)) :=
        legal_of (legal_attempt hcov hattempt) (by simp)
      let s' : Session :=
        ((on g.owner (Iterator.enter shape g.token)).run (s.moveOut source)).2
      have hcov' : (d.perform (.call g.owner (.iterate shape g.token))).Covers s' := by
        refine covers_call rfl ?_
        unfold moveOut
        split
        · exact hcov
        · exact hcov.erase source.name
      have hmem : ⟨g.owner, next⟩ ∈
          (d.perform (.call g.owner (.iterate shape g.token))).given := by
        refine mem_given_perform (a := Iterator.enter shape g.token) (v := (q', next)) rfl ?_
          (List.mem_singleton.2 rfl)
        rw [hcov.world]
        exact hr
      have hrun : (move (.act (.enter source surface dest after))).run s =
          (do
            store dest (.sequence g.owner q')
            store after (.state ⟨g.owner, next⟩)
            pure (Reply.entered q'.loop next.site)).run s' := by
        have hr' : ((s.moveOut source).world.on g.owner (Iterator.enter shape g.token)).1 =
            .ok (q', next) := by rw [world_moveOut, hr]
        refine (run_withSource hget hp).trans ?_
        simp only [enter]
        rw [run_on, hr']
        rfl
      obtain ⟨es, d', hruns, -, hcov'', -⟩ := serves_entered (q := q') hcov' hmem dest after
      refine ⟨shape, g.token, es, d', hattempt, hlegal, hruns, ?_⟩
      show d'.Covers ((move _).run s).2
      rw [hrun]
      exact hcov''
  · cases hopened

/-- A sequence that was just opened is the only one of its number that a state feeds. -/
theorem feedsWithin_of_opened? (hcov : d.Covers s) (hd : d.FeedsWithin (fun _ => True) i)
    (hopened : s.opened? m = some (i, q)) :
    ∃ d' : Dealing, d'.Covers (s.after [m]) ∧
      d'.FeedsWithin (fun q' => q'.index = q.index → q' = q) i := by
  obtain ⟨shape, t, es, d', hattempt, hlegal, hruns, hcov'⟩ := opened_deeds hcov hopened
  obtain ⟨x, y, shape', t', hx, hattempt', -, hy, hnew⟩ := exists_of_opened? hopened
  rw [hattempt] at hattempt'
  cases hattempt'
  refine ⟨d', hcov', hruns.feedsWithin fun z hz => ?_⟩
  rw [← hcov.world] at hx hy
  obtain rfl := Option.some.inj (hz.symm.trans hy)
  have hindex : q.index = x.sequences.size := congrArg SequenceId.index hnew.id
  have hsize : z.sequences.size = x.sequences.size + 1 := by
    rcases hnew.sequences with h | h <;> simp [h]
  refine ⟨?_, fun q' hle hq' => absurd hle (by omega)⟩
  have hold : LoopProtocol.FeedsWithin (fun q' => q'.index = q.index → q' = q) (d.givenBy i) x :=
    (hd x hx).1.mono fun q' hlt _ hq' => absurd hlt (by omega)
  obtain rfl := Option.some.inj ((World.instance?_on_self hx _).symm.trans hz)
  rw [Dealing.givenBy_perform_self hx]
  refine hold.call hlegal.1 fun shape' t' hc _ => ?_
  cases hc
  exact hnew.id.symm

/-! ## Takes that find the end -/

/-- No state feeds the sequence, neither one in a variable nor one on its way. -/
def Starved (s : Session) (i : InstanceId) (q : SequenceId) : Prop :=
  ∃ d : Dealing, d.Covers s ∧ d.FeedsWithin (fun q' => q'.index ≠ q.index) i

/-- Nothing is in the sequence, and no variable holds a state that feeds it. -/
theorem starved_of_unfed {x : Instance} (hcov : d.Covers s)
    (hd : d.FeedsWithin (fun q' => q'.index = q.index → q' = q) i)
    (hx : s.world.instance? i = some x) (hlt : q.index < x.sequences.size)
    (hqueue : (x.handOff q).queue = []) (hunfed : s.vars.feeds i q = false) : s.Starved i q := by
  refine ⟨s.dealing, covers_dealing hcov, fun y hy => ?_⟩
  obtain rfl := Option.some.inj (hx.symm.trans hy)
  obtain ⟨hfeeds, -⟩ := hd x (by rw [hcov.world, hx])
  refine ⟨⟨hfeeds.queued, fun t q' ht hfeed => ?_⟩, fun q' hle hq' => by omega⟩
  have hknown : Known (d.givenBy i) x t := ht.imp_left fun hmem => givenBy_dealing_subset hcov hmem
  obtain ⟨hlt', hname⟩ := hfeeds.feeds t q' hknown hfeed
  refine ⟨hlt', fun hindex => ?_⟩
  rcases ht with ht | hqueued
  · obtain rfl := hname hindex
    simp [feeds_of_mem_dealing ht hfeed] at hunfed
  · obtain ⟨q₀, hmem⟩ := Instance.queued_iff.1 hqueued
    obtain ⟨q₁, hindex₁, hfeed₁⟩ := hfeeds.queued q₀ t hmem
    obtain rfl : q' = q₁ := Option.some.inj (hfeed.symm.trans hfeed₁)
    rw [Instance.handOff_congr (hindex₁.symm.trans hindex), hqueue] at hmem
    cases hmem

theorem Starved.after (h : s.Starved i q) (moves : List Move) : (s.after moves).Starved i q := by
  obtain ⟨d, hcov, hd⟩ := h
  obtain ⟨es, d', hruns, hcov', -⟩ := after_deeds hcov moves
  exact ⟨d', hcov', hruns.feedsWithin hd⟩

theorem Starved.feeds_eq_false (h : s.Starved i q) {x : Instance}
    (hx : s.world.instance? i = some x) : s.vars.feeds i q = false := by
  obtain ⟨d, hcov, hd⟩ := h
  obtain ⟨hfeeds, -⟩ := hd x (by rw [hcov.world, hx])
  refine Bool.eq_false_iff.2 fun hfed => ?_
  obtain ⟨⟨name, held⟩, hmem, hheld⟩ := List.any_eq_true.1 hfed
  cases held with
  | state g =>
    obtain ⟨rfl, hfeed⟩ := by simpa using hheld
    have hgiven := Dealing.mem_givenBy.2 (hcov.vars name g hmem)
    exact (hfeeds.feeds g.token q (.inl hgiven) hfeed).2 rfl
  | sequence owner q' => cases hheld

/-- Nothing is put into a sequence that no state feeds. -/
theorem Starved.queue_eq_nil (h : s.Starved i q) {y : Instance}
    (hy : (s.attempted m).instance? i = some y) : (y.handOff q).queue = [] := by
  obtain ⟨d, hcov, hd⟩ := h
  unfold attempted at hy
  cases hattempt : s.attempt? m with
  | none =>
    rw [hattempt, ← hcov.world] at hy
    exact (hd y hy).1.queue_eq_nil
  | some p =>
    obtain ⟨g, c⟩ := p
    have hlegal : d.Legal (.call g.owner c) := by
      refine legal_of (legal_attempt hcov hattempt) ?_
      rintro shape j rfl
      cases uses_of_attempt? hattempt
    rw [hattempt] at hy
    refine (hd.perform hlegal y ?_).1.queue_eq_nil
    show (d.world.on g.owner c.act).2.instance? i = some y
    rw [hcov.world]
    exact hy

variable {x : Instance}

/-- A take from a sequence that no state feeds finds its end. -/
theorem Starved.found (h : s.Starved i q) (hx : s.world.instance? i = some x)
    (htakes : s.takesFrom? m = some (i, q)) : (s.reply m).found? = some .ended := by
  obtain ⟨y, hy, -⟩ := flowed_attempted hx m
  obtain ⟨hy', hfound⟩ := found_of_nil htakes hy (h.queue_eq_nil hy)
  rw [hfound, (h.after [m]).feeds_eq_false hy', Bool.not_false, Bool.or_true]
  rfl

/-- A take from a sequence that is closed and empty finds its end. -/
theorem found_of_drained (hx : s.world.instance? i = some x) (hlt : q.index < x.sequences.size)
    (hclosed : (x.handOff q).isClosed = true) (hqueue : (x.handOff q).queue = [])
    (htakes : s.takesFrom? m = some (i, q)) : (s.reply m).found? = some .ended := by
  obtain ⟨y, hy, hflowed⟩ := flowed_attempted hx m
  obtain ⟨-, hfound⟩ := found_of_nil htakes hy (hflowed.drained q hlt hclosed hqueue)
  rw [hfound, hflowed.isClosed hlt hclosed]
  rfl

/-- **What has ended stays ended.** -/
theorem ended_of_ended (hcov : d.Covers s)
    (hd : d.FeedsWithin (fun q' => q'.index = q.index → q' = q) i)
    (hx : s.world.instance? i = some x) (hlt : q.index < x.sequences.size)
    (htakes : s.takesFrom? m = some (i, q)) (hended : (s.reply m).found? = some .ended)
    (later : List Move) {m' : Move}
    (htakes' : ((s.after [m]).after later).takesFrom? m' = some (i, q)) :
    (((s.after [m]).after later).reply m').found? = some .ended := by
  obtain ⟨y, hy, hflowed⟩ := flowed_attempted hx m
  have hlt' : q.index < y.sequences.size := Nat.lt_of_lt_of_le hlt hflowed.size
  cases hqueue : (y.handOff q).queue with
  | cons t rest =>
    rw [(found_of_cons htakes hy hqueue).1] at hended
    cases hended
  | nil =>
    obtain ⟨hy', hfound⟩ := found_of_nil htakes hy hqueue
    obtain ⟨z, hz, hflowed'⟩ := flowed_after hy' later
    cases hclosed : (y.handOff q).isClosed with
    | true =>
      exact found_of_drained hz (Nat.lt_of_lt_of_le hlt' hflowed'.size)
        (hflowed'.isClosed hlt' hclosed) (hflowed'.drained q hlt' hclosed hqueue) htakes'
    | false =>
      have hunfed : (s.after [m]).vars.feeds i q = false := by
        cases hfed : (s.after [m]).vars.feeds i q with
        | false => rfl
        | true =>
          rw [hfound, hclosed, hfed] at hended
          cases hended
      obtain ⟨es, d', hruns, hcov', -⟩ := after_deeds hcov [m]
      have hstarved := starved_of_unfed hcov' (hruns.feedsWithin hd) hy' hlt' hqueue hunfed
      exact (hstarved.after later).found hz htakes'

end Session

end LoopProtocol
