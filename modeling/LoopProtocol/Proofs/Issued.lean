import LoopProtocol.Proofs.InPhase
import LoopProtocol.Proofs.Recording

/-!
# Where states come from

Every state that a driver holds, or can take from a sequence, was issued by an instance that
exists: its guard is one of that instance's, for good, and no other state has it. So a state that
was used once stays used, whatever handles there are to it, and a callback loop that waits for its
body is one of an instance that exists.
-/

namespace LoopProtocol

open Act
open Nested (Known)

/-- Every state that was given, or is on its way to the driver, was issued, and states with one
guard are one state. -/
def Distinct (given : List Token) (x : Instance) : Prop :=
  ∃ issued : Nat → Token, ∀ t, Known given x t →
    t.guard.index < x.guards.spent.size ∧ issued t.guard.index = t

namespace Distinct

variable {given given' : List Token} {x y : Instance}

theorem eq_of_guard_eq (h : Distinct given x) {t t' : Token} (ht : Known given x t)
    (ht' : Known given x t') (hguard : t.guard = t'.guard) : t = t' := by
  obtain ⟨issued, hissued⟩ := h
  rw [← (hissued t ht).2, ← (hissued t' ht').2, hguard]

theorem index_lt (h : Distinct given x) {t : Token} (ht : Known given x t) :
    t.guard.index < x.guards.spent.size := by
  obtain ⟨issued, hissued⟩ := h
  exact (hissued t ht).1

theorem of_known (h : Distinct given x) (hknown : ∀ t, Known given' y t → Known given x t)
    (hguards : x.guards.Le y.guards) : Distinct given' y := by
  obtain ⟨issued, hissued⟩ := h
  refine ⟨issued, fun t ht => ?_⟩
  obtain ⟨hlt, heq⟩ := hissued t (hknown t ht)
  exact ⟨Nat.lt_of_lt_of_le hlt hguards.size, heq⟩

/-- One more state is issued. -/
theorem add (h : Distinct given x) {t : Token} (ht : t.guard = x.guards.next)
    (hknown : ∀ t', Known given' y t' → Known given x t' ∨ t' = t)
    (hguards : y.guards = x.guards.issue) : Distinct given' y := by
  obtain ⟨issued, hissued⟩ := h
  have hsize : x.guards.spent.size < y.guards.spent.size := by
    rw [hguards]
    exact Guards.index_next_lt x.guards
  refine ⟨fun k => if k = x.guards.spent.size then t else issued k, fun t' ht' => ?_⟩
  rcases hknown t' ht' with hold | rfl
  · obtain ⟨hlt, heq⟩ := hissued t' hold
    exact ⟨Nat.lt_trans hlt hsize, (if_neg (Nat.ne_of_lt hlt)).trans heq⟩
  · have hindex : t'.guard.index = x.guards.spent.size := by rw [ht, Guards.next]
    exact ⟨by rwa [hindex], if_pos hindex⟩

theorem fail (h : Distinct given x) (e : Fault) : Distinct given (x.fail e) := by
  refine h.of_known (fun t ht => ?_) (by rw [Instance.guards_fail]; exact .refl _)
  simpa [Known] using ht

theorem setHandOff (h : Distinct given x) {s : SequenceId} {p : HandOff Token}
    (hsub : p.queue ⊆ (x.handOff s).queue) : Distinct given (x.setHandOff s p) :=
  h.of_known (fun _ ht => ht.imp_right (Queued.of_setHandOff hsub)) (.refl _)

/-- **What a call does to the states that were given.** A body is issued before it is handed
over. -/
theorem invariant (given : List Token) :
    Invariant (Distinct given) fun _ => Distinct given where
  fail h := h.fail
  failAhead h := h.fail
  consume t _ x h := ends_consume h.fail fun _ =>
    h.of_known (fun _ ht => ht) (x.guards.le_spend t.guard)
  issue _ _ x h := ends_issue (h.of_known (fun _ ht => ht) x.guards.le_issue)
  setParam _ _ _ h := ends_setParam h
  accept _ _ h := ends_accept h
  ensureClosed _ _ h := ends_ensureClosed h.fail fun _ _ => h
  terminate _ h := ends_terminate h.fail fun _ _ => h
  activate _ _ h := ends_activate h.fail (fun _ _ _ _ _ => h) fun _ _ _ _ => h
  complete _ h := ends_complete h.fail fun _ _ _ _ _ => h
  iteration h _ := ends_iteration h
  exitAhead _ h _ := ends_exit h.fail fun _ _ _ _ _ _ => h
  exit _ _ h := ends_exit h.fail fun _ _ _ _ _ _ => h
  openAhead _ h := ends_openSequence
    (h.of_known (fun _ ht => ht.imp_right Queued.of_push) (.refl _))
  deliver {_ x} s body h _ := by
    refine Ends.bind (ends_iteration (Ends.bind (ends_issue ?_)))
    refine ends_handOver (fun e => Distinct.fail ?_ e) fun _ _ _ => ?_
    · exact h.of_known (fun _ ht => ht) x.guards.le_issue
    · refine h.add (t := ⟨x.guards.next, body, some s⟩) rfl (fun t ht => ?_) rfl
      rcases ht with ht | hq
      · exact .inl (.inl ht)
      · rcases Queued.of_set hq with hq | hq
        · rcases List.mem_append.1 hq with hq | hq
          · exact .inl (.inr (queued_handOff hq))
          · exact .inr (List.mem_singleton.1 hq)
        · exact .inl (.inr hq)
  close s x h := ends_closeSequence (h.setHandOff (List.Subset.refl _))
  take s x h := by
    refine ends_take? (fun _ => h) (fun t hq => ?_) fun t u rest hq => ?_
    · exact h.setHandOff (List.nil_subset _)
    · exact h.setHandOff (by rw [hq]; exact List.subset_cons_self t _)
  abandon s x h := by
    have hleft : Distinct given (x.setHandOff s (x.handOff s).abandon) :=
      h.setHandOff (List.nil_subset _)
    exact ends_abandon hleft hleft.fail

/-! ## What calls give -/

/-- A state is issued and given. -/
theorem ends_issue (h : Distinct given x) (site : Site) (feed : Option SequenceId) :
    (Act.issue site feed).Ends x (fun t => Distinct (given ++ [t])) fun _ => Distinct given := by
  refine Act.ends_issue (h.add (t := ⟨x.guards.next, site, feed⟩) rfl (fun t ht => ?_) rfl)
  rcases ht with ht | hq
  · rcases List.mem_append.1 ht with ht | ht
    · exact .inl (.inl ht)
    · exact .inr (List.mem_singleton.1 ht)
  · exact .inl (.inr hq)

theorem ends_sendAt (h : Distinct given x) (t : Token) (point : SendPoint) :
    (t.sendAt point).Ends x (fun next => Distinct (given ++ [next])) fun _ => Distinct given := by
  have huse : ∀ u : Use, (u.act t).Keeps (Distinct given) := fun u =>
    ((invariant given).use t u).keeps ((invariant given).consume t trivial)
  unfold Token.sendAt
  cases point.closes with
  | none =>
    exact (huse (.send point.label) x h).andThen fun _ _ hy => hy.ends_issue point.next t.feed
  | some id =>
    exact (huse (.sendAfter id point.label) x h).andThen fun _ _ hy =>
      hy.ends_issue point.next t.feed

theorem ends_turn (h : Distinct given x) (shape : LoopShape) (f : Frame) :
    (Callback.turn shape f).Ends x
      (fun turn => Distinct (given ++ (Grant.ofTurn turn).tokens)) fun _ => Distinct given := by
  unfold Callback.turn
  cases hf : f.canEnter
  · refine ((invariant given).exit shape.head.id x h).andThen fun _ _ hy => ?_
    exact (hy.ends_issue shape.after none).andThen fun _ _ hz => ends_pure hz
  · refine ((invariant given).iteration h hf).andThen fun _ _ hy => ?_
    exact (hy.ends_issue shape.body none).andThen fun _ _ hz => ends_pure hz

theorem ends_enter (h : Distinct given x) (shape : LoopShape) (head : Token) :
    (Polling.enter shape head).Ends x (fun body => Distinct (given ++ [body]))
      fun _ => Distinct given := by
  refine ((invariant given).consume head trivial x h).andThen fun _ _ hy => ?_
  refine ((invariant given).activate shape.head trivial hy).andThen fun f _ hz => ?_
  cases hf : f.canEnter
  · exact ends_abort (hz.fail _)
  · exact ((invariant given).iteration hz hf).andThen fun _ _ hw => hw.ends_issue shape.body none

theorem ends_iterate (h : Distinct given x) (shape : LoopShape) (head : Token) :
    (Iterator.enter shape head).Ends x (fun p => Distinct (given ++ [p.2]))
      fun _ => Distinct given := by
  refine ((invariant given).consume head trivial x h).andThen fun _ _ hy => ?_
  refine ((invariant given).activate shape.head trivial hy).andThen fun f _ hz => ?_
  refine ((invariant given).openAhead (f := f) shape.head.id hz).andThen fun s _ hw => ?_
  refine ((invariant given).iteratorTurn (f := f) hw s shape.body).andThen fun _ _ hv => ?_
  exact (hv.ends_issue shape.after head.feed).andThen fun _ _ hu => ends_pure hu

/-- **The states that a call gives are new, or were on their way.** -/
theorem ends_call (h : Distinct given x) (c : Call) :
    c.act.Ends x (fun grant => Distinct (given ++ grant.tokens)) fun _ => Distinct given := by
  have hnothing : ∀ {α : Type} (a : Act α), a.Keeps (Distinct given) →
      ((fun _ => Grant.nothing) <$> a).Ends x
        (fun grant => Distinct (given ++ grant.tokens)) fun _ => Distinct given := by
    intro α a ha
    refine Ends.map ((ha x h).mono (fun _ _ hy => ?_) fun _ _ hy => hy)
    simpa [Grant.tokens] using hy
  have hinvariant := invariant given
  cases c with
  | issue site => exact Ends.map (h.ends_issue site none)
  | fork t => exact Ends.map (h.ends_issue .item t.feed)
  | setParam name bound => exact hnothing _ (hinvariant.setParam name bound)
  | use t u => exact hnothing _ ((hinvariant.use t u).keeps (hinvariant.consume t trivial))
  | send t point => exact Ends.map (h.ends_sendAt t point)
  | finish t closes =>
    exact hnothing _ ((hinvariant.finish t closes).keeps (hinvariant.consume t trivial))
  | enter shape head => exact Ends.map (h.ends_enter shape head)
  | exit shape head =>
    refine Ends.map ((hinvariant.consume head trivial x h).andThen fun _ _ hy => ?_)
    exact (hinvariant.exit shape.head.id _ hy).andThen fun _ _ hz => hz.ends_issue shape.after none
  | iterate shape head => exact Ends.map (h.ends_iterate shape head)
  | endIteration tail s nextBody =>
    exact hnothing _
      ((hinvariant.endIteration tail s nextBody).keeps (hinvariant.consume tail trivial))
  | take s =>
    have htaken : ∀ {t rest}, (x.handOff s).queue = t :: rest →
        Distinct (given ++ [t]) (x.setHandOff s { x.handOff s with queue := rest }) := by
      intro t rest hq
      refine h.of_known (fun t' ht' => ?_) (.refl _)
      rcases ht' with ht' | hq'
      · rcases List.mem_append.1 ht' with ht' | ht'
        · exact .inl ht'
        · obtain rfl := List.mem_singleton.1 ht'
          exact .inr (queued_handOff (by rw [hq]; exact List.mem_cons_self))
      · refine .inr (hq'.of_setHandOff ?_)
        rw [hq]
        exact List.subset_cons_self t rest
    refine Ends.map (Act.ends_take? (fun _ => ?_) (fun t hq => ?_) fun t u rest hq => ?_)
    · simpa [Grant.tokens] using h
    · exact htaken hq
    · exact htaken hq
  | abandon s => exact hnothing _ (hinvariant.abandon s)
  | begin shape head =>
    refine Ends.map ((hinvariant.consume head trivial x h).andThen fun _ _ hy => ?_)
    exact (hinvariant.activate shape.head trivial hy).andThen fun f _ hz =>
      hz.ends_turn shape f
  | giveBack t => exact hnothing _ (hinvariant.consume t trivial)
  | advance shape j =>
    exact Ends.map ((hinvariant.complete shape.head.id h).andThen fun f _ hy =>
      hy.ends_turn shape f)
  | fail fault => exact hnothing _ (hinvariant.abort fault)

end Distinct

/-! ## Along the deeds of a session -/

namespace Dealing

/-- Whatever the driver was given comes from an instance that exists and issued it. -/
structure Issued (d : Dealing) : Prop where
  given : ∀ h ∈ d.given, ∃ x, d.world.instance? h.owner = some x
  begun : ∀ p ∈ d.begun, ∃ x, d.world.instance? p.1 = some x
  distinct : ∀ i x, d.world.instance? i = some x → Distinct (d.givenBy i) x
  /-- An instance knows its position. -/
  id : ∀ i x, d.world.instance? i = some x → x.id = i

variable {d d' : Dealing} {es : List Deed}

theorem Issued.index_lt (hd : d.Issued) {h : Handle} (hmem : h ∈ d.given) {x : Instance}
    (hx : d.world.instance? h.owner = some x) : h.token.guard.index < x.guards.spent.size :=
  (hd.distinct h.owner x hx).index_lt (.inl (mem_givenBy.2 hmem))

/-- Handles with one guard are handles of one state. -/
theorem Issued.eq_of_guard_eq (hd : d.Issued) {h h' : Handle} (hmem : h ∈ d.given)
    (hmem' : h' ∈ d.given) (howner : h.owner = h'.owner) (hguard : h.token.guard = h'.token.guard) :
    h = h' := by
  obtain ⟨i, t⟩ := h
  obtain ⟨i', t'⟩ := h'
  obtain rfl : i = i' := howner
  obtain ⟨x, hx⟩ := hd.given ⟨i, t⟩ hmem
  have hsame := (hd.distinct i x hx).eq_of_guard_eq (.inl (mem_givenBy.2 hmem))
    (.inl (mem_givenBy.2 hmem')) hguard
  rw [hsame]

theorem Issued.perform (h : d.Issued) {e : Deed} (hlegal : d.Legal e) : (d.perform e).Issued := by
  match e with
  | .clear r => exact ⟨h.given, h.begun, h.distinct, h.id⟩
  | .call i c =>
    have hold : ∀ j, (∃ x, d.world.instance? j = some x) →
        ∃ y, (d.perform (.call i c)).world.instance? j = some y := by
      rintro j ⟨x, hx⟩
      exact World.exists_on hx i c.act
    refine ⟨fun g hg => ?_, fun p hp => ?_, fun j y hy => ?_, fun j y hy => ?_⟩
    · rcases List.mem_append.1 hg with hg | hg
      · exact hold g.owner (h.given g hg)
      · obtain ⟨t, ht, rfl⟩ := List.mem_map.1 hg
        cases hx : d.world.instance? i with
        | none => simp [gains, World.on_of_none hx] at ht
        | some x => exact hold i ⟨x, hx⟩
    · rcases List.mem_append.1 hp with hp | hp
      · exact hold p.1 (h.begun p hp)
      · obtain ⟨shape, hshape, rfl⟩ := List.mem_map.1 hp
        cases c with
        | begin _ t => exact hold i (h.given ⟨i, t⟩ (mem_givenBy.1 hlegal.1.1))
        | _ => cases hshape
    · by_cases hj : i = j
      · subst hj
        obtain ⟨x, hx⟩ : ∃ x, d.world.instance? i = some x := by
          rcases World.instance?_on hy with ⟨-, x, hx, -⟩ | ⟨hne, -⟩
          · exact ⟨x, hx⟩
          · exact absurd rfl hne
        obtain rfl := Option.some.inj ((World.instance?_on_self hx c.act).symm.trans hy)
        rw [givenBy_perform_self hx]
        exact ((h.distinct i x hx).ends_call c).gains
      · rw [(perform_of_ne (d := d) hj c).1]
        exact h.distinct j y ((World.instance?_on_of_ne (Ne.symm hj) c.act).symm.trans hy)
    · rcases World.instance?_on hy with ⟨-, x, hx, rfl⟩ | ⟨-, hx⟩
      · rw [(c.grown x).id, h.id j x hx]
      · exact h.id j y hx

theorem Runs.issued (h : d.Runs es d') (hd : d.Issued) : d'.Issued := by
  induction h with
  | nil => exact hd
  | cons hlegal _ ih => exact ih (hd.perform hlegal)

end Dealing

/-! ## Along the moves of a session -/

namespace Session

/-- Every state in a variable was issued, and every running loop is one of an instance that
exists. -/
structure Issued (s : Session) : Prop where
  vars : ∀ name h, s.vars.get? name = some (.state h) →
    ∃ x, s.world.instance? h.owner = some x ∧ h.token.guard.index < x.guards.spent.size
  running : ∀ loop ∈ s.running, ∃ x, s.world.instance? loop.owner = some x
  id : ∀ i x, s.world.instance? i = some x → x.id = i

variable (recorders : Nat) (instances : List (BoundTable × Option RecorderId)) (moves : List Move)

theorem issued_start : (Dealing.start (start recorders instances).world).Issued := by
  refine ⟨by simp [Dealing.start], by simp [Dealing.start], fun i x hx => ?_, fun i x hx => ?_⟩
  all_goals
    rw [Dealing.start, instance?_start, Option.map_eq_some_iff] at hx
    obtain ⟨p, -, rfl⟩ := hx
  · refine ⟨fun k => ⟨⟨k⟩, .step, none⟩, fun t ht => ?_⟩
    simp [Known, Queued, Dealing.givenBy, Dealing.start, Instance.create] at ht
  · rfl

/-- After any moves all that the driver was ever given was issued. -/
theorem covers_issued :
    ∃ d : Dealing, d.Covers ((start recorders instances).after moves) ∧ d.Issued := by
  obtain ⟨es, d, hr, hcov, -⟩ :=
    Session.after_deeds (Dealing.covers_start recorders instances) moves
  exact ⟨d, hcov, hr.issued (issued_start recorders instances)⟩

/-- **After any moves all that a driver holds was issued.** -/
theorem issued_after : ((start recorders instances).after moves).Issued := by
  obtain ⟨d, hcov, hissued⟩ := covers_issued recorders instances moves
  refine ⟨fun name h hget => ?_, fun loop hloop => ?_, fun i x hx => ?_⟩
  · obtain ⟨x, hx⟩ := hissued.given h (hcov.mem hget)
    refine ⟨x, by rw [← hcov.world, hx], hissued.index_lt (hcov.mem hget) hx⟩
  · rw [← hcov.world]
    exact hissued.begun _ (hcov.running loop hloop).1
  · rw [← hcov.world] at hx
    exact hissued.id i x hx

/-- **Handles with one guard are handles of one state**, at whatever times the driver held them. -/
theorem eq_of_guard_eq {moves' : List Move} {name name' : String} {h h' : Handle}
    (hget : ((start recorders instances).after moves).vars.get? name = some (.state h))
    (hget' : (((start recorders instances).after moves).after moves').vars.get? name' =
      some (.state h'))
    (howner : h'.owner = h.owner) (hguard : h'.token.guard = h.token.guard) : h' = h := by
  obtain ⟨d, hcov, hissued⟩ := covers_issued recorders instances moves
  obtain ⟨es, d', hr, hcov', -⟩ := Session.after_deeds hcov moves'
  have hmem : h ∈ d'.given := hr.extends.given (hcov.mem hget)
  exact (hr.issued hissued).eq_of_guard_eq (hcov'.mem hget') hmem howner hguard

end Session

end LoopProtocol
