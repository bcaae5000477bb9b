import LoopProtocol.Proofs.Streams

/-!
# Calls and sequences

Each call of the iterator surface that leaves its instance running leaves the sequences, the stack
and the unused states together as they were. In particular no end of an iteration waits.
-/

namespace LoopProtocol.Nested

open Act

variable {given given' : List Token} {active active' : List SequenceId} {p : Phase}
  {x y : Instance} {t : Token} {q : SequenceId} {place : Place}

/-- As long as the instance runs, its sequences go together with its stack and its states. -/
def Flows (given : List Token) (x : Instance) : Prop :=
  x.aborted = false → ∃ active, Streams given active x

namespace Streams

theorem flows (h : Streams given active x) : Flows given x := fun _ => ⟨active, h⟩

/-- No loop was entered yet. -/
theorem of_empty (hevents : x.events = #[]) (hstack : x.stack.frames = [])
    (hsequences : x.sequences = #[]) (hfeed : ∀ t ∈ given, t.isConsumed x = false → t.feed = none) :
    Streams given [] x := by
  have hqueue : ∀ q, (x.handOff q).queue = [] := fun q => by
    simp [Instance.handOff, hsequences, HandOff.gone]
  refine ⟨⟨?_, ?_, List.nodup_nil, ?_, ?_, ?_, fun q hlt => ?_⟩, ⟨fun q t ht => ?_,
    fun t q ht hunused hq => ?_, ?_⟩⟩
  · rw [hevents, hsequences]
    rfl
  · rw [hstack]
    rfl
  · simp
  · simp
  · simp
  · rw [hsequences] at hlt
    cases hlt
  · rw [hqueue] at ht
    cases ht
  · rcases ht with ht | hqueued
    · rw [hfeed t ht hunused] at hq
      cases hq
    · obtain ⟨q', hq'⟩ := Instance.queued_iff.1 hqueued
      rw [hqueue] at hq'
      cases hq'
  · simp

/-! ## States that are given in place of others -/

section Use

variable (h : Streams given active x) (hp : InPhase given p x) (hdistinct : Distinct given x)
  (hrun : x.aborted = false) (ht : t ∈ given) (hunused : t.isConsumed x = false)

include h hp hdistinct hrun ht hunused

/-- A message was sent, and the next state feeds the sequence that its own state fed. -/
theorem replace {label : String} {site : Site} (hsequences : y.sequences = x.sequences)
    (hstack : y.stack = x.stack) (hevents : y.events = x.events.push (.sent label))
    (hguards : y.guards = (x.guards.spend t.guard).issue) :
    Streams (given ++ [⟨(x.guards.spend t.guard).next, site, t.feed⟩]) active y := by
  let next : Token := ⟨(x.guards.spend t.guard).next, site, t.feed⟩
  have hsame := Instance.handOff_of_sequences hsequences
  refine ⟨h.toLoops.report (fun _ => rfl) hsequences hstack hevents, ?_⟩
  refine h.toFed.step [next] (n := 1) hp hdistinct hrun ht hunused hguards
    (fun u => ?_) (fun u hu => by simpa using hu) (fun u hu => ?_) (fun q hq _ => hq)
    (fun q hq => ?_) (fun q _ hab => by rw [hsame, hab]) fun q => .inl (by rw [hsame])
  · simp only [Known, hsequences, List.mem_append]
    exact or_right_comm
  · obtain rfl := List.mem_singleton.1 hu
    refine ⟨?_, ?_, fun q hq => h.feeds t q (.inl ht) hunused hq⟩
    · simp [next, Guards.next]
    · rw [Token.isConsumed, hguards]
      exact Guards.isConsumed_issue_next _
  · by_cases hfeed : some q = t.feed
    · exact .inl ⟨next, List.mem_cons_self, hfeed.symm⟩
    · exact .inr ⟨hfeed, hq⟩

/-- The protocol ended. -/
theorem finish (hfeed : t.feed = none) (hsequences : y.sequences = x.sequences)
    (hstack : y.stack = x.stack) (hevents : y.events = x.events.push .terminated)
    (hguards : y.guards = x.guards.spend t.guard) : Streams given active y := by
  have hsame := Instance.handOff_of_sequences hsequences
  refine ⟨h.toLoops.report (fun _ => rfl) hsequences hstack hevents, ?_⟩
  refine h.toFed.step [] (n := 0) hp hdistinct hrun ht hunused hguards
    (fun u => ?_) (fun u hu => .inl hu) (fun u hu => by cases hu) (fun q hq _ => hq)
    (fun q hq => .inr ⟨?_, hq⟩) (fun q _ hab => by rw [hsame, hab]) fun q => .inl (by rw [hsame])
  · simp [Known, hsequences]
  · rw [hfeed]
    exact Option.some_ne_none q

/-! ## Loops that are entered -/

omit hdistinct in
/-- What the head of a loop finds that can be entered. -/
theorem at_head {shape : LoopShape} (hloop : t.site.loop? .iterator = some shape) :
    x.stack.contains shape.head.id = false ∧
      shape.head.id = (if x.sequences.size = 0 then outerId else innerId) ∧
      ∀ q ∈ active, q.loop ≠ innerId := by
  obtain ⟨place, hat⟩ := hp.placed t (.inl ht)
  have husable : Usable x place t := InPhase.usable_of_running hrun hunused
  have hfits := hp.fits t place (.inl ht) hat husable
  have hframes := hp.frames hrun
  rw [FrameStack.contains_eq_false_iff, hframes]
  rw [hat.site] at hloop
  cases place <;> cases hloop
  · -- nothing was reported before the outer loop
    cases p <;> simp only [Phase.Fits] at hfits
    have htold := h.told
    rw [hp.log] at htold
    obtain ⟨hsize, rfl⟩ := Prod.mk.inj htold
    refine ⟨by simp [Phase.frames], ?_, by simp⟩
    rw [← hsize]
    rfl
  · -- the outer loop alone runs before the inner one
    cases p <;> simp only [Phase.Fits] at hfits
    case outerBody b c i =>
      have hloops : active.map (·.loop) = [outerId] := by
        rw [← h.stack, hframes]
        rfl
      have houter : ∀ q ∈ active, q.loop = outerId := fun q hq => by
        have hmem := List.mem_map_of_mem (f := SequenceId.loop) hq
        rw [hloops] at hmem
        exact List.mem_singleton.1 hmem
      refine ⟨by simp [Phase.frames, inner, outerId, innerId], ?_, fun q hq => ?_⟩
      · rw [if_neg]
        · rfl
        · intro hzero
          have hne : active ≠ [] := by
            rintro rfl
            cases hloops
          obtain ⟨q, hq⟩ := List.exists_mem_of_ne_nil active hne
          have hlt := h.bounded q hq
          omega
      · rw [houter q hq]
        decide

/-- A loop is entered. Its first body is in the slot of its sequence, and the state after the loop
feeds the sequence that the head fed. -/
theorem enter (body after : Token) {shape : LoopShape} {b : UInt64} {f : Frame}
    (hid : shape.head.id = if x.sequences.size = 0 then outerId else innerId)
    (hother : ∀ q ∈ active, q.loop ≠ innerId) (hf : f.id = shape.head.id)
    (hevents : y.events =
      (x.events.push (.activated shape.head.id b)).push (.iteration shape.head.id f.current))
    (hstack : y.stack.frames = f :: x.stack.frames)
    (hsequences : y.sequences =
      (x.sequences.push .fresh).setIfInBounds x.sequences.size ⟨[body], false, false⟩)
    (hguards : y.guards = (x.guards.spend t.guard).issue.issue)
    (hbody : body.guard = (x.guards.spend t.guard).next ∧
      body.feed = some ⟨x.sequences.size, shape.head.id⟩)
    (hafter : after.guard = (x.guards.spend t.guard).issue.next ∧ after.feed = t.feed) :
    Streams (given ++ [after]) (⟨x.sequences.size, shape.head.id⟩ :: active) y := by
  have hpassage : ∀ q, y.handOff q =
      if q.index = x.sequences.size then ⟨[body], false, false⟩ else x.handOff q := fun q =>
    Instance.handOff_push hsequences
  have hsize : y.sequences.size = x.sequences.size + 1 := by simp [hsequences]
  have hne : ∀ q ∈ active, q.index ≠ x.sequences.size := fun q hq =>
    Nat.ne_of_lt (h.bounded q hq)
  have hqueued := Instance.queued_filled (x := x) (y := y) (n := x.sequences.size) (t := body)
    (fun q => by rw [hpassage]; split <;> rfl)
    (fun q hq => by rw [Instance.handOff_of_size_le (Nat.le_of_eq hq.symm)]; rfl)
  have hnew : body.isConsumed y = false ∧ after.isConsumed y = false := by
    constructor
    · rw [Token.isConsumed, hguards, hbody.1, Guards.isConsumed_issue_of_ne,
        Guards.isConsumed_issue_next]
      simp [Guards.next, Guards.issue]
    · rw [Token.isConsumed, hguards, hafter.1, Guards.isConsumed_issue_next]
  refine ⟨h.toLoops.enter hid hother hf hevents hstack hsize fun q => ?_, ?_⟩
  · rw [hpassage]
    split <;> rfl
  refine h.toFed.step [body, after] (n := 2) hp hdistinct hrun ht hunused hguards
    (fun u => ?_) (fun u hu => ?_) (fun u hu => ?_) (fun q hq _ => List.mem_cons_of_mem _ hq)
    (fun q hq => ?_) (fun q hq hab => ?_) fun q => ?_
  · simp only [Known, hqueued, List.mem_append, List.mem_cons, List.not_mem_nil, or_false]
    grind
  · rcases List.mem_append.1 hu with hu | hu
    · exact .inl hu
    · obtain rfl := List.mem_singleton.1 hu
      exact .inr (by simp)
  · rcases List.mem_cons.1 hu with rfl | hu
    · refine ⟨?_, hnew.1, fun q hq => ?_⟩
      · simp [hbody.1, Guards.next]
      · rw [hbody.2] at hq
        obtain rfl := Option.some.inj hq
        exact List.mem_cons_self
    · obtain rfl := List.mem_singleton.1 hu
      refine ⟨?_, hnew.2, fun q hq => ?_⟩
      · simp [hafter.1, Guards.next, Guards.issue]
      · rw [hafter.2] at hq
        exact List.mem_cons_of_mem _ (h.feeds t q (.inl ht) hunused hq)
  · rcases List.mem_cons.1 hq with rfl | hq
    · exact .inl ⟨body, List.mem_cons_self, hbody.2⟩
    · by_cases hfeed : some q = t.feed
      · exact .inl ⟨after, by simp, hafter.2.trans hfeed.symm⟩
      · exact .inr ⟨hfeed, hq⟩
  · rwa [hpassage, if_neg (hne q hq)]
  · rw [hpassage]
    by_cases hq : q.index = x.sequences.size
    · refine .inr ⟨body, List.mem_cons_self, by rw [if_pos hq], fun hmem => ?_, ?_⟩
      · -- the body has the next guard, and the state after the loop the one after it
        rcases List.mem_append.1 hmem with hmem | hmem
        · have hlt := hp.issued body (.inl hmem)
          simp [hbody.1, Guards.next] at hlt
        · have hsame := congrArg Token.guard (List.mem_singleton.1 hmem)
          rw [hbody.1, hafter.1] at hsame
          simp [Guards.next, Guards.issue] at hsame
      · rw [hbody.2, Option.map_some, hq]
    · exact .inl (by rw [if_neg hq])

/-! ## Iterations that end -/

/-- The next body is in the slot. -/
theorem deliver (body : Token) (hfeed : t.feed = some q)
    (hopen : q.index < x.sequences.size)
    (hevents : Event.loops y.events.toList = Event.loops x.events.toList)
    (hstack : y.stack.frames.map (·.id) = x.stack.frames.map (·.id))
    (hsequences : y.sequences =
      (x.setHandOff q { x.handOff q with queue := [body] }).sequences)
    (hguards : y.guards = (x.guards.spend t.guard).issue)
    (hbody : body.guard = (x.guards.spend t.guard).next ∧ body.feed = some q) :
    Streams given active y := by
  have hempty := h.queue_eq_nil hp hdistinct hrun ht hunused hfeed
  have hpassage := Instance.handOff_of_set hsequences hopen
  have hqueued := Instance.queued_filled (x := x) (y := y) (n := q.index) (t := body)
    (fun q' => by rw [hpassage]; simp only [eq_comm]; split <;> rfl)
    (fun q' hq => by rw [Instance.handOff_congr hq, hempty])
  have hsize : y.sequences.size = x.sequences.size := by simp [hsequences, Instance.setHandOff]
  refine ⟨h.toLoops.stay hevents hstack hsize
    (Instance.apply_handOff_of_set (·.closed) hsequences hopen rfl), ?_⟩
  refine h.toFed.step [body] (n := 1) hp hdistinct hrun ht hunused hguards
    (fun u => ?_) (fun u hu => .inl hu) (fun u hu => ?_) (fun q hq _ => hq)
    (fun q' hq' => ?_) (fun q' hq' hab => ?_) fun q' => ?_
  · simp only [Known, hqueued, List.mem_singleton]
    exact or_assoc.symm
  · obtain rfl := List.mem_singleton.1 hu
    refine ⟨?_, ?_, fun q' hq' => ?_⟩
    · simp [hbody.1, Guards.next]
    · rw [Token.isConsumed, hguards, hbody.1]
      exact Guards.isConsumed_issue_next _
    · exact h.feeds t q' (.inl ht) hunused (by rw [hfeed, ← hbody.2, hq'])
  · by_cases hq : some q' = t.feed
    · exact .inl ⟨body, List.mem_cons_self, by rw [hbody.2, hq, hfeed]⟩
    · exact .inr ⟨hq, hq'⟩
  · exact (Instance.apply_handOff_of_set (·.abandoned) hsequences hopen rfl q').trans hab
  · rw [hpassage]
    by_cases hq : q.index = q'.index
    · refine .inr ⟨body, List.mem_cons_self, by rw [if_pos hq], fun hmem => ?_, ?_⟩
      · have hlt := hp.issued body (.inl hmem)
        simp [hbody.1, Guards.next] at hlt
      · rw [hbody.2, Option.map_some, hq]
    · exact .inl (by rw [if_neg hq])

/-- The loop was left, and its sequence closed. -/
theorem close {top : Frame} {below : List Frame} (hfeed : t.feed = some q)
    (hopen : q.index < x.sequences.size) (htop : x.stack.frames = top :: below)
    (hid : top.id = q.loop) (hevents : y.events = x.events.push (.exited q.loop))
    (hstack : y.stack.frames = below)
    (hsequences : y.sequences = (x.setHandOff q (x.handOff q).close).sequences)
    (hguards : y.guards = x.guards.spend t.guard) : Streams given active.tail y := by
  have hq := h.feeds t q (.inl ht) hunused hfeed
  have hpassage := Instance.handOff_of_set hsequences hopen
  have hqueue := Instance.apply_handOff_of_set (·.queue) hsequences hopen rfl
  have hsize : y.sequences.size = x.sequences.size := by simp [hsequences, Instance.setHandOff]
  -- the loop on top of the stack is the one whose iteration ended
  obtain ⟨rest, rfl⟩ : ∃ rest, active = q :: rest := by
    cases active with
    | nil => cases hq
    | cons first rest =>
      have hloops := h.stack
      rw [htop, List.map_cons, List.map_cons, List.cons_eq_cons] at hloops
      have hfirst := h.eq_of_loop List.mem_cons_self hq (hloops.1.symm.trans hid)
      exact ⟨rest, by rw [hfirst]⟩
  refine ⟨h.toLoops.leave hevents (by rw [hstack, htop]; rfl) hsize fun q' => ?_, ?_⟩
  · rw [hpassage]
    split <;> rfl
  have hnodup := h.nodup
  rw [List.map_cons, List.nodup_cons] at hnodup
  refine h.toFed.step [] (n := 0) hp hdistinct hrun ht hunused hguards
    (fun u => ?_) (fun u hu => .inl hu) (fun u hu => by cases hu) (fun q' hq' hne => ?_)
    (fun q' hq' => .inr ⟨?_, List.mem_cons_of_mem _ hq'⟩) (fun q' hq' hab => ?_)
    fun q' => .inl (hqueue q')
  · simp only [Known, Instance.queued_iff, hqueue, List.not_mem_nil, or_false]
  · rcases List.mem_cons.1 hq' with rfl | hq'
    · exact absurd hfeed.symm hne
    · exact hq'
  · rw [hfeed]
    intro hsame
    obtain rfl := Option.some.inj hsame
    exact hnodup.1 (List.mem_map_of_mem hq')
  · exact (Instance.apply_handOff_of_set (·.abandoned) hsequences hopen rfl q').trans hab

end Use

/-! ## The consumer's side -/

/-- The body in the slot was taken. -/
theorem take {rest : List Token} (h : Streams given active x)
    (hqueue : (x.handOff q).queue = t :: rest) (hevents : y.events = x.events)
    (hstack : y.stack = x.stack) (hguards : y.guards = x.guards)
    (hsequences : y.sequences =
      (x.setHandOff q { x.handOff q with queue := rest }).sequences) :
    Streams (given ++ [t]) active y := by
  have hmem : t ∈ (x.handOff q).queue := by
    rw [hqueue]
    exact List.mem_cons_self
  obtain ⟨hslot, hunused, -, hindex⟩ := h.queued q t hmem
  obtain rfl : rest = [] := by
    rw [hqueue] at hslot
    exact (List.cons_eq_cons.1 hslot).2
  have hopen := Instance.index_lt_of_mem hmem
  have hpassage := Instance.handOff_of_set hsequences hopen
  have hconsumed : ∀ u : Token, u.isConsumed y = u.isConsumed x := fun u => by
    rw [Token.isConsumed, hguards, Token.isConsumed]
  have hknown : ∀ u, Known (given ++ [t]) y u ↔ Known given x u := by
    intro u
    simp only [Known, Instance.queued_iff, hpassage, List.mem_append, List.mem_singleton]
    constructor
    · rintro ((hu | rfl) | ⟨q', hu⟩)
      · exact .inl hu
      · exact .inr ⟨q, hmem⟩
      · by_cases hq : q.index = q'.index
        · rw [if_pos hq] at hu
          cases hu
        · rw [if_neg hq] at hu
          exact .inr ⟨q', hu⟩
    · rintro (hu | ⟨q', hu⟩)
      · exact .inl (.inl hu)
      · by_cases hq : q.index = q'.index
        · rw [← Instance.handOff_congr hq, hqueue] at hu
          exact .inl (.inr (List.mem_singleton.1 hu))
        · exact .inr ⟨q', by rwa [if_neg hq]⟩
  have hclosed := Instance.apply_handOff_of_set (·.closed) hsequences hopen rfl
  have hsize : y.sequences.size = x.sequences.size := by simp [hsequences, Instance.setHandOff]
  refine ⟨h.toLoops.stay (by rw [hevents]) (by rw [hstack]) hsize hclosed,
    fun q' u hu => ?_, fun u q' hu hunused' hfeed => ?_, fun q' hq' => ?_⟩
  · rw [hpassage] at hu ⊢
    by_cases hq : q.index = q'.index
    · rw [if_pos hq] at hu
      cases hu
    · rw [if_neg hq] at hu ⊢
      obtain ⟨hslot', hunused', hnot, hindex'⟩ := h.queued q' u hu
      refine ⟨hslot', by rw [hconsumed, hunused'], fun hgiven => ?_, hindex'⟩
      rcases List.mem_append.1 hgiven with hgiven | hgiven
      · exact hnot hgiven
      · -- the body that was taken fed another sequence
        obtain rfl := List.mem_singleton.1 hgiven
        rw [hindex] at hindex'
        exact hq (Option.some.inj hindex')
  · exact h.feeds u q' ((hknown u).1 hu) (by rw [← hconsumed, hunused']) hfeed
  · rcases h.fed q' hq' with hab | ⟨u, hu, hunused', hfeed⟩
    · exact .inl ((Instance.apply_handOff_of_set (·.abandoned) hsequences hopen rfl q').trans hab)
    · exact .inr ⟨u, (hknown u).2 hu, by rw [hconsumed, hunused'], hfeed⟩

theorem ends_take? (h : Streams given active x) (q : SequenceId) :
    (Iterator.take? q).Ends x (fun taken => Flows (given ++ taken.toList))
      fun _ y => y.aborted = true := by
  refine Act.ends_take? (fun _ => ?_) (fun t hqueue => ?_) fun t u rest hqueue => ?_
  · simpa using h.flows
  · refine (h.take hqueue ?_ ?_ ?_ ?_).flows <;> rfl
  · refine (h.take hqueue ?_ ?_ ?_ ?_).flows <;> rfl

/-- The consumer has left. The state in the slot, if any, is lost. -/
theorem abandon (h : Streams given active x) (q : SequenceId) :
    Streams given active (x.setHandOff q (x.handOff q).abandon) := by
  by_cases hlt : q.index < x.sequences.size
  · have hpassage := Instance.handOff_of_set (y := x.setHandOff q (x.handOff q).abandon) rfl hlt
    refine ⟨h.toLoops.stay rfl rfl (by simp [Instance.setHandOff])
        (Instance.apply_handOff_of_set (·.closed) rfl hlt rfl),
      fun q' u hu => ?_, fun u q' hu hunused' hfeed => ?_, fun q' hq' => ?_⟩
    · rw [hpassage q'] at hu ⊢
      by_cases hq : q.index = q'.index
      · rw [if_pos hq] at hu
        cases hu
      · rw [if_neg hq] at hu ⊢
        exact h.queued q' u hu
    · exact h.feeds u q' (hu.imp_right (Queued.of_setHandOff (List.nil_subset _))) hunused' hfeed
    · rw [hpassage q']
      by_cases hq : q.index = q'.index
      · rw [if_pos hq]
        exact .inl rfl
      · rw [if_neg hq]
        refine (h.fed q' hq').imp_right ?_
        rintro ⟨u, hu, hunused', hfeed⟩
        refine ⟨u, hu.imp_right fun hqueued => ?_, hunused', hfeed⟩
        -- a state in a slot feeds the sequence of the slot
        obtain ⟨k, hk⟩ := Instance.queued_iff.1 hqueued
        have hindex := (h.queued k u hk).2.2.2
        rw [hfeed, Option.map_some] at hindex
        refine Instance.queued_iff.2 ⟨k, ?_⟩
        rw [hpassage k, if_neg]
        · exact hk
        · rw [← Option.some.inj hindex]
          exact hq
  · have hsame : x.setHandOff q (x.handOff q).abandon = x := by
      simp [Instance.setHandOff, Array.setIfInBounds_eq_of_size_le (Nat.le_of_not_lt hlt)]
    rwa [hsame]

/-- A state that feeds no sequence was given out. -/
theorem issue (h : Streams given active x) (hdistinct : Distinct given x) (ht : t.feed = none)
    (hguard : t.guard = x.guards.next) (hloops : y.stack = x.stack ∧ y.events = x.events)
    (hsequences : y.sequences = x.sequences) (hguards : y.guards = x.guards.issue) :
    Streams (given ++ [t]) active y := by
  have hsame := Instance.handOff_of_sequences hsequences
  have hconsumed : ∀ u, Known given x u → u.isConsumed y = u.isConsumed x := fun u hu => by
    rw [Token.isConsumed, hguards, Token.isConsumed, Guards.isConsumed_issue_of_ne]
    intro hnext
    have hlt := hdistinct.index_lt hu
    rw [hnext] at hlt
    exact Nat.lt_irrefl _ hlt
  have hknown : ∀ u, Known (given ++ [t]) y u ↔ Known given x u ∨ u = t := fun u => by
    simp only [Known, hsequences, List.mem_append, List.mem_singleton]
    exact or_right_comm
  refine ⟨h.toLoops.stay (by rw [hloops.2]) (by rw [hloops.1]) (by rw [hsequences])
    fun q => by rw [hsame], fun q u hu => ?_, fun u q hu hunused hfeed => ?_, fun q hq => ?_⟩
  · rw [hsame] at hu ⊢
    obtain ⟨hslot, hunused, hnot, hindex⟩ := h.queued q u hu
    have hold : Known given x u := .inr (queued_handOff hu)
    refine ⟨hslot, by rw [hconsumed u hold, hunused], fun hgiven => ?_, hindex⟩
    rcases List.mem_append.1 hgiven with hgiven | hgiven
    · exact hnot hgiven
    · obtain rfl := List.mem_singleton.1 hgiven
      have hlt := hdistinct.index_lt hold
      rw [hguard] at hlt
      exact Nat.lt_irrefl _ hlt
  · rcases (hknown u).1 hu with hu | rfl
    · exact h.feeds u q hu (by rw [← hconsumed u hu, hunused]) hfeed
    · rw [ht] at hfeed
      cases hfeed
  · rw [hsame]
    refine (h.fed q hq).imp_right ?_
    rintro ⟨u, hu, hunused, hfeed⟩
    refine ⟨u, ?_, ?_, hfeed⟩
    · exact (hknown u).2 (.inl hu)
    · rw [hconsumed u hu, hunused]

/-! ## All calls -/

section Calls

variable (h : Streams given active x) (hp : InPhase given p x) (hdistinct : Distinct given x)
  (hrun : x.aborted = false)

include h hp hdistinct hrun

theorem ends_sendAt (ht : t ∈ given) (point : SendPoint) :
    (t.sendAt point).Ends x (fun next => Flows (given ++ [next])) fun _ y => y.aborted = true := by
  have hsent : ∀ y : Instance, t.isConsumed x = false → y.sequences = x.sequences →
      y.stack = x.stack → y.events = x.events.push (.sent point.label) →
      y.guards = (x.guards.spend t.guard).issue →
      Flows (given ++ [⟨(x.guards.spend t.guard).next, point.next, t.feed⟩]) y :=
    fun y hunused hsequences hstack hevents hguards =>
      (h.replace hp hdistinct hrun ht hunused hsequences hstack hevents hguards).flows
  unfold Token.sendAt
  cases point.closes with
  | none =>
    show ((t.consume >>= fun _ => Act.accept point.label) >>= _).Ends _ _ _
    rw [bind_assoc]
    refine Ends.bind (ends_consume (fun _ => Instance.aborted_fail _ _) fun hunused => ?_)
    exact Ends.bind (ends_accept (ends_issue (hsent _ hunused rfl rfl rfl rfl)))
  | some id =>
    show ((t.consume >>= fun _ => Act.ensureClosed id >>= fun _ => Act.accept point.label) >>=
      _).Ends _ _ _
    simp only [bind_assoc]
    refine Ends.bind (ends_consume (fun _ => Instance.aborted_fail _ _) fun hunused => ?_)
    refine Ends.bind (ends_ensureClosed (fun _ => Instance.aborted_fail _ _) fun _ _ => ?_)
    exact Ends.bind (ends_accept (ends_issue (hsent _ hunused rfl rfl rfl rfl)))

theorem ends_finish (ht : t ∈ given) {closes : Option LoopId}
    (hend : t.site.end? = some (.protocol closes)) :
    (t.finish closes).Ends x (fun _ => Flows given) fun _ y => y.aborted = true := by
  have hfeed : t.feed = none := by
    obtain ⟨place, hat⟩ := hp.placed t (.inl ht)
    rw [hat.site] at hend
    cases place <;> cases hend
    simpa [feeds] using hat.feed
  have hterminate : t.isConsumed x = false →
      Act.terminate.Ends (x.spend t) (fun _ => Flows given) fun _ y => y.aborted = true :=
    fun hunused => ends_terminate (fun _ => Instance.aborted_fail _ _) fun _ _ => by
      refine (h.finish hp hdistinct hrun ht hunused hfeed ?_ ?_ ?_ ?_).flows <;> rfl
  cases closes with
  | none =>
    exact Ends.bind (ends_consume (fun _ => Instance.aborted_fail _ _) hterminate)
  | some id =>
    refine Ends.bind (ends_consume (fun _ => Instance.aborted_fail _ _) fun hunused => ?_)
    refine Ends.bind (ends_ensureClosed (fun _ => Instance.aborted_fail _ _) fun _ _ => ?_)
    exact hterminate hunused

theorem ends_iterate (ht : t ∈ given) {shape : LoopShape}
    (hloop : t.site.loop? .iterator = some shape) :
    (Iterator.enter shape t).Ends x (fun r => Flows (given ++ [r.2]))
      fun _ y => y.aborted = true := by
  refine Ends.bind (ends_consume (fun _ => Instance.aborted_fail _ _) fun hunused => ?_)
  obtain ⟨hnone, hid, hother⟩ := h.at_head hp hrun ht hunused hloop
  refine Ends.bind (ends_activate (fun _ => Instance.aborted_fail _ _) ?_ fun b _ _ _ => ?_)
  · intro top below _ hs htop
    exact absurd htop (FrameStack.contains_eq_false_iff.1 hnone top (by
      rw [show x.stack.frames = _ from hs]
      exact List.mem_cons_self))
  · refine Ends.bind (ends_openSequence (Ends.bind ?_))
    unfold Iterator.turn
    rw [Frame.canEnter_start, if_pos rfl]
    refine Ends.bind (ends_iteration (Ends.bind (ends_issue (ends_handOver_empty ?_ ?_))))
    · simp [Instance.handOff, Instance.spend, Array.getD_eq_getD_getElem?]
    · refine Ends.bind (ends_issue (ends_pure ?_))
      let body : Token :=
        ⟨(x.guards.spend t.guard).next, shape.body, some ⟨x.sequences.size, shape.head.id⟩⟩
      let after : Token := ⟨(x.guards.spend t.guard).issue.next, shape.after, t.feed⟩
      refine (h.enter hp hdistinct hrun ht hunused body after (f := Frame.start shape.head.id b)
        (b := b.count) hid hother rfl ?_ ?_ ?_ ?_ ⟨rfl, rfl⟩ ⟨rfl, rfl⟩).flows <;> rfl

/-- **No end of an iteration waits.** -/
theorem ends_endIteration (ht : t ∈ given) (hfeed : t.feed = some q) (nextBody : Site) :
    (Iterator.endIteration t q nextBody).Ends x
      (fun progress y => progress ≠ .waiting ∧ Flows given y) fun _ y => y.aborted = true := by
  refine Ends.bind (ends_consume (fun _ => Instance.aborted_fail _ _) fun hunused => ?_)
  have hempty := h.queue_eq_nil hp hdistinct hrun ht hunused hfeed
  have hopen := h.bounded q (h.feeds t q (.inl ht) hunused hfeed)
  refine Ends.bind (ends_complete (fun _ => Instance.aborted_fail _ _) ?_)
  intro top below ha hs hid
  have htop : x.stack.frames = top :: below := hs
  unfold Iterator.turn
  split
  · refine Ends.bind (ends_iteration (Ends.bind (ends_issue ?_)))
    refine ends_handOver_free hempty (fun _ => Instance.aborted_fail _ _) ⟨by decide, ?_⟩
    let body : Token := ⟨(x.guards.spend t.guard).next, nextBody, some q⟩
    refine (h.deliver hp hdistinct hrun ht hunused body hfeed hopen ?_ ?_ ?_ ?_ ⟨rfl, rfl⟩).flows
    · exact Event.loops_push _ _
    · simp [Instance.setHandOff, htop]
    · rfl
    · rfl
  · refine Ends.bind (ends_exit (fun _ => Instance.aborted_fail _ _) ?_)
    intro top' below' _ hs' _ _
    obtain ⟨-, rfl⟩ := List.cons_eq_cons.1 hs'
    refine Ends.bind (ends_closeSequence (ends_pure ⟨by decide, ?_⟩))
    refine (h.close hp hdistinct hrun ht hunused hfeed hopen htop hid ?_ ?_ ?_ ?_).flows <;> rfl

/-- **Every call leaves the sequences with the stack and the states**, or the instance aborted. -/
theorem ends_call {c : Call} (hlegal : c.Legal given []) (hadmits : Admits c) :
    c.act.Ends x (fun grant => Flows (given ++ grant.tokens)) fun _ y => y.aborted = true := by
  have hstreamed : isStreamed c = true := isStreamed_of_legal
    (fun t ht => (hp.placed t (.inl ht)).imp fun _ hat => hat.site) hlegal hadmits
  have hnothing : ∀ y, Flows given y → Flows (given ++ Grant.nothing.tokens) y := fun y hy => by
    simpa [Grant.tokens] using hy
  cases c with
  | issue site =>
    refine Ends.map (ends_issue (h.issue hdistinct ?_ ?_ ⟨?_, ?_⟩ ?_ ?_).flows) <;> rfl
  | setParam name bound =>
    refine Ends.map (ends_setParam (hnothing _ ?_))
    exact Streams.flows ⟨h.toLoops.stay rfl rfl rfl fun _ => rfl, h.queued, h.feeds, h.fed⟩
  | send t point => exact Ends.map (h.ends_sendAt hp hdistinct hrun hlegal.1 point)
  | finish t closes =>
    have hends := h.ends_finish hp hdistinct hrun hlegal.1 hlegal.2
    exact Ends.map (hends.mono (fun _ => hnothing) fun _ _ he => he)
  | iterate shape t => exact Ends.map (h.ends_iterate hp hdistinct hrun hlegal.1 hlegal.2)
  | endIteration t q nextBody =>
    have hends := h.ends_endIteration hp hdistinct hrun hlegal.1 hlegal.2.2 nextBody
    exact Ends.map (hends.mono (fun _ y hy => hnothing y hy.2) fun _ _ he => he)
  | take q =>
    refine Ends.map ((h.ends_take? q).mono (fun taken y hy => ?_)
      fun _ _ he => he)
    cases taken <;> exact hy
  | abandon q =>
    refine Ends.map (Act.ends_abandon (hnothing _ (h.abandon q).flows) fun e => ?_)
    intro hrun'
    rw [Instance.aborted_fail] at hrun'
    cases hrun'
  | use _ _ | fork _ | enter _ _ | exit _ _ | begin _ _ | giveBack _ | advance _ _ | fail _ =>
    cases hstreamed

end Calls

end Streams

end LoopProtocol.Nested
