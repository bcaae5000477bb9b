import LoopProtocol.Proofs.Issued
import LoopProtocol.Proofs.PhaseCall

/-!
# The sequences of a run

On the iterator surface each loop of the nested protocol has a sequence of its own, the first one
for the outer loop and one more for each run of the inner one. `Streams given active x` says how
they go together on an instance that runs. The loops on the stack are those whose sequences are in
`active`, and these sequences are open, all others closed. Each of them is fed by one unused state,
which the driver has or will take from it: a body in its slot is that state. So the slot is empty
whenever a state ends an iteration, and no end has to wait.
-/

namespace LoopProtocol

open Act

/-! ## The loops that run, told from the events -/

namespace Event

/-- How many loops were entered, and the sequences of those that run, the innermost first. The
sequences are counted in the order in which their loops were entered. -/
def track (seen : Nat × List SequenceId) : Event → Nat × List SequenceId
  | .activated id _ => (seen.1 + 1, ⟨seen.1, id⟩ :: seen.2)
  | .exited _ => (seen.1, seen.2.tail)
  | .iteration _ _ | .sent _ | .terminated => seen

/-- The loops that some events tell of. -/
def loops (es : List Event) : Nat × List SequenceId := es.foldl track (0, [])

theorem loops_push (es : Array Event) (e : Event) :
    loops (es.push e).toList = track (loops es.toList) e := by
  rw [loops, Array.toList_push, List.foldl_append]
  rfl

end Event

/-! ## Passages of an instance -/

namespace Instance

variable {x : Instance} {q q' : SequenceId} {p : HandOff Token}

theorem handOff_congr (h : q.index = q'.index) : x.handOff q = x.handOff q' := by
  rw [handOff, h, handOff]

theorem handOff_setHandOff_of_ne (h : q.index ≠ q'.index) :
    (x.setHandOff q p).handOff q' = x.handOff q' := by
  simp [handOff, setHandOff, Array.getD_eq_getD_getElem?, Array.getElem?_setIfInBounds_ne h]

/-- What was done to one sequence. -/
theorem handOff_of_set {y : Instance} (hy : y.sequences = (x.setHandOff q p).sequences)
    (hlt : q.index < x.sequences.size) (q' : SequenceId) :
    y.handOff q' = if q.index = q'.index then p else x.handOff q' := by
  rw [handOff_of_sequences hy]
  split
  · next hq => rw [← handOff_congr hq, Iterator.handOff_setHandOff hlt]
  · next hq => exact handOff_setHandOff_of_ne hq

/-- What is the same of all passages when it is the same of one. -/
theorem apply_handOff_of_set {α : Type} {y : Instance} (f : HandOff Token → α)
    (hy : y.sequences = (x.setHandOff q p).sequences) (hlt : q.index < x.sequences.size)
    (hp : f p = f (x.handOff q)) (q' : SequenceId) : f (y.handOff q') = f (x.handOff q') := by
  rw [handOff_of_set hy hlt]
  split
  · next hq => rw [hp, handOff_congr hq]
  · rfl

theorem handOff_of_size_le (h : x.sequences.size ≤ q.index) : x.handOff q = .gone := by
  simp [handOff, Array.getD_eq_getD_getElem?, h]

/-- A passage that is open was opened. -/
theorem index_lt_of_open (h : (x.handOff q).isClosed = false) : q.index < x.sequences.size := by
  refine Nat.lt_of_not_le fun hle => ?_
  rw [handOff_of_size_le hle] at h
  cases h

theorem index_lt_of_mem {t : Token} (h : t ∈ (x.handOff q).queue) :
    q.index < x.sequences.size := by
  refine Nat.lt_of_not_le fun hle => ?_
  rw [handOff_of_size_le hle] at h
  cases h

theorem queued_iff {t : Token} : Queued x.sequences t ↔ ∃ q, t ∈ (x.handOff q).queue := by
  refine ⟨fun ⟨h, hmem, ht⟩ => ?_, fun ⟨q, ht⟩ => queued_handOff ht⟩
  obtain ⟨k, hlt, rfl⟩ := Array.mem_iff_getElem.1 hmem
  refine ⟨⟨k, ⟨0⟩⟩, ?_⟩
  simpa [handOff, Array.getD_eq_getD_getElem?, hlt] using ht

/-- A body came into a slot that was empty. -/
theorem queued_filled {y : Instance} {n : Nat} {t : Token}
    (hqueue : ∀ q, (y.handOff q).queue = if q.index = n then [t] else (x.handOff q).queue)
    (hempty : ∀ q, q.index = n → (x.handOff q).queue = []) (u : Token) :
    Queued y.sequences u ↔ Queued x.sequences u ∨ u = t := by
  simp only [queued_iff, hqueue]
  constructor
  · rintro ⟨q, hu⟩
    by_cases hq : q.index = n
    · rw [if_pos hq] at hu
      exact .inr (List.mem_singleton.1 hu)
    · rw [if_neg hq] at hu
      exact .inl ⟨q, hu⟩
  · rintro (⟨q, hu⟩ | rfl)
    · refine ⟨q, ?_⟩
      rwa [if_neg]
      intro hq
      rw [hempty q hq] at hu
      cases hu
    · exact ⟨⟨n, ⟨0⟩⟩, by simp⟩

/-- A sequence was opened, and a first body may be in its slot. -/
theorem handOff_push {queue : List Token} {y : Instance}
    (hy : y.sequences =
      (x.sequences.push .fresh).setIfInBounds x.sequences.size ⟨queue, false, false⟩) :
    y.handOff q = if q.index = x.sequences.size then ⟨queue, false, false⟩ else x.handOff q := by
  rw [handOff, hy, Array.getD_eq_getD_getElem?, handOff, Array.getD_eq_getD_getElem?]
  split
  · next h => simp [h]
  · next h =>
    rw [Array.getElem?_setIfInBounds_ne (Ne.symm h), Array.getElem?_push, if_neg h]

end Instance

/-- A body that finds the slot empty does not wait. -/
theorem Act.ends_handOver_free {x : Instance} {q : SequenceId} {body : Token}
    {Q : Iterator.Progress → Instance → Prop} {E : Fault → Instance → Prop}
    (hempty : (x.handOff q).queue = []) (hE : ∀ e, E e (x.fail e))
    (hQ : Q .delivered { x.setHandOff q { x.handOff q with queue := [body] } with
      lines := x.lines.push (.handedOver q.loop) }) :
    (Iterator.handOver q body).Ends x Q E := by
  unfold Ends
  rw [on_handOver]
  cases hclosed : (x.handOff q).isClosed with
  | true => exact hE _
  | false => simpa [HandOff.offer, hclosed, hempty] using hQ

namespace Nested

/-- In a phase at most one place feeds the sequences of a loop. -/
theorem Phase.place_eq {p : Phase} {place place' : Place} (h : p.Fits place) (h' : p.Fits place')
    (hfeeds : feeds place = feeds place') (hne : feeds place ≠ none) : place = place' := by
  have houter : outerId ≠ innerId := by decide
  cases p <;> cases place <;> simp only [Fits] at h <;> cases place' <;> simp only [Fits] at h' <;>
    first
      | rfl
      | exact absurd rfl hne
      | exact absurd (Option.some.inj hfeeds) houter
      | exact absurd (Option.some.inj hfeeds) houter.symm
      | cases hfeeds

variable {given given' : List Token} {active active' : List SequenceId} {p : Phase}
  {x y : Instance} {t : Token} {q : SequenceId}

/-- The state that feeds a sequence is the only unused one that does. -/
theorem InPhase.one (h : InPhase given p x) (hdistinct : Distinct given x)
    (hrun : x.aborted = false) (ht : Known given x t) (hunused : t.isConsumed x = false) {u : Token}
    (hu : Known given x u) (hunused' : u.isConsumed x = false) (hfeed : u.feed = t.feed)
    (hne : u.feed ≠ none) : u = t := by
  obtain ⟨place, hat⟩ := h.placed t ht
  obtain ⟨place', hat'⟩ := h.placed u hu
  have husable : Usable x place t := InPhase.usable_of_running hrun hunused
  have husable' : Usable x place' u := InPhase.usable_of_running hrun hunused'
  have hfeeds : feeds place' = feeds place := by rw [← hat'.feed, ← hat.feed, hfeed]
  have hsome : feeds place' ≠ none := by
    rw [← hat'.feed]
    simpa using hne
  obtain rfl := Phase.place_eq (h.fits u place' hu hat' husable') (h.fits t place ht hat husable)
    hfeeds hsome
  exact hdistinct.eq_of_guard_eq hu ht (h.unique u t place' hu ht hat' hat husable' husable)

/-! ## The loops -/

/-- The loops on the stack have the sequences in `active`. These are open, and all others closed. -/
structure Loops (active : List SequenceId) (x : Instance) : Prop where
  told : Event.loops x.events.toList = (x.sequences.size, active)
  stack : x.stack.frames.map (·.id) = active.map (·.loop)
  nodup : (active.map (·.index)).Nodup
  bounded : ∀ q ∈ active, q.index < x.sequences.size
  numbered : ∀ q ∈ active, q.loop = if q.index = 0 then outerId else innerId
  latest : ∀ q ∈ active, q.loop = innerId → q.index + 1 = x.sequences.size
  closed : ∀ q, q.index < x.sequences.size →
    ((x.handOff q).closed = false ↔ q.index ∈ active.map (·.index))

namespace Loops

/-- No loop was entered or left. -/
theorem stay (h : Loops active x)
    (hevents : Event.loops y.events.toList = Event.loops x.events.toList)
    (hstack : y.stack.frames.map (·.id) = x.stack.frames.map (·.id))
    (hsize : y.sequences.size = x.sequences.size)
    (hclosed : ∀ q, (y.handOff q).closed = (x.handOff q).closed) : Loops active y := by
  refine ⟨?_, hstack.trans h.stack, h.nodup, ?_, h.numbered, ?_, ?_⟩
  · rw [hevents, h.told, hsize]
  · rw [hsize]
    exact h.bounded
  · rw [hsize]
    exact h.latest
  · intro q hlt
    rw [hclosed]
    exact h.closed q (hsize ▸ hlt)

/-- Something was reported that is not about a loop. -/
theorem report (h : Loops active x) {e : Event} (he : ∀ seen, Event.track seen e = seen)
    (hsequences : y.sequences = x.sequences) (hstack : y.stack = x.stack)
    (hevents : y.events = x.events.push e) : Loops active y := by
  refine h.stay ?_ (by rw [hstack]) (by rw [hsequences])
    fun q => by rw [Instance.handOff_of_sequences hsequences]
  rw [hevents, Event.loops_push, he]

/-- A loop was entered that was not on the stack, and has a new sequence. -/
theorem enter (h : Loops active x) {id : LoopId} {b : UInt64} {k : UInt64} {f : Frame}
    (hid : id = if x.sequences.size = 0 then outerId else innerId)
    (hother : ∀ q ∈ active, q.loop ≠ innerId) (hf : f.id = id)
    (hevents : y.events = (x.events.push (.activated id b)).push (.iteration id k))
    (hstack : y.stack.frames = f :: x.stack.frames)
    (hsize : y.sequences.size = x.sequences.size + 1)
    (hclosed : ∀ q, (y.handOff q).closed =
      if q.index = x.sequences.size then false else (x.handOff q).closed) :
    Loops (⟨x.sequences.size, id⟩ :: active) y := by
  have hnew : x.sequences.size ∉ active.map (·.index) := by
    intro hmem
    obtain ⟨q, hq, hindex⟩ := List.mem_map.1 hmem
    have hlt := h.bounded q hq
    omega
  refine ⟨?_, ?_, ?_, fun q hq => ?_, fun q hq => ?_, fun q hq hinner => ?_, fun q hlt => ?_⟩
  · rw [hevents, Event.loops_push, Event.loops_push, h.told, hsize]
    rfl
  · rw [hstack, List.map_cons, List.map_cons, h.stack, hf]
  · rw [List.map_cons]
    exact List.nodup_cons.2 ⟨hnew, h.nodup⟩
  · rcases List.mem_cons.1 hq with rfl | hq
    · rw [hsize]
      exact Nat.lt_succ_self _
    · rw [hsize]
      exact Nat.lt_succ_of_lt (h.bounded q hq)
  · rcases List.mem_cons.1 hq with rfl | hq
    · exact hid
    · exact h.numbered q hq
  · rcases List.mem_cons.1 hq with rfl | hq
    · exact hsize.symm
    · exact absurd hinner (hother q hq)
  · rw [hclosed, List.map_cons, List.mem_cons]
    by_cases hq : q.index = x.sequences.size
    · simp [hq]
    · rw [if_neg hq, h.closed q (by omega)]
      simp [hq]

/-- The innermost loop was left, and its sequence closed. -/
theorem leave (h : Loops (q :: active) x) {id : LoopId}
    (hevents : y.events = x.events.push (.exited id))
    (hstack : y.stack.frames = x.stack.frames.tail) (hsize : y.sequences.size = x.sequences.size)
    (hclosed : ∀ q', (y.handOff q').closed =
      if q.index = q'.index then true else (x.handOff q').closed) : Loops active y := by
  have hnodup := h.nodup
  rw [List.map_cons, List.nodup_cons] at hnodup
  refine ⟨?_, ?_, hnodup.2, fun q' hq => ?_, fun q' hq => ?_, fun q' hq => ?_, fun q' hlt => ?_⟩
  · rw [hevents, Event.loops_push, h.told, hsize]
    rfl
  · rw [hstack, List.map_tail, h.stack]
    rfl
  · rw [hsize]
    exact h.bounded q' (List.mem_cons_of_mem _ hq)
  · exact h.numbered q' (List.mem_cons_of_mem _ hq)
  · rw [hsize]
    exact h.latest q' (List.mem_cons_of_mem _ hq)
  · rw [hclosed]
    by_cases hindex : q.index = q'.index
    · simp [← hindex, hnodup.1]
    · rw [if_neg hindex, h.closed q' (hsize ▸ hlt), List.map_cons, List.mem_cons]
      simp [Ne.symm hindex]

/-- A loop that runs has one sequence. -/
theorem eq_of_loop (h : Loops active x) {q' : SequenceId} (hq : q ∈ active) (hq' : q' ∈ active)
    (hloop : q.loop = q'.loop) : q = q' := by
  have hindex : q.index = q'.index := by
    by_cases hinner : q.loop = innerId
    · have hlast := h.latest q hq hinner
      have hlast' := h.latest q' hq' (hloop ▸ hinner)
      omega
    · have hnumber := h.numbered q hq
      have hnumber' := h.numbered q' hq'
      by_cases hzero : q.index = 0
      · by_cases hzero' : q'.index = 0
        · rw [hzero, hzero']
        · rw [if_neg hzero'] at hnumber'
          exact absurd (hloop.trans hnumber') hinner
      · rw [if_neg hzero] at hnumber
        exact absurd hnumber hinner
  obtain ⟨index, loop⟩ := q
  obtain ⟨index', loop'⟩ := q'
  obtain rfl : index = index' := hindex
  obtain rfl : loop = loop' := hloop
  rfl

end Loops

/-! ## The states that feed them -/

/-- Each of the sequences in `active` is fed by an unused state, unless its consumer has left. No
other sequence is, and what is in a slot is such a state, which the driver does not have yet. -/
structure Fed (given : List Token) (active : List SequenceId) (x : Instance) : Prop where
  queued : ∀ q t, t ∈ (x.handOff q).queue → (x.handOff q).queue = [t] ∧ t.isConsumed x = false ∧
    t ∉ given ∧ t.feed.map (·.index) = some q.index
  feeds : ∀ t q, Known given x t → t.isConsumed x = false → t.feed = some q → q ∈ active
  fed : ∀ q ∈ active, (x.handOff q).abandoned = true ∨
    ∃ t, Known given x t ∧ t.isConsumed x = false ∧ t.feed = some q

/-- A state of before, after one was used and others were issued. -/
theorem isConsumed_step {n : Nat} {u : Token}
    (hguards : y.guards = n.repeat Guards.issue (x.guards.spend t.guard))
    (hlt : u.guard.index < x.guards.spent.size) :
    u.isConsumed y = (decide (t.guard = u.guard) || u.isConsumed x) := by
  rw [Token.isConsumed, hguards, Guards.isConsumed_repeat_issue (by simpa using hlt),
    Guards.isConsumed_spend]
  rfl

/-- **A state was used, and new ones took its place.** The sequence that it fed is fed by one of
them, or was closed. -/
theorem Fed.step (h : Fed given active x) (new : List Token) {n : Nat} (hp : InPhase given p x)
    (hdistinct : Distinct given x) (hrun : x.aborted = false) (ht : t ∈ given)
    (hunused : t.isConsumed x = false)
    (hguards : y.guards = n.repeat Guards.issue (x.guards.spend t.guard))
    (hknown : ∀ u, Known given' y u ↔ Known given x u ∨ u ∈ new)
    (hgiven : ∀ u ∈ given', u ∈ given ∨ u ∈ new)
    (hnew : ∀ u ∈ new, x.guards.spent.size ≤ u.guard.index ∧ u.isConsumed y = false ∧
      ∀ q, u.feed = some q → q ∈ active')
    (hkeep : ∀ q ∈ active, some q ≠ t.feed → q ∈ active')
    (hfed : ∀ q ∈ active', (∃ u ∈ new, u.feed = some q) ∨ some q ≠ t.feed ∧ q ∈ active)
    (habandoned : ∀ q ∈ active, (x.handOff q).abandoned = true → (y.handOff q).abandoned = true)
    (hqueue : ∀ q, (y.handOff q).queue = (x.handOff q).queue ∨
      ∃ u ∈ new, (y.handOff q).queue = [u] ∧ u ∉ given' ∧ u.feed.map (·.index) = some q.index) :
    Fed given' active' y := by
  have hold : ∀ u, Known given x u →
      u.isConsumed y = (decide (t.guard = u.guard) || u.isConsumed x) := fun u hu =>
    isConsumed_step hguards (hp.issued u hu)
  have hbefore : ∀ u, Known given x u → u.isConsumed y = false →
      t.guard ≠ u.guard ∧ u.isConsumed x = false := by
    intro u hu huy
    rw [hold u hu, Bool.or_eq_false_iff, decide_eq_false_iff_not] at huy
    exact huy
  have hfresh : ∀ u ∈ new, ¬Known given x u := by
    intro u hu hknown
    have hlt := hp.issued u hknown
    have hle := (hnew u hu).1
    omega
  refine ⟨fun q u hu => ?_, fun u q hu huy hfeed => ?_, fun q hq => ?_⟩
  · rcases hqueue q with hsame | ⟨v, hv, hslot, hnot, hfeed⟩
    · rw [hsame] at hu ⊢
      obtain ⟨hslot, hux, hnot, hfeed⟩ := h.queued q u hu
      have hqueued : Known given x u := .inr (queued_handOff hu)
      have hne : t.guard ≠ u.guard := by
        intro hguard
        rw [hdistinct.eq_of_guard_eq (.inl ht) hqueued hguard] at ht
        exact hnot ht
      refine ⟨hslot, ?_, fun hmem => ?_, hfeed⟩
      · rw [hold u hqueued, decide_eq_false hne, hux, Bool.or_false]
      · rcases hgiven u hmem with hmem | hmem
        · exact hnot hmem
        · exact hfresh u hmem hqueued
    · rw [hslot] at hu ⊢
      obtain rfl := List.mem_singleton.1 hu
      exact ⟨rfl, (hnew u hv).2.1, hnot, hfeed⟩
  · rcases (hknown u).1 hu with hux | hmem
    · obtain ⟨hguard, hunused'⟩ := hbefore u hux huy
      refine hkeep q (h.feeds u q hux hunused' hfeed) fun hsame => hguard ?_
      have hone := hp.one hdistinct hrun (.inl ht) hunused hux hunused' (hfeed.trans hsame)
        (by rw [hfeed]; exact Option.some_ne_none q)
      rw [hone]
    · exact (hnew u hmem).2.2 q hfeed
  · rcases hfed q hq with ⟨u, hu, hfeed⟩ | ⟨hne, hq⟩
    · exact .inr ⟨u, (hknown u).2 (.inr hu), (hnew u hu).2.1, hfeed⟩
    · rcases h.fed q hq with hab | ⟨u, hu, hunused', hfeed⟩
      · exact .inl (habandoned q hq hab)
      · refine .inr ⟨u, (hknown u).2 (.inl hu), ?_, hfeed⟩
        have hguard : t.guard ≠ u.guard := by
          intro hguard
          rw [hdistinct.eq_of_guard_eq (.inl ht) hu hguard, hfeed] at hne
          exact hne rfl
        rw [hold u hu, decide_eq_false hguard, hunused', Bool.or_false]

/-! ## Both together -/

/-- How the sequences of a run, the loops on the stack and the unused states go together. -/
structure Streams (given : List Token) (active : List SequenceId) (x : Instance) : Prop
    extends Loops active x, Fed given active x

namespace Streams

/-- **Where an iteration ends, the slot is empty.** The state that ends it is the one that feeds
the sequence. -/
theorem queue_eq_nil (h : Streams given active x) (hp : InPhase given p x)
    (hdistinct : Distinct given x) (hrun : x.aborted = false) (ht : t ∈ given)
    (hunused : t.isConsumed x = false) (hfeed : t.feed = some q) : (x.handOff q).queue = [] := by
  cases hqueue : (x.handOff q).queue with
  | nil => rfl
  | cons u rest =>
    have hu : u ∈ (x.handOff q).queue := by
      rw [hqueue]
      exact List.mem_cons_self
    obtain ⟨-, hunused', hnot, hindex⟩ := h.queued q u hu
    have hqueued : Known given x u := .inr (queued_handOff hu)
    obtain ⟨q', hfeed', hindex'⟩ := Option.map_eq_some_iff.1 hindex
    have hq := h.feeds t q (.inl ht) hunused hfeed
    have hq' := h.feeds u q' hqueued hunused' hfeed'
    have hloop : q'.loop = q.loop := by rw [h.numbered q' hq', h.numbered q hq, hindex']
    have hsame : q' = q := h.eq_of_loop hq' hq hloop
    have hone := hp.one hdistinct hrun (.inl ht) hunused hqueued hunused'
      (by rw [hfeed', hfeed, hsame]) (by rw [hfeed']; exact Option.some_ne_none q')
    rw [hone] at hnot
    exact absurd ht hnot

end Streams

end Nested

end LoopProtocol
