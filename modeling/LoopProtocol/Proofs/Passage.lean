import LoopProtocol.Proofs.IdleMove
import LoopProtocol.Proofs.Streams

/-!
# What a call does to a passage

A sequence's passage is changed by three calls only: the end of an iteration, which puts a body
behind the others or closes the producers' side; a take, which removes the first body; and the
consumer's leaving. `Call.passed` says what each makes of it. A passage that is closed or abandoned
stays so, and once such a passage is empty it stays empty.
-/

namespace LoopProtocol

open Act

/-! ## Steps of a passage -/

namespace HandOff

variable {α : Type} {p p' : HandOff α}

/-- What can become of a passage at once. -/
inductive Step (p : HandOff α) : HandOff α → Prop where
  | stay : Step p p
  | put (body : α) : p.isClosed = false → Step p { p with queue := p.queue ++ [body] }
  | take : Step p { p with queue := p.queue.tail }
  | close : Step p p.close
  | leave : Step p p.abandon

namespace Step

theorem closed (h : p.Step p') (hp : p.closed = true) : p'.closed = true := by
  cases h <;> first | exact hp | rfl

theorem abandoned (h : p.Step p') (hp : p.abandoned = true) : p'.abandoned = true := by
  cases h <;> first | exact hp | rfl

/-- Nothing is put into a passage that is closed. -/
theorem drained (h : p.Step p') (hp : p.isClosed = true) (hqueue : p.queue = []) :
    p'.queue = [] := by
  cases h with
  | put body hopen => simp [hp] at hopen
  | take => simp [hqueue]
  | leave => rfl
  | stay | close => exact hqueue

end Step

end HandOff

/-! ## The three calls -/

namespace Act

variable {x : Instance} {s : SequenceId} {body : Token}

/-- A body is handed over, it waits, or it is refused. -/
theorem ends_handOver_sorted {Q : Iterator.Progress → Instance → Prop}
    {E : Fault → Instance → Prop}
    (hrefused : (x.handOff s).isClosed = true →
      E (.handOffClosed s.loop) (x.fail (.handOffClosed s.loop)))
    (hdelivered : (x.handOff s).isClosed = false → (x.handOff s).queue = [] → ∀ y,
      y.sequences = (x.setHandOff s { x.handOff s with queue := [body] }).sequences →
      y.guards = x.guards → Q .delivered y)
    (hwaiting : (x.handOff s).isClosed = false → (x.handOff s).queue ≠ [] → ∀ y,
      y.sequences = (x.setHandOff s { x.handOff s with
        queue := (x.handOff s).queue ++ [body] }).sequences →
      y.guards = x.guards → Q .waiting y) :
    (Iterator.handOver s body).Ends x Q E := by
  unfold Ends
  rw [on_handOver]
  cases hclosed : (x.handOff s).isClosed with
  | true => exact hrefused hclosed
  | false =>
    cases hqueue : (x.handOff s).queue with
    | nil =>
      refine hdelivered hclosed hqueue _ ?_ rfl
      simp [Instance.setHandOff, HandOff.offer, hclosed, hqueue]
    | cons first rest =>
      refine hwaiting hclosed (by simp [hqueue]) _ ?_ rfl
      simp [Instance.setHandOff, HandOff.offer, hclosed, hqueue]

end Act

/-- The body that the end of an iteration gives out. -/
def Instance.nextBody (x : Instance) (s : SequenceId) (body : Site) : Token :=
  ⟨x.guards.next, body, some s⟩

namespace Iterator

variable {x : Instance}

/-- The passage that the end of an iteration leaves, as told by its answer. -/
def Progress.leaves (x : Instance) (s : SequenceId) (body : Site) : Progress → HandOff Token
  | .delivered | .waiting =>
    { x.handOff s with queue := (x.handOff s).queue ++ [x.nextBody s body] }
  | .closed => (x.handOff s).close

/-- The end of an iteration came off with this answer. -/
structure Ended (x : Instance) (s : SequenceId) (body : Site) (progress : Progress)
    (y : Instance) : Prop where
  sequences : y.sequences = (x.setHandOff s (progress.leaves x s body)).sequences
  delivered : progress = .delivered →
    (x.handOff s).isClosed = false ∧ (x.handOff s).queue = []
  waiting : progress = .waiting → (x.handOff s).isClosed = false ∧ (x.handOff s).queue ≠ []
  issued : progress ≠ .closed → x.guards.spent.size < y.guards.spent.size

theorem Ended.congr {y z : Instance} {s : SequenceId} {body : Site} {progress : Progress}
    (h : Ended y s body progress z) (hsequences : y.sequences = x.sequences)
    (hguards : y.guards.next = x.guards.next) : Ended x s body progress z := by
  have hsame := Instance.handOff_of_sequences hsequences
  have hbody : y.nextBody s body = x.nextBody s body := by
    rw [Instance.nextBody, hguards, Instance.nextBody]
  have hsize : y.guards.spent.size = x.guards.spent.size := congrArg GuardId.index hguards
  refine ⟨?_, by rw [← hsame]; exact h.delivered, by rw [← hsame]; exact h.waiting,
    by rw [← hsize]; exact h.issued⟩
  rw [h.sequences]
  cases progress <;>
    simp only [Instance.setHandOff, Progress.leaves, hsame, hsequences, hbody]

/-- Whatever frame the loop has, going on with it hands a body over or closes the sequence. -/
theorem ends_turn (s : SequenceId) (f : Frame) (body : Site) (x : Instance) :
    (turn s f body).Ends x (fun progress => Ended x s body progress)
      fun _ y => y.sequences = x.sequences := by
  unfold turn
  split
  · refine Ends.bind (ends_iteration (Ends.bind (ends_issue ?_)))
    have hissued {y : Instance} (hy : y.guards = x.guards.issue) :
        x.guards.spent.size < y.guards.spent.size := by
      rw [hy]
      exact x.guards.index_next_lt
    refine ends_handOver_sorted (fun _ => by simp) (fun hopen hqueue y hy hguards => ?_)
      fun hopen hqueue y hy hguards =>
        ⟨hy, nofun, fun _ => ⟨hopen, hqueue⟩, fun _ => hissued hguards⟩
    refine ⟨?_, fun _ => ⟨hopen, hqueue⟩, nofun, fun _ => hissued hguards⟩
    have hempty : (x.handOff s).queue = [] := hqueue
    rw [hy, Progress.leaves, hempty]
    rfl
  · refine Ends.bind (ends_exit (fun e => by simp) fun _ _ _ _ _ _ => ?_)
    exact Ends.bind (ends_closeSequence (ends_pure ⟨rfl, nofun, nofun, fun h => absurd rfl h⟩))

theorem ends_endIteration (t : Token) (s : SequenceId) (body : Site) (x : Instance) :
    (endIteration t s body).Ends x (fun progress => Ended x s body progress)
      fun _ y => y.sequences = x.sequences := by
  refine Ends.bind (ends_consume (fun e => by simp) fun _ => ?_)
  refine Ends.bind (ends_complete (fun e => by simp [Instance.spend]) fun top below _ _ _ => ?_)
  refine (ends_turn s top.advance body _).mono (fun progress y hy => ?_) fun _ _ hy => hy
  exact hy.congr rfl (by simp [Instance.spend, Guards.next])

/-- What entering a loop makes of the sequences: there is one more, with the first body in its
slot. If the loop was run past its last iteration it is left instead, and the sequence closed. -/
structure Opened (x : Instance) (shape : LoopShape) (s : SequenceId) (y : Instance) : Prop where
  id : s = ⟨x.sequences.size, shape.head.id⟩
  sequences : y.sequences = x.sequences.push ⟨[x.nextBody s shape.body], false, false⟩ ∨
    y.sequences = x.sequences.push ⟨[], true, false⟩

/-- Whatever frame the loop has, entering it goes on with a new sequence. -/
theorem ends_openTurn (shape : LoopShape) (f : Frame) (feed : Option SequenceId) (x : Instance) :
    (do
      let s ← openSequence shape.head.id
      let _ ← turn s f shape.body
      let after ← Act.issue shape.after feed
      pure (s, after)).Ends x (fun r => Opened x shape r.1)
      fun _ y => y.sequences = x.sequences.push .fresh := by
  let s : SequenceId := ⟨x.sequences.size, shape.head.id⟩
  let y : Instance := { x with sequences := x.sequences.push .fresh }
  have hset (p : HandOff Token) : (y.setHandOff s p).sequences = x.sequences.push p := by
    simp [y, s, Instance.setHandOff, Array.setIfInBounds, Array.set_push]
  have hfresh : y.handOff s = .fresh := by
    simp [y, s, Instance.handOff, Array.getD_eq_getD_getElem?]
  refine Ends.bind (ends_openSequence (Ends.bind ?_))
  refine (ends_turn s f shape.body y).mono (fun progress z hz => ?_) fun _ _ hz => hz
  refine Ends.bind (ends_issue (ends_pure ⟨rfl, ?_⟩))
  have hsequences : z.sequences = _ := hz.sequences
  rw [hset] at hsequences
  cases progress with
  | delivered | waiting =>
    rw [Progress.leaves, hfresh] at hsequences
    exact .inl hsequences
  | closed =>
    rw [Progress.leaves, hfresh] at hsequences
    exact .inr hsequences

theorem ends_enter (shape : LoopShape) (t : Token) (x : Instance) :
    (enter shape t).Ends x (fun r => Opened x shape r.1)
      fun _ y => y.sequences = x.sequences ∨ y.sequences = x.sequences.push .fresh := by
  have hopen (f : Frame) (y : Instance) (hy : y.sequences = x.sequences)
      (hguards : y.guards.next = x.guards.next) :
      (do
        let s ← openSequence shape.head.id
        let _ ← turn s f shape.body
        let after ← Act.issue shape.after t.feed
        pure (s, after)).Ends y (fun r => Opened x shape r.1)
        fun _ y => y.sequences = x.sequences ∨ y.sequences = x.sequences.push .fresh := by
    refine (ends_openTurn shape f t.feed y).mono (fun r z hz => ?_) fun _ z hz => .inr ?_
    · have hbody (s : SequenceId) : y.nextBody s shape.body = x.nextBody s shape.body := by
        rw [Instance.nextBody, hguards, Instance.nextBody]
      exact ⟨by rw [hz.id, hy], by rw [← hy, ← hbody]; exact hz.sequences⟩
    · rw [hz, hy]
  refine Ends.bind (ends_consume (fun _ => .inl (by simp)) fun _ => ?_)
  refine Ends.bind (ends_activate (fun _ => .inl (by simp [Instance.spend]))
    (fun _ _ _ _ _ => hopen _ _ rfl ?_) fun _ _ _ _ => hopen _ _ rfl ?_)
  all_goals simp [Instance.spend, Guards.next]

end Iterator

/-! ## All calls -/

/-- The sequences are as they were. -/
theorem sequences_invariant (hs : Array (HandOff Token)) :
    StackInvariant (fun y => y.sequences = hs) fun _ y => y.sequences = hs where
  fail h e := by rw [Instance.sequences_fail, h]
  failAhead h e := by rw [Instance.sequences_fail, h]
  consume _ _ _ h := ends_consume (fun _ => by rw [Instance.sequences_fail, h]) fun _ => h
  issue _ _ _ h := ends_issue h
  setParam _ _ _ h := ends_setParam h
  accept _ _ h := ends_accept h
  ensureClosed _ _ h := ends_ensureClosed (fun _ => by rw [Instance.sequences_fail, h])
    fun _ _ => h
  terminate _ h := ends_terminate (fun _ => by rw [Instance.sequences_fail, h]) fun _ _ => h
  activate _ _ h := ends_activate (fun _ => by rw [Instance.sequences_fail, h])
    (fun _ _ _ _ _ => h) fun _ _ _ _ => h
  complete _ h := ends_complete (fun _ => by rw [Instance.sequences_fail, h]) fun _ _ _ _ _ => h
  iteration h _ := ends_iteration h
  exitAhead _ h _ := ends_exit (fun _ => by rw [Instance.sequences_fail, h])
    fun _ _ _ _ _ _ => h
  exit _ _ h := ends_exit (fun _ => by rw [Instance.sequences_fail, h]) fun _ _ _ _ _ _ => h

namespace Call

variable {c : Call} {x : Instance} {q : SequenceId}

theorem sequences_on (hc : c.streams = false) : (c.act.on x).2.sequences = x.sequences :=
  ((sequences_invariant x.sequences).keeps hc fun _ _ => trivial).on rfl

/-- What a call on an instance makes of the passage of a sequence that was opened before. -/
def passed (c : Call) (x : Instance) (q : SequenceId) : HandOff Token :=
  match c with
  | .take s =>
    if s.index = q.index then { x.handOff q with queue := (x.handOff q).queue.tail }
    else x.handOff q
  | .abandon s => if s.index = q.index then (x.handOff q).abandon else x.handOff q
  | .endIteration t s body =>
    if s.index = q.index then
      match ((Iterator.endIteration t s body).on x).1 with
      | .ok progress => progress.leaves x s body
      | .error _ => x.handOff q
    else x.handOff q
  | _ => x.handOff q

/-- Opening a sequence leaves those opened before as they were. -/
theorem handOff_of_push {y : Instance} {p : HandOff Token}
    (hy : y.sequences = x.sequences.push p) (hlt : q.index < x.sequences.size) :
    y.handOff q = x.handOff q := by
  simp [Instance.handOff, hy, Array.getD_eq_getD_getElem?, Array.getElem?_push,
    Nat.ne_of_lt hlt]

theorem handOff_of_setHandOff {y : Instance} {s : SequenceId} {p : HandOff Token}
    (hy : y.sequences = (x.setHandOff s p).sequences) (hlt : q.index < x.sequences.size) :
    y.handOff q = if s.index = q.index then p else x.handOff q := by
  by_cases hq : s.index = q.index
  · exact Instance.handOff_of_set hy (hq ▸ hlt) q
  · rw [if_neg hq, ← Instance.handOff_setHandOff_of_ne (x := x) (p := p) hq]
    exact Instance.handOff_of_sequences hy q

/-- **What a call makes of a passage.** -/
theorem handOff_on (hlt : q.index < x.sequences.size) :
    (c.act.on x).2.handOff q = c.passed x q := by
  cases c with
  | iterate shape t =>
    have hends := Iterator.ends_enter shape t x
    rw [Call.act, Act.on_map]
    show (((Iterator.enter shape t).on x).2).handOff q = x.handOff q
    unfold Act.Ends at hends
    split at hends
    · next r y hon =>
      rw [hon]
      rcases hends.sequences with hy | hy <;> exact handOff_of_push hy hlt
    · next e y hon =>
      rw [hon]
      rcases hends with hy | hy
      · exact Instance.handOff_of_sequences hy q
      · exact handOff_of_push hy hlt
  | endIteration t s body =>
    have hends := Iterator.ends_endIteration t s body x
    rw [Call.act, Act.on_map, passed]
    unfold Act.Ends at hends
    split at hends
    · next progress y hon =>
      rw [hon]
      exact handOff_of_setHandOff hends.sequences hlt
    · next e y hon =>
      rw [hon, ite_self]
      exact Instance.handOff_of_sequences hends q
  | take s =>
    have htaken {rest : List Token} (hrest : (x.handOff s).queue.tail = rest) {y : Instance}
        (hy : y.sequences = (x.setHandOff s { x.handOff s with queue := rest }).sequences) :
        y.handOff q = passed (.take s) x q := by
      rw [handOff_of_setHandOff hy hlt, passed, ← hrest]
      split
      · next hq => rw [Instance.handOff_congr hq]
      · rfl
    have hends : (Iterator.take? s).Ends x (fun _ y => y.handOff q = passed (.take s) x q)
        fun _ y => y.handOff q = passed (.take s) x q := by
      refine Act.ends_take? (fun hqueue => ?_) (fun t hqueue => htaken (by rw [hqueue]; rfl) rfl)
        fun t u rest hqueue => htaken (by rw [hqueue]; rfl) rfl
      rw [passed]
      split
      · next hq =>
        rw [Instance.handOff_congr hq] at hqueue
        rw [show (x.handOff q).queue.tail = (x.handOff q).queue by rw [hqueue]; rfl]
      · rfl
    exact Ends.on (Ends.map hends)
  | abandon s =>
    have hleft {y : Instance}
        (hy : y.sequences = (x.setHandOff s (x.handOff s).abandon).sequences) :
        y.handOff q = passed (.abandon s) x q := by
      rw [handOff_of_setHandOff hy hlt, passed]
      split
      · next hq => rw [Instance.handOff_congr hq]
      · rfl
    have hends : (Iterator.abandon s).Ends x (fun _ y => y.handOff q = passed (.abandon s) x q)
        fun _ y => y.handOff q = passed (.abandon s) x q :=
      Act.ends_abandon (hleft rfl) fun e => hleft (by rw [Instance.sequences_fail])
    exact Ends.on (Ends.map hends)
  | _ => exact Instance.handOff_of_sequences (sequences_on rfl) q

/-- Only the entering of a loop opens a sequence. -/
theorem size_on (hc : ∀ shape t, c ≠ .iterate shape t) :
    (c.act.on x).2.sequences.size = x.sequences.size := by
  have hset (s : SequenceId) (p : HandOff Token) :
      (x.setHandOff s p).sequences.size = x.sequences.size := by simp [Instance.setHandOff]
  by_cases hstreams : c.streams = false
  · rw [sequences_on hstreams]
  refine Ends.on (P := fun y => y.sequences.size = x.sequences.size) ?_
  cases c with
  | iterate shape t => exact absurd rfl (hc shape t)
  | endIteration t s body =>
    refine Ends.map ((Iterator.ends_endIteration t s body x).mono (fun r y hy => ?_)
      fun _ y hy => by rw [hy])
    rw [hy.sequences]
    exact hset s _
  | take s =>
    exact Ends.map (Act.ends_take? (fun _ => rfl) (fun t _ => hset s _) fun t u rest _ => hset s _)
  | abandon s =>
    refine Ends.map (Act.ends_abandon (hset s _) fun e => ?_)
    rw [Instance.sequences_fail]
    exact hset s _
  | _ => exact absurd rfl hstreams

/-- No sequence is ever removed. -/
theorem size_le (c : Call) (x : Instance) :
    x.sequences.size ≤ (c.act.on x).2.sequences.size := by
  cases c with
  | iterate shape t =>
    refine Ends.on (P := fun y => x.sequences.size ≤ y.sequences.size) ?_
    refine Ends.map ((Iterator.ends_enter shape t x).mono (fun r y hy => ?_) fun _ y hy => ?_)
    · rcases hy.sequences with hy | hy <;> simp [hy]
    · rcases hy with hy | hy <;> simp [hy]
  | _ => exact Nat.le_of_eq (size_on fun _ _ h => by cases h).symm

/-! ## What cannot be undone -/

/-- **One call is one step of every passage.** -/
theorem step_on (hlt : q.index < x.sequences.size) :
    (x.handOff q).Step ((c.act.on x).2.handOff q) := by
  rw [handOff_on hlt]
  unfold passed
  split
  · split
    · exact .take
    · exact .stay
  · split
    · exact .leave
    · exact .stay
  · split
    · next t s body hq =>
      rw [← Instance.handOff_congr hq]
      split
      · next progress hok =>
        have hended := (Iterator.ends_endIteration t s body x).of_ok hok
        cases progress with
        | delivered => exact .put _ (hended.delivered rfl).1
        | waiting => exact .put _ (hended.waiting rfl).1
        | closed => exact .close
      · exact .stay
    · exact .stay
  · exact .stay

end Call

/-- One instance came from the other by calls: no passage opened again, and none that was closed
and empty received anything. -/
structure Instance.Flowed (x y : Instance) : Prop where
  size : x.sequences.size ≤ y.sequences.size
  closed : ∀ q : SequenceId, q.index < x.sequences.size →
    (x.handOff q).closed = true → (y.handOff q).closed = true
  abandoned : ∀ q : SequenceId, q.index < x.sequences.size →
    (x.handOff q).abandoned = true → (y.handOff q).abandoned = true
  drained : ∀ q : SequenceId, q.index < x.sequences.size → (x.handOff q).isClosed = true →
    (x.handOff q).queue = [] → (y.handOff q).queue = []

namespace Instance.Flowed

variable {x y z : Instance} {q : SequenceId}

theorem refl (x : Instance) : x.Flowed x :=
  ⟨Nat.le_refl _, fun _ _ h => h, fun _ _ h => h, fun _ _ _ h => h⟩

theorem isClosed (h : x.Flowed y) (hlt : q.index < x.sequences.size)
    (hclosed : (x.handOff q).isClosed = true) : (y.handOff q).isClosed = true := by
  rcases Bool.or_eq_true_iff.1 hclosed with hc | ha
  · exact Bool.or_eq_true_iff.2 (.inl (h.closed q hlt hc))
  · exact Bool.or_eq_true_iff.2 (.inr (h.abandoned q hlt ha))

theorem trans (h : x.Flowed y) (h' : y.Flowed z) : x.Flowed z where
  size := Nat.le_trans h.size h'.size
  closed q hlt hq := h'.closed q (Nat.lt_of_lt_of_le hlt h.size) (h.closed q hlt hq)
  abandoned q hlt hq := h'.abandoned q (Nat.lt_of_lt_of_le hlt h.size) (h.abandoned q hlt hq)
  drained q hlt hclosed hqueue := h'.drained q (Nat.lt_of_lt_of_le hlt h.size)
    (h.isClosed hlt hclosed) (h.drained q hlt hclosed hqueue)

end Instance.Flowed

theorem Call.flowed (c : Call) (x : Instance) : x.Flowed (c.act.on x).2 where
  size := c.size_le x
  closed _ hlt := (c.step_on hlt).closed
  abandoned _ hlt := (c.step_on hlt).abandoned
  drained _ hlt := (c.step_on hlt).drained

/-! ## Takes of a session -/

namespace SessionM

variable {s : Session} {i : InstanceId} {x : Instance} {q : SequenceId}

theorem on_take?_nil (hqueue : (x.handOff q).queue = []) :
    (Iterator.take? q).on x = (.ok none, x) := by
  rw [Act.on_take?, HandOff.take?, hqueue]

/-- A take from an empty passage. -/
theorem run_take_nil (hx : s.world.instance? i = some x) (hqueue : (x.handOff q).queue = [])
    (dest : String) :
    (take i q dest).run s =
      (if (x.handOff q).isClosed || !s.vars.feeds i q then .ended else .pending,
        { s with world := (s.world.on i (Iterator.take? q)).2 }) := by
  have hon := on_take?_nil hqueue
  have hresult : (s.world.on i (Iterator.take? q)).1 = .ok none := by rw [World.on_eq hx, hon]
  have hsame : (s.world.on i (Iterator.take? q)).2.instance? i = some x := by
    rw [World.instance?_on_self hx, hon]
  unfold take
  rw [run_on, hresult]
  simp only [StateT.run_bind, StateT.run_get, pure_bind, hsame, Option.any_some]
  split <;> rfl

/-- A take finds the first body. -/
theorem run_take_cons (hx : s.world.instance? i = some x) {t : Token} {rest : List Token}
    (hqueue : (x.handOff q).queue = t :: rest) (dest : String) :
    (take i q dest).run s = (.body t.site, ((store dest (.state ⟨i, t⟩)).run
      { s with world := (s.world.on i (Iterator.take? q)).2 }).2) := by
  have hresult : (s.world.on i (Iterator.take? q)).1 = .ok (some t) := by
    rw [World.on_eq hx, Act.on_take?, HandOff.take?, hqueue]
  unfold take
  rw [run_on, hresult]
  rfl

end SessionM

namespace Session

variable {s : Session} {i : InstanceId} {x : Instance} {q : SequenceId}

theorem flowed_after (hx : s.world.instance? i = some x) (moves : List Move) :
    ∃ y, (s.after moves).world.instance? i = some y ∧ x.Flowed y :=
  related_after .refl .trans Call.flowed hx moves

/-- **From a passage that is closed and empty nothing is taken any more.** -/
theorem take_drained (hx : s.world.instance? i = some x) (hlt : q.index < x.sequences.size)
    (hclosed : (x.handOff q).isClosed = true) (hqueue : (x.handOff q).queue = [])
    (moves : List Move) (dest : String) :
    ((SessionM.take i q dest).run (s.after moves)).1 = .ended := by
  obtain ⟨y, hy, hflowed⟩ := flowed_after hx moves
  rw [SessionM.run_take_nil hy (hflowed.drained q hlt hclosed hqueue),
    hflowed.isClosed hlt hclosed]
  rfl

/-! ## Sequences that are opened -/

/-- The sequence that a move opens, with its instance. -/
def opened? (s : Session) (m : Move) : Option (InstanceId × SequenceId) :=
  match s.attempt? m with
  | some (h, .iterate shape t) =>
    match (s.world.on h.owner (Iterator.enter shape t)).1 with
    | .ok (q, _) => some (h.owner, q)
    | .error _ => none
  | _ => none

/-- One of the moves opened the sequence. -/
def Opened (s : Session) (moves : List Move) (i : InstanceId) (q : SequenceId) : Prop :=
  ∃ before m later, moves = before ++ m :: later ∧ (s.after before).opened? m = some (i, q)

/-- A sequence is opened where a loop is entered. -/
theorem exists_of_opened? {m : Move} (h : s.opened? m = some (i, q)) :
    ∃ (x y : Instance) (shape : LoopShape) (t : Token), s.world.instance? i = some x ∧
      s.attempt? m = some (⟨i, t⟩, .iterate shape t) ∧ t.isConsumed x = false ∧
      (s.world.on i (Call.iterate shape t).act).2.instance? i = some y ∧
      Iterator.Opened x shape q y := by
  unfold opened? at h
  split at h
  · next g shape t hattempt =>
    split at h
    · next r after hok =>
      obtain ⟨rfl, rfl⟩ := Prod.mk.inj (Option.some.inj h)
      have huses := uses_of_attempt? hattempt
      obtain ⟨owner, t'⟩ := g
      obtain rfl : t = t' := Option.some.inj huses
      cases hx : s.world.instance? owner with
      | none => simp [World.on_of_none hx] at hok
      | some x =>
        rw [World.on_eq hx] at hok
        refine ⟨x, _, shape, t, rfl, hattempt, ?_, World.instance?_on_self hx _, ?_⟩
        · have hcall : ((Call.iterate shape t).act.on x).1 = .ok (.sequence r after) := by
            rw [Call.act, Act.on_map, hok]
            rfl
          exact Call.unused_of_ok rfl hcall
        · rw [Call.act, Act.on_map]
          exact (Iterator.ends_enter shape t x).of_ok hok
    · cases h
  · cases h

/-- What is left of an instance after a move that opened a sequence on it, and after all moves that
follow. -/
theorem flowed_of_attempt {m : Move} {h : Handle} {c : Call} {y : Instance}
    (hattempt : s.attempt? m = some (h, c))
    (hy : (s.world.on h.owner c.act).2.instance? i = some y) (later : List Move) :
    ∃ z, (s.after (m :: later)).world.instance? i = some z ∧ y.Flowed z := by
  obtain ⟨y', hy', hflowed⟩ := (opens_attempt hattempt).idle.related .refl .trans
    (fun c x _ => c.flowed x) hy
  obtain ⟨z, hz, hflowed'⟩ := flowed_after (s := s.after [m]) hy' later
  exact ⟨z, hz, hflowed.trans hflowed'⟩

end Session

end LoopProtocol
