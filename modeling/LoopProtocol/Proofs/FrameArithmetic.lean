import LoopProtocol.Proofs.FrameCount
import LoopProtocol.Proofs.IdleMove
import LoopProtocol.Proofs.Recording
import LoopProtocol.Proofs.Routine

/-!
# The arithmetic of frames

The words of a frame are computed without a check: the last index is the bound less one, the bound
is the last index plus one, and the current index is incremented even in the last iteration. None of
it wraps, for bounds up to the largest word, and that is due to no single operation: a frame that is
past its last iteration is on top, and what comes next takes it off or aborts its instance.

So the numbers are followed through the steps of every call. Between calls an instance is `Settled`,
and its frames are within their loops until it is aborted. Between the steps of a call its innermost
frame may be one past its loop (`Advanced`), and nothing but a step that needs no arithmetic happens
until it is known whether it is.
-/

namespace LoopProtocol

/-! ## Words as numbers -/

namespace Frame

variable {f : Frame}

theorem toNat_bound (hlimit : f.last.toNat + 1 < Bound.limit) :
    f.bound.toNat = f.last.toNat + 1 := by
  rw [bound, UInt64.toNat_add]
  exact Nat.mod_eq_of_lt (by simpa [Bound.limit, UInt64.size] using hlimit)

/-- What remains and what was completed make up the loop, also past its last iteration. -/
theorem toNat_remaining (hlimit : f.last.toNat + 1 < Bound.limit)
    (hle : f.current.toNat ≤ f.last.toNat + 1) :
    f.remaining.toNat + f.current.toNat = f.last.toNat + 1 := by
  have hbound := toNat_bound hlimit
  have hwithin : f.current ≤ f.bound := by rwa [UInt64.le_iff_toNat_le, hbound]
  rw [remaining, if_pos hwithin, UInt64.toNat_sub_of_le _ _ hwithin, hbound]
  omega

end Frame

namespace FrameStack

/-- Every loop is on the stack once, no bound is too large for its word, and only the innermost
frame may be past its last iteration, by one. -/
structure Sound (s : FrameStack) : Prop where
  distinct : (s.frames.map (·.id)).Nodup
  limit : ∀ f ∈ s.frames, f.last.toNat + 1 < Bound.limit
  current_le : ∀ f ∈ s.frames, f.current.toNat ≤ f.last.toNat + 1
  below : ∀ f ∈ s.frames.tail, f.current.toNat ≤ f.last.toNat

/-- What one operation may do to a stack, with every result a number. -/
inductive Step : FrameStack → FrameStack → Prop where
  | stay (s : FrameStack) : Step s s
  | push {s : FrameStack} {id : LoopId} {b : Bound} :
    (∀ f ∈ s.frames, f.id ≠ id ∧ f.current.toNat ≤ f.last.toNat) →
    (Frame.start id b).last.toNat = b.count.toNat - 1 → 0 < b.count.toNat → Step s (s.push id b)
  | advance {top : Frame} {below : List Frame} : top.current.toNat ≤ top.last.toNat →
    top.advance.current.toNat = top.current.toNat + 1 →
    top.remaining.toNat = top.advance.remaining.toNat + 1 →
    Step ⟨top :: below⟩ ⟨top.advance :: below⟩
  | pop {top : Frame} {below : List Frame} : top.last.toNat ≤ top.current.toNat →
    Step ⟨top :: below⟩ ⟨below⟩

variable {s s' : FrameStack}

theorem sound_empty : empty.Sound := ⟨.nil, nofun, nofun, nofun⟩

/-- **Every step leaves a sound stack sound.** -/
theorem Step.sound (h : s.Step s') (hs : s.Sound) : s'.Sound := by
  cases h with
  | stay => exact hs
  | @push s id b hnew hlast hpos =>
    refine ⟨?_, ?_, ?_, fun f hf => (hnew f hf).2⟩
    · refine List.nodup_cons.2 ⟨?_, hs.distinct⟩
      simpa [Frame.start] using fun f hf => (hnew f hf).1
    · refine List.forall_mem_cons.2 ⟨?_, hs.limit⟩
      have := b.count_lt_limit
      omega
    · exact List.forall_mem_cons.2 ⟨Nat.zero_le _, hs.current_le⟩
  | @advance top below hle hnext _ =>
    refine ⟨hs.distinct, ?_, ?_, hs.below⟩
    · exact List.forall_mem_cons.2 (List.forall_mem_cons.1 hs.limit)
    · refine List.forall_mem_cons.2 ⟨?_, (List.forall_mem_cons.1 hs.current_le).2⟩
      rw [hnext, Frame.last_advance]
      exact Nat.succ_le_succ hle
  | @pop top below _ =>
    refine ⟨(List.nodup_cons.1 hs.distinct).2, (List.forall_mem_cons.1 hs.limit).2,
      (List.forall_mem_cons.1 hs.current_le).2, fun f hf => ?_⟩
    exact hs.below f (List.mem_of_mem_tail hf)

/-- The innermost frame of a sound stack is advanced within its loop. -/
theorem Sound.step_advance {top : Frame} {below : List Frame} (hs : Sound ⟨top :: below⟩)
    (hle : top.current.toNat ≤ top.last.toNat) : Step ⟨top :: below⟩ ⟨top.advance :: below⟩ := by
  have hlimit := hs.limit top List.mem_cons_self
  have hnext := Frame.toNat_current_advance hle hlimit
  have hbefore := Frame.toNat_remaining hlimit (Nat.le_succ_of_le hle)
  have hafter := Frame.toNat_remaining (f := top.advance) hlimit
    (by rw [hnext, Frame.last_advance]; omega)
  refine .advance hle hnext ?_
  rw [hnext, Frame.last_advance] at hafter
  omega

end FrameStack

/-! ## The steps of a call -/

/-- What an operation may do to an instance. -/
structure Instance.Counts (x y : Instance) : Prop where
  step : x.stack.Step y.stack
  frozen : x.aborted = true → y.aborted = true ∧ y.stack = x.stack

/-- An instance between two calls. -/
structure Instance.Settled (x : Instance) : Prop where
  sound : x.stack.Sound
  current_le : x.aborted = false → ∀ f ∈ x.stack.frames, f.current.toNat ≤ f.last.toNat

/-- An instance whose innermost frame was just started or advanced. -/
structure Instance.Advanced (f : Frame) (x : Instance) : Prop where
  sound : x.stack.Sound
  top : ∃ below, x.stack.frames = f :: below

namespace Instance

variable {x y : Instance} {f : Frame}

theorem Counts.same (hstack : y.stack = x.stack) (haborted : x.aborted = true → y.aborted = true) :
    x.Counts y :=
  ⟨hstack ▸ .stay _, fun ha => ⟨haborted ha, hstack⟩⟩

theorem Counts.of_running (ha : x.aborted = false) (h : x.stack.Step y.stack) : x.Counts y :=
  ⟨h, fun hab => by rw [ha] at hab; cases hab⟩

theorem settled_of_aborted (hsound : x.stack.Sound) (ha : x.aborted = true) : x.Settled :=
  ⟨hsound, fun hrun => by rw [ha] at hrun; cases hrun⟩

/-- The frame of an iteration that is about to begin is within its loop. -/
theorem Advanced.settled (h : x.Advanced f) (hf : f.canEnter = true) : x.Settled := by
  obtain ⟨below, hframes⟩ := h.top
  refine ⟨h.sound, fun _ g hg => ?_⟩
  have hbelow := h.sound.below
  rw [hframes] at hg hbelow
  rcases List.mem_cons.1 hg with rfl | hg
  · exact Frame.canEnter_iff.1 hf
  · exact hbelow g hg

end Instance

open Instance Act

namespace Routine

variable {α β : Type} {x : Instance} {f : Frame}

/-- Every step of the routine is one that counts, from a settled instance to a settled one. -/
def Counts (r : Routine α) : Prop :=
  ∀ x : Instance, x.Settled → r.Always Instance.Counts Settled x fun _ => Settled

end Routine

/-- An operation that leaves the stack as it is, however it ends. -/
def Operation.IsAside {α : Type} : Operation α → Prop
  | activate _ | complete _ | exit _ => False
  | _ => True

theorem Operation.ends_aside {α : Type} {o : Operation α} (ho : o.IsAside) (x : Instance) :
    o.act.Ends x
      (fun _ y => y.stack = x.stack ∧ (x.aborted = true → y.aborted = true))
      fun _ y => y.stack = x.stack ∧ y.aborted = true := by
  have hfail (e : Fault) : (x.fail e).stack = x.stack ∧ (x.fail e).aborted = true :=
    ⟨x.stack_fail e, x.aborted_fail e⟩
  cases o with
  | consume t => exact ends_consume hfail fun _ => ⟨rfl, id⟩
  | iteration frame => exact ends_iteration ⟨rfl, id⟩
  | ensureClosed id => exact ends_ensureClosed hfail fun _ _ => ⟨rfl, fun h => h⟩
  | accept label => exact ends_accept ⟨rfl, id⟩
  | terminate => exact ends_terminate hfail fun _ _ => ⟨rfl, id⟩
  | issue site feed => exact ends_issue ⟨rfl, id⟩
  | setParam name bound => exact ends_setParam ⟨rfl, id⟩
  | openSequence id => exact ends_openSequence ⟨rfl, fun h => h⟩
  | handOver s body => exact ends_handOver hfail fun _ _ _ => ⟨rfl, id⟩
  | closeSequence s => exact ends_closeSequence ⟨rfl, id⟩
  | take s =>
    exact ends_take? (fun _ => ⟨rfl, id⟩) (fun _ _ => ⟨rfl, id⟩) fun _ _ _ _ => ⟨rfl, id⟩
  | abandon s =>
    refine ends_abandon ⟨rfl, id⟩ fun e => ⟨Instance.stack_fail _ e, fun _ => ?_⟩
    exact Instance.aborted_fail _ e
  | abort fault => exact ends_abort (hfail fault)
  | activate | complete | exit => exact ho.elim

namespace Routine

variable {α β : Type} {x : Instance} {f : Frame}

theorem counts_pure (a : α) : (pure a : Routine α).Counts := fun _ hx => hx

theorem Counts.bind {r : Routine α} {g : α → Routine β} (h : r.Counts) (hg : ∀ a, (g a).Counts) :
    (r >>= g).Counts := fun x hx => (h x hx).andThen fun a y hy => hg a y hy

theorem Counts.map {r : Routine α} (h : r.Counts) (g : α → β) : (g <$> r).Counts :=
  h.bind fun a => counts_pure (g a)

theorem counts_aside (o : Operation α) (ho : o.IsAside := by trivial) : (once o).Counts := by
  intro x hx
  refine always_once ((o.ends_aside ho x).mono (fun a y hy => ⟨.same hy.1 hy.2, ?_, ?_⟩) ?_)
  · exact hy.1 ▸ hx.sound
  · intro hrun
    rw [hy.1]
    refine hx.current_le ?_
    cases ha : x.aborted with
    | false => rfl
    | true => rw [hy.2 ha] at hrun; cases hrun
  · exact fun _ y hy => ⟨.same hy.1 fun _ => hy.2, settled_of_aborted (hy.1 ▸ hx.sound) hy.2⟩

/-- Steps that leave the stack alone while it is not known whether the frame is past its loop. -/
theorem always_aside (o : Operation α) (hx : x.Advanced f) (ho : o.IsAside := by trivial) :
    (once o).Always Instance.Counts Settled x fun _ => Advanced f := by
  refine always_once ((o.ends_aside ho x).mono (fun a y hy => ⟨.same hy.1 hy.2, ?_, ?_⟩) ?_)
  · exact hy.1 ▸ hx.sound
  · exact hy.1 ▸ hx.top
  · exact fun _ y hy => ⟨.same hy.1 fun _ => hy.2, settled_of_aborted (hy.1 ▸ hx.sound) hy.2⟩

theorem fails_settled (hx : x.stack.Sound) (e : Fault) :
    x.Counts (x.fail e) ∧ (x.fail e).Settled :=
  ⟨.same (x.stack_fail e) fun _ => x.aborted_fail e,
    settled_of_aborted ((x.stack_fail e).symm ▸ hx) (x.aborted_fail e)⟩

/-- A settled instance whose innermost frame is advanced. -/
theorem advance_top {top : Frame} {below : List Frame} (hx : x.Settled) (ha : x.aborted = false)
    (hs : x.stack.frames = top :: below) {y : Instance} (hy : y.stack = ⟨top.advance :: below⟩) :
    x.Counts y ∧ y.Advanced top.advance := by
  have hstack := FrameStack.eq_of_frames hs
  have hle := hx.current_le ha top (by rw [hs]; exact List.mem_cons_self)
  have hstep : x.stack.Step y.stack := by
    rw [hstack, hy]
    exact (hstack ▸ hx.sound).step_advance hle
  exact ⟨.of_running ha hstep, hstep.sound hx.sound, below, by rw [hy]⟩

theorem always_activate (head : LoopHead) (hx : x.Settled) :
    (once (.activate head)).Always Instance.Counts Settled x Advanced := by
  refine always_once (ends_activate (fails_settled hx.sound) ?_ ?_)
  · exact fun top below ha hs _ => advance_top hx ha hs rfl
  · intro b ha hc _
    have hlast := Frame.toNat_last_start head.id b
    have hnew := FrameStack.contains_eq_false_iff.1 hc
    have hstep : x.stack.Step (x.stack.push head.id b) :=
      .push (fun f hf => ⟨hnew f hf, hx.current_le ha f hf⟩) (by omega) b.toNat_count_pos
    exact ⟨.of_running ha hstep, hstep.sound hx.sound, x.stack.frames, rfl⟩

theorem always_complete (id : LoopId) (hx : x.Settled) :
    (once (.complete id)).Always Instance.Counts Settled x Advanced :=
  always_once (ends_complete (fails_settled hx.sound) fun _ _ ha hs _ => advance_top hx ha hs rfl)

/-- Leaving a loop needs nothing but a sound stack. -/
theorem always_exit (id : LoopId) (hx : x.stack.Sound) :
    (once (.exit id)).Always Instance.Counts Settled x fun _ => Settled := by
  refine always_once (ends_exit (fails_settled hx) fun top below ha hs _ hn => ?_)
  have hstep : x.stack.Step ⟨below⟩ := by
    rw [FrameStack.eq_of_frames hs]
    exact .pop (Frame.hasNext_eq_false_iff.1 hn)
  have hbelow := hx.below
  rw [hs] at hbelow
  exact ⟨.of_running ha hstep, hstep.sound hx, fun _ => hbelow⟩

/-! ## The routine of every call -/

theorem counts_consume (t : Token) : (once (.consume t)).Counts := counts_aside (.consume t)

theorem counts_issue (site : Site) (feed : Option SequenceId) :
    (once (.issue site feed)).Counts := counts_aside (.issue site feed)

theorem counts_use (t : Token) (u : Use) : (use t u).Counts := by
  cases u with
  | consume => exact counts_consume t
  | send label => exact (counts_consume t).bind fun _ => counts_aside (.accept label)
  | sendAfter id label =>
    exact (counts_consume t).bind fun _ => (counts_aside (.ensureClosed id)).bind fun _ =>
      counts_aside (.accept label)
  | terminate => exact (counts_consume t).bind fun _ => counts_aside .terminate
  | terminateAfter id =>
    exact (counts_consume t).bind fun _ => (counts_aside (.ensureClosed id)).bind fun _ =>
      counts_aside .terminate

theorem counts_sendAt (t : Token) (point : SendPoint) : (sendAt t point).Counts := by
  unfold sendAt
  cases point.closes with
  | none => exact (counts_use t _).bind fun _ => counts_issue _ _
  | some id => exact (counts_use t _).bind fun _ => counts_issue _ _

theorem counts_finish (t : Token) (closes : Option LoopId) : (finish t closes).Counts := by
  cases closes with
  | none => exact counts_use t .terminate
  | some id => exact counts_use t (.terminateAfter id)

/-- A polled loop is entered, or found past its last iteration and its instance aborted. -/
theorem counts_pollingEnter (shape : LoopShape) (head : Token) :
    (pollingEnter shape head).Counts := by
  refine (counts_consume head).bind fun _ x hx => ?_
  refine (always_activate shape.head hx).andThen fun f y hy => ?_
  cases hf : f.canEnter with
  | true =>
    exact ((counts_aside (.iteration f)).bind fun _ => counts_issue _ _) y (hy.settled hf)
  | false => exact always_once (ends_abort (fails_settled hy.sound _))

theorem counts_pollingExit (shape : LoopShape) (head : Token) : (pollingExit shape head).Counts :=
  (counts_consume head).bind fun _ => Counts.bind (fun _ hx => always_exit _ hx.sound) fun _ =>
    counts_issue _ _

theorem always_callbackTurn (shape : LoopShape) (hx : x.Advanced f) :
    (callbackTurn shape f).Always Instance.Counts Settled x fun _ => Settled := by
  unfold callbackTurn
  cases hf : f.canEnter with
  | true =>
    exact (counts_aside (.iteration f)).bind (fun _ => (counts_issue _ _).bind fun _ =>
      counts_pure _) x (hx.settled hf)
  | false =>
    exact (always_exit _ hx.sound).andThen fun _ y hy =>
      ((counts_issue _ _).bind fun _ => counts_pure _) y hy

theorem counts_callbackBegin (shape : LoopShape) (head : Token) :
    (callbackBegin shape head).Counts :=
  (counts_consume head).bind fun _ _ hx =>
    (always_activate shape.head hx).andThen fun _ _ hy => always_callbackTurn shape hy

theorem counts_callbackAdvance (shape : LoopShape) : (callbackAdvance shape).Counts := fun _ hx =>
  (always_complete shape.head.id hx).andThen fun _ _ hy => always_callbackTurn shape hy

theorem always_iteratorTurn (s : SequenceId) (body : Site) (hx : x.Advanced f) :
    (iteratorTurn s f body).Always Instance.Counts Settled x fun _ => Settled := by
  unfold iteratorTurn
  cases hf : f.canEnter with
  | true =>
    exact (counts_aside (.iteration f)).bind (fun _ => (counts_issue _ _).bind fun token =>
      counts_aside (.handOver s token)) x (hx.settled hf)
  | false =>
    exact (always_exit _ hx.sound).andThen fun _ y hy =>
      ((counts_aside (.closeSequence s)).bind fun _ => counts_pure _) y hy

/-- A sequence is opened before it is known whether the loop has an iteration to come. -/
theorem counts_iteratorEnter (shape : LoopShape) (head : Token) :
    (iteratorEnter shape head).Counts := by
  refine (counts_consume head).bind fun _ x hx => ?_
  refine (always_activate shape.head hx).andThen fun f y hy => ?_
  refine (always_aside (.openSequence shape.head.id) hy).andThen fun s z hz => ?_
  refine (always_iteratorTurn s shape.body hz).andThen fun _ u hu => ?_
  exact ((counts_issue _ _).bind fun _ => counts_pure _) u hu

theorem counts_endIteration (tail : Token) (s : SequenceId) (body : Site) :
    (endIteration tail s body).Counts :=
  (counts_consume tail).bind fun _ _ hx =>
    (always_complete s.loop hx).andThen fun _ _ hy => always_iteratorTurn s body hy

end Routine

namespace Call

open Routine

/-- **Every step of every call counts.** -/
theorem counts (c : Call) : c.routine.Counts := by
  cases c with
  | issue site => exact (counts_issue site none).map _
  | fork t => exact (counts_issue .item t.feed).map _
  | setParam name bound => exact (counts_aside (.setParam name bound)).map _
  | use t u => exact (counts_use t u).map _
  | send t point => exact (counts_sendAt t point).map _
  | finish t closes => exact (counts_finish t closes).map _
  | enter shape head => exact (counts_pollingEnter shape head).map _
  | exit shape head => exact (counts_pollingExit shape head).map _
  | iterate shape head => exact (counts_iteratorEnter shape head).map _
  | endIteration tail s body => exact (counts_endIteration tail s body).map _
  | take s => exact (counts_aside (.take s)).map _
  | abandon s => exact (counts_aside (.abandon s)).map _
  | begin shape head => exact (counts_callbackBegin shape head).map _
  | giveBack tail => exact (counts_consume tail).map _
  | advance shape j => exact (counts_callbackAdvance shape).map _
  | fail fault => exact (counts_aside (.abort fault : Operation Unit)).map _

/-- A call leaves a settled instance settled. -/
theorem settled (c : Call) {x : Instance} (hx : x.Settled) : (c.act.on x).2.Settled := by
  have hends := (c.counts x hx).ends
  rw [run_routine] at hends
  exact hends.on

end Call

/-! ## All that an instance passes through -/

/-- The points at which an instance is in the course of a deed. -/
def Deed.passes (w : World) (i : InstanceId) : Deed → List Instance
  | .call j c =>
    if j = i then (w.instance? i).elim [] c.routine.points else (w.instance? i).toList
  | .clear _ => (w.instance? i).toList

namespace World

/-- Does deeds one after another. -/
def performAll (w : World) (es : List Deed) : World := es.foldl perform w

/-- The points at which an instance is in the course of deeds. -/
def passes : World → InstanceId → List Deed → List Instance
  | w, i, [] => (w.instance? i).toList
  | w, i, e :: es => e.passes w i ++ (w.perform e).passes i es

variable {w w' : World} {i : InstanceId} {x : Instance}

theorem Steps.exists_performAll {kind : Deed → Prop} (h : w.Steps kind w') :
    ∃ es, w.performAll es = w' := by
  induction h with
  | refl w => exact ⟨[], rfl⟩
  | @cons w w' e _ _ ih =>
    obtain ⟨es, hes⟩ := ih
    exact ⟨e :: es, hes⟩

/-- A deed leads an instance on. -/
theorem exists_perform (hx : w.instance? i = some x) (hsettled : x.Settled) (e : Deed) :
    ∃ y, (w.perform e).instance? i = some y ∧ y.Settled ∧ (e.passes w i).head? = some x ∧
      (e.passes w i).getLast? = some y ∧ (e.passes w i).IsChain Instance.Counts := by
  have hstay : (w.instance? i).toList = [x] := by rw [hx]; rfl
  cases e with
  | clear r =>
    refine ⟨x, hx, hsettled, ?_⟩
    simp only [Deed.passes, hstay]
    exact ⟨rfl, rfl, .singleton x⟩
  | call j c =>
    by_cases hij : j = i
    · subst hij
      refine ⟨_, instance?_on_self hx c.act, c.settled hsettled, ?_⟩
      simp only [Deed.passes, if_pos, hx, Option.elim_some]
      refine ⟨c.routine.head?_points x, ?_, (c.counts x hsettled).isChain⟩
      rw [c.routine.getLast?_points, c.run_routine]
    · refine ⟨x, (instance?_on_of_ne (Ne.symm hij) c.act).trans hx, hsettled, ?_⟩
      simp only [Deed.passes, if_neg hij, hstay]
      exact ⟨rfl, rfl, .singleton x⟩

/-- **So do deeds one after another.** -/
theorem exists_performAll (hx : w.instance? i = some x) (hsettled : x.Settled) (es : List Deed) :
    ∃ y, (w.performAll es).instance? i = some y ∧ y.Settled ∧ (w.passes i es).head? = some x ∧
      (w.passes i es).getLast? = some y ∧ (w.passes i es).IsChain Instance.Counts := by
  induction es generalizing w x with
  | nil =>
    refine ⟨x, hx, hsettled, ?_⟩
    simp only [passes, hx, Option.toList_some]
    exact ⟨rfl, rfl, .singleton x⟩
  | cons e es ih =>
    obtain ⟨y, hy, hysettled, hhead, hlast, hchain⟩ := exists_perform hx hsettled e
    obtain ⟨z, hz, hzsettled, hhead', hlast', hchain'⟩ := ih hy hysettled
    refine ⟨z, hz, hzsettled, ?_, ?_, ?_⟩
    · simp [passes, hhead]
    · simp [passes, hlast']
    · refine List.isChain_append.2 ⟨hchain, hchain', fun u hu v hv => ?_⟩
      obtain rfl : y = u := Option.some.inj (hlast.symm.trans hu)
      obtain rfl : y = v := Option.some.inj (hhead'.symm.trans hv)
      exact .same rfl id

/-- An instance that does not exist passes through nothing. -/
theorem passes_of_none (hnone : w.instance? i = none) (es : List Deed) :
    w.passes i es = [] ∧ (w.performAll es).instance? i = none := by
  induction es generalizing w with
  | nil => exact ⟨by simp [passes, hnone], hnone⟩
  | cons e es ih =>
    have hstill : (w.perform e).instance? i = none := by
      cases e with
      | clear r => exact hnone
      | call j c =>
        by_cases hij : i = j
        · subst hij
          rw [perform, on_of_none hnone]
          exact hnone
        · exact (instance?_on_of_ne hij c.act).trans hnone
    have hpasses : e.passes w i = [] := by
      cases e with
      | clear r => simp [Deed.passes, hnone]
      | call j c => simp [Deed.passes, hnone]
    obtain ⟨hrest, hend⟩ := ih hstill
    exact ⟨by rw [passes, hpasses, hrest]; rfl, hend⟩

end World

namespace Session

/-- No word of a frame wraps, whatever is done from here on. -/
structure NeverWraps (s : Session) : Prop where
  /-- At every point every stack is sound, -/
  sound : ∀ i es, ∀ x ∈ s.world.passes i es, x.stack.Sound
  /-- and its words are the numbers that they stand for. -/
  exact : ∀ i es, ∀ x ∈ s.world.passes i es, ∀ f ∈ x.stack.frames,
    f.bound.toNat = f.last.toNat + 1 ∧ f.remaining.toNat + f.current.toNat = f.last.toNat + 1
  /-- From each point to the next is a step of the stack, and none after an abort. -/
  counts : ∀ i es, (s.world.passes i es).IsChain Instance.Counts
  /-- The last point is what the deeds leave. -/
  last : ∀ i es, (s.world.passes i es).getLast? = (s.world.performAll es).instance? i
  /-- After deeds the frames of an instance that runs are within their loops. -/
  within : ∀ i es x, (s.world.performAll es).instance? i = some x → x.aborted = false →
    ∀ f ∈ x.stack.frames, f.current.toNat ≤ f.last.toNat
  /-- Every move consists of deeds. -/
  moves : ∀ m, ∃ es, s.world.performAll es = (s.after [m]).world

variable {s : Session} {i : InstanceId} {x : Instance}

theorem neverWraps_of_settled (hs : ∀ i x, s.world.instance? i = some x → x.Settled) :
    s.NeverWraps := by
  have hpasses (i : InstanceId) (es : List Deed) :
      (s.world.passes i es).IsChain Instance.Counts ∧
        (s.world.passes i es).getLast? = (s.world.performAll es).instance? i ∧
        (∀ x ∈ s.world.passes i es, x.stack.Sound) ∧
        ∀ x, (s.world.performAll es).instance? i = some x → x.Settled := by
    cases hx : s.world.instance? i with
    | none =>
      obtain ⟨hnil, hnone⟩ := World.passes_of_none hx es
      simp [hnil, hnone]
    | some x =>
      obtain ⟨y, hy, hsettled, hhead, hlast, hchain⟩ := World.exists_performAll hx (hs i x hx) es
      refine ⟨hchain, hlast.trans hy.symm, ?_, fun z hz => ?_⟩
      · refine hchain.induction (fun z => z.stack.Sound) _ (fun _ _ h => h.step.sound) fun hne => ?_
        rw [List.head?_eq_some_head hne, Option.some.injEq] at hhead
        rw [hhead]
        exact (hs i x hx).sound
      · obtain rfl : y = z := Option.some.inj (hy.symm.trans hz)
        exact hsettled
  refine ⟨fun i es => (hpasses i es).2.2.1, fun i es x hx f hf => ?_, fun i es => (hpasses i es).1,
    fun i es => (hpasses i es).2.1, fun i es x hx => ((hpasses i es).2.2.2 x hx).current_le,
    fun m => (steps_move s m).exists_performAll⟩
  have hsound := (hpasses i es).2.2.1 x hx
  exact ⟨Frame.toNat_bound (hsound.limit f hf),
    Frame.toNat_remaining (hsound.limit f hf) (hsound.current_le f hf)⟩

/-- **The arithmetic of frames never wraps**, for any bounds that a word holds, and in every session
on any instances. -/
theorem never_wraps (recorders : Nat) (instances : List (BoundTable × Option RecorderId))
    (moves : List Move) : ((start recorders instances).after moves).NeverWraps := by
  refine neverWraps_of_settled fun i y hy => ?_
  have hstart (x : Instance) (hx : (start recorders instances).world.instance? i = some x) :
      x.Settled := by
    rw [instance?_start, Option.map_eq_some_iff] at hx
    obtain ⟨p, -, rfl⟩ := hx
    exact ⟨FrameStack.sound_empty, fun _ => nofun⟩
  obtain ⟨es, hes⟩ := (steps_after (start recorders instances) moves).exists_performAll
  rw [← hes] at hy
  cases hx : (start recorders instances).world.instance? i with
  | none =>
    rw [(World.passes_of_none hx es).2] at hy
    cases hy
  | some x =>
    obtain ⟨z, hz, hsettled, -⟩ := World.exists_performAll hx (hstart x hx) es
    obtain rfl : y = z := Option.some.inj (hy.symm.trans hz)
    exact hsettled

end Session

end LoopProtocol
