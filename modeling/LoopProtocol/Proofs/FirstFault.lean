import LoopProtocol.Proofs.Blame
import LoopProtocol.Proofs.FaultSource
import LoopProtocol.Proofs.Frozen
import Mathlib.Data.List.Induction

/-!
# The first fault of a run

A driver runs the nested protocol once on an instance, in whatever order, with whatever aliases and
bounds, and drops what it likes. The first fault that the instance has on record is what one of the
driver's transitions failed with, and its driver's own: a misuse of the protocol, or the fault of
the body of a callback loop.
-/

namespace LoopProtocol

open Act Nested

/-! ## Instances without a fault -/

/-- Whether a call uses no state and belongs to no callback loop. -/
def Call.isHarmless : Call → Bool
  | .issue _ | .fork _ | .setParam _ _ | .take _ | .abandon _ => true
  | _ => false

/-- Whether a call is a transition of the state that it uses, allowed at the state's site. -/
def Call.isTransition : Call → Bool
  | .send _ _ | .finish _ _ | .enter _ _ | .exit _ _ | .iterate _ _ | .endIteration _ _ _
  | .begin _ _ => true
  | _ => false

/-- Nothing went wrong on the instance: it runs, its log tells of no fault, and no producer waits
whose consumer could leave. -/
structure Instance.Calm (x : Instance) : Prop where
  running : x.aborted = false
  recorded : x.recorded = []
  served : ∀ q, (x.handOff q).waiting = []

/-- Who waits after some values left the queue waited before. -/
theorem HandOff.waiting_eq_nil {p p' : HandOff Token} (h : p'.queue <:+ p.queue)
    (hp : p.waiting = []) : p'.waiting = [] := by
  have hle := h.length_le
  rw [waiting, ← List.length_eq_zero_iff, List.length_tail] at hp ⊢
  omega

namespace Instance.Calm

variable {x : Instance} {c : Call}

/-- A passage that gets nothing new. -/
theorem setHandOff (h : x.Calm) {q : SequenceId} {p : HandOff Token}
    (hp : p.queue <:+ (x.handOff q).queue) : (x.setHandOff q p).Calm :=
  ⟨h.running, h.recorded, fun q' => HandOff.waiting_eq_nil (queue_setHandOff hp q') (h.served q')⟩

theorem harmless (h : x.Calm) (hc : c.isHarmless = true) : (c.act.on x).2.Calm := by
  cases c with
  | issue site | fork t =>
    exact Ends.on (P := Calm) (Ends.map (ends_issue ⟨h.running, h.recorded, h.served⟩))
  | setParam name bound =>
    exact Ends.on (P := Calm) (Ends.map (ends_setParam ⟨h.running, h.recorded, h.served⟩))
  | take q =>
    refine Ends.on (P := Calm) (Ends.map (ends_take? (fun _ => h) (fun t hq => ?_) ?_))
    · exact h.setHandOff (List.nil_suffix)
    · intro t u rest hq
      have hserved := h.served q
      simp [HandOff.waiting, hq] at hserved
  | abandon q =>
    have hon : ((Call.abandon q).act.on x).2 = x.setHandOff q (x.handOff q).abandon := by
      rw [Call.act, on_map, on_abandon, h.served q]
      rfl
    rw [hon]
    exact h.setHandOff List.nil_suffix
  | _ => cases hc

/-- A call that succeeds puts no fault on record. -/
theorem call (h : x.Calm) {grant : Grant} (hok : (c.act.on x).1 = .ok grant)
    (hc : ∀ q, c ≠ .abandon q) (hserved : (c.act.on x).2.aborted = false →
      ∀ q, ((c.act.on x).2.handOff q).waiting = []) : (c.act.on x).2.Calm := by
  obtain ⟨hrecorded, haborted⟩ := (Call.records hc x).of_ok hok
  have hrun := haborted.trans h.running
  exact ⟨hrun, hrecorded.trans h.recorded, hserved hrun⟩

end Instance.Calm

/-- The fault is on record as the first one. -/
structure Instance.Failed (x : Instance) (e : Fault) : Prop where
  aborted : x.aborted = true
  recorded : x.recorded = [e]

namespace Instance.Failed

variable {x : Instance} {c : Call} {e : Fault}

/-- No later fault takes the place of the first. -/
theorem call (h : x.Failed e) (c : Call) : (c.act.on x).2.Failed e :=
  ⟨(c.grown x).aborted h.aborted, (c.recorded_of_aborted h.aborted).trans h.recorded⟩

/-- The call failed on an instance without a fault. -/
theorem of_error (hrun : x.aborted = false) (hnone : x.recorded = [])
    (he : (c.act.on x).1 = .error e) (hc : ∀ q, c ≠ .abandon q) : (c.act.on x).2.Failed e := by
  obtain ⟨hrecorded, haborted⟩ := (Call.records hc x).of_error he
  refine ⟨haborted, hrecorded.trans ?_⟩
  simp [Instance.recorded_fail, hrun, hnone]

end Instance.Failed

namespace World.Steps

variable {kind : Deed → Prop} {w w' : World} {i : InstanceId} {x : Instance} {e : Fault}

/-- Nothing goes wrong as long as what is done on the instance is harmless. -/
theorem calm (h : w.Steps kind w') (hkind : ∀ c, kind (.call i c) → c.isHarmless = true)
    (hx : w.instance? i = some x) (hcalm : x.Calm) :
    ∃ y, w'.instance? i = some y ∧ y.Calm := by
  obtain ⟨y, hy, hrel⟩ := h.related (R := fun x y => x.Calm → y.Calm) (fun _ hx => hx)
    (fun hxy hyz hx => hyz (hxy hx)) (fun c x hc hx => hx.harmless (hkind c hc)) hx
  exact ⟨y, hy, hrel hcalm⟩

theorem failed (h : w.Steps kind w') (hx : w.instance? i = some x) (hfailed : x.Failed e) :
    ∃ y, w'.instance? i = some y ∧ y.Failed e := by
  obtain ⟨y, hy, hrel⟩ := h.related (R := fun x y => x.Failed e → y.Failed e) (fun _ hx => hx)
    (fun hxy hyz hx => hyz (hxy hx)) (fun c x _ hx => hx.call c) hx
  exact ⟨y, hy, hrel hfailed⟩

/-- Only one fault can come from what is done on the instance. -/
theorem calm_or_failed (h : w.Steps kind w')
    (hkind : ∀ c, kind (.call i c) → c.isHarmless = true ∨ c = .fail e)
    (hx : w.instance? i = some x) (hcalm : x.Calm) :
    ∃ y, w'.instance? i = some y ∧ (y.Calm ∨ y.Failed e) := by
  have hcall : ∀ c x, kind (.call i c) → x.Calm ∨ x.Failed e →
      (c.act.on x).2.Calm ∨ (c.act.on x).2.Failed e := by
    intro c x hc hx
    rcases hx with hx | hx
    · rcases hkind c hc with hc | rfl
      · exact .inl (hx.harmless hc)
      · have hon : ((Call.fail e).act.on x).1 = .error e := by
          rw [Call.act, Act.on_map, on_abort_fail]
          rfl
        exact .inr (.of_error hx.running hx.recorded hon (by simp))
    · exact .inr (hx.call c)
  obtain ⟨y, hy, hrel⟩ := h.related
    (R := fun x y => x.Calm ∨ x.Failed e → y.Calm ∨ y.Failed e) (fun _ hx => hx)
    (fun hxy hyz hx => hyz (hxy hx)) hcall hx
  exact ⟨y, hy, hrel (.inl hcalm)⟩

end World.Steps

/-! ## Along the deeds of a session -/

namespace Dealing

variable {surface : Surface} {d : Dealing} {i : InstanceId} {x : Instance} {n : Nat} {c : Call}
  {t : Token} {e : Fault}

/-- The instance of a run is in order, on whichever surface, and its loops that run have a
bound. -/
structure Orderly (d : Dealing) (surface : Surface) (i : InstanceId) (n : Nat) : Prop where
  draining : surface = .iterator → d.Draining i n
  oneAtATime : surface ≠ .iterator → d.OneAtATime surface i n
  begun : surface ≠ .callback → d.begunOn i = []
  bounded : ∀ x, d.world.instance? i = some x → x.Bounded

namespace Orderly

theorem exists_instance (h : d.Orderly surface i n) : ∃ x, d.world.instance? i = some x := by
  by_cases hsurface : surface = .iterator
  · obtain ⟨x, hx, -⟩ := (h.draining hsurface).follows.conforms
    exact ⟨x, hx⟩
  · obtain ⟨x, p, hx, -⟩ := (h.oneAtATime hsurface).phase
    exact ⟨x, hx⟩

/-- All states of the run are at places of the protocol on its surface. -/
theorem sited (h : d.Orderly surface i n) (ht : t ∈ d.givenBy i) :
    ∃ place, t.site = .nested surface place := by
  by_cases hsurface : surface = .iterator
  · subst hsurface
    obtain ⟨x, -, p, -, hp⟩ := (h.draining rfl).follows.conforms
    exact (hp.placed t (.inl ht)).imp fun _ hat => hat.site
  · obtain ⟨x, p, -, -, hp, -⟩ := (h.oneAtATime hsurface).phase
    obtain ⟨place, hplace⟩ := hp.placed t ht
    rw [hplace]
    exact exists_siteAt surface place

/-- Every head of the run has the protocol's parameter. -/
theorem param_eq (h : d.Orderly surface i n) (hc : c.Legal (d.givenBy i) (d.begunOn i))
    {head : LoopHead} (henters : c.enters? = some head) : head.param = param := by
  obtain ⟨t, via, shape, -, ht, hloop, rfl⟩ := hc.exists_head henters
  obtain ⟨place, hplace⟩ := h.sited ht
  exact param_head ((loop?_nested (hplace ▸ hloop)).2.imp (fun h => h) fun h => h)

theorem begins_eq_nil (h : d.Orderly surface i n) (hsurface : surface ≠ .callback)
    (hc : c.Legal (d.givenBy i) (d.begunOn i)) : c.begins = [] := by
  cases c with
  | begin shape t =>
    obtain ⟨place, hplace⟩ := h.sited hc.1
    exact absurd (loop?_nested (hplace ▸ hc.2)).1.symm hsurface
  | _ => rfl

theorem perform (h : d.Orderly surface i n) {e : Deed} (hlegal : d.Legal e)
    (hpermits : e.Permits surface i) (hadmits : surface = .iterator → e.Admits i)
    (hstarts : [e].countP (Deed.startsOn i) ≤ n) :
    (d.perform e).Orderly surface i (n - [e].countP (Deed.startsOn i)) := by
  refine ⟨fun hsurface => (h.draining hsurface).perform hlegal (hadmits hsurface) hstarts,
    fun hsurface => (h.oneAtATime hsurface).perform hlegal hsurface hpermits hstarts,
    fun hsurface => ?_, fun y hy => ?_⟩
  · cases e with
    | clear r => exact h.begun hsurface
    | call j c =>
      by_cases hj : j = i
      · subst hj
        have hnone := h.begins_eq_nil hsurface hlegal.1
        simpa [begunOn, Dealing.perform, hnone] using h.begun hsurface
      · rw [(perform_of_ne (d := d) hj c).2]
        exact h.begun hsurface
  · cases e with
    | clear r => exact h.bounded y hy
    | call j c =>
      by_cases hj : j = i
      · subst hj
        obtain ⟨x, hx⟩ := h.exists_instance
        obtain rfl := Option.some.inj ((World.instance?_on_self hx c.act).symm.trans hy)
        have hkeeps := bounded_invariant.keeps (c := c) (fun _ _ => trivial)
          fun head henters => h.param_eq hlegal.1 henters
        exact hkeeps.on (h.bounded x hx)
      · exact h.bounded y ((World.instance?_on_of_ne (Ne.symm hj) c.act).symm.trans hy)

/-- No producer waits on an instance that runs. -/
theorem served (h : d.Orderly surface i n) (hx : d.world.instance? i = some x)
    (hrun : x.aborted = false) (q : SequenceId) : (x.handOff q).waiting = [] := by
  by_cases hsurface : surface = .iterator
  · obtain ⟨active, hstreams⟩ := (h.draining hsurface).flows x hx hrun
    cases hqueue : (x.handOff q).queue with
    | nil => simp [HandOff.waiting, hqueue]
    | cons body rest =>
      obtain ⟨hslot, -⟩ := hstreams.queued q body (by simp [hqueue])
      simp [HandOff.waiting, hslot]
  · obtain ⟨x', p, hx', -, hp, -⟩ := (h.oneAtATime hsurface).phase
    obtain rfl := Option.some.inj (hx.symm.trans hx')
    simp [Instance.handOff, hp.sequences, HandOff.gone, HandOff.waiting]

/-- **What a transition of the run can fail with.** -/
theorem blame (h : d.Orderly surface i n) (hx : d.world.instance? i = some x)
    (hrun : x.aborted = false) (hc : c.Legal (d.givenBy i) (d.begunOn i))
    (huse : ∀ t u, c ≠ .use t u) (huses : c.uses = some t) (he : (c.act.on x).1 = .error e) :
    Blame surface x c e := by
  by_cases hsurface : surface = .iterator
  · subst hsurface
    obtain ⟨x', hx', p, -, hp⟩ := (h.draining rfl).follows.conforms
    obtain rfl := Option.some.inj (hx.symm.trans hx')
    obtain ⟨active, hstreams⟩ := (h.draining rfl).flows x hx hrun
    rw [h.begun (by simp)] at hc
    exact hstreams.blame hp hrun (h.bounded x hx) hc huses he
  · obtain ⟨x', p, hx', -, hp, -⟩ := (h.oneAtATime hsurface).phase
    obtain rfl := Option.some.inj (hx.symm.trans hx')
    exact hp.blame hsurface hrun (h.bounded x hx) hc (fun t u hu => absurd hu (huse t u)) huses he

/-- A call that uses a state of the run, by one of the state's transitions. -/
theorem calls (h : d.Orderly surface i n) (hlegal : d.Legal (.call i c))
    (huse : ∀ t u, c ≠ .use t u) (hissue : ∀ site, c ≠ .issue site)
    (hadvance : ∀ shape j, c = .advance shape j → j = i) :
    (d.perform (.call i c)).Orderly surface i n := by
  have hpermits : Nested.Permits surface i c := by
    cases c with
    | issue site => exact absurd rfl (hissue site)
    | use t u => exact absurd rfl (huse t u)
    | advance shape j => exact hadvance shape j rfl
    | _ => trivial
  have hadmits : Nested.Admits c := by
    cases c with
    | issue site => exact absurd rfl (hissue site)
    | use t u => exact absurd rfl (huse t u)
    | _ => trivial
  have hcount : [Deed.call i c].countP (Deed.startsOn i) = 0 := by
    cases c with
    | issue site => exact absurd rfl (hissue site)
    | _ => rfl
  have hnext := h.perform hlegal (fun _ => hpermits) (fun _ _ => hadmits) (by omega)
  rwa [hcount] at hnext

/-- A transition of the run succeeds, and nothing went wrong. -/
theorem calm (h : d.Orderly surface i n) (hx : d.world.instance? i = some x) (hcalm : x.Calm)
    (hlegal : d.Legal (.call i c)) (huse : ∀ t u, c ≠ .use t u) (hissue : ∀ site, c ≠ .issue site)
    (hadvance : ∀ shape j, c = .advance shape j → j = i) (habandon : ∀ q, c ≠ .abandon q)
    {grant : Grant} (hok : (c.act.on x).1 = .ok grant) : (c.act.on x).2.Calm :=
  hcalm.call hok habandon fun hrun =>
    (h.calls hlegal huse hissue hadvance).served (World.instance?_on_self hx c.act) hrun

end Orderly

/-- **A callback loop goes on for the state that its body returned.** -/
theorem OneAtATime.goesOn (h : d.OneAtATime surface i n) (hx : d.world.instance? i = some x)
    (hrun : x.aborted = false) {shape : LoopShape} (hlegal : d.Legal (.call i (.advance shape i))) :
    ∃ grant, ((Call.advance shape i).act.on x).1 = .ok grant := by
  obtain ⟨⟨x', p, hx', -, hp, hdue⟩, hbegun⟩ := h
  obtain rfl := Option.some.inj (hx.symm.trans hx')
  obtain ⟨t, ht, htail⟩ := hlegal.2 shape i rfl
  obtain ⟨place, hsite, hno⟩ := hdue t ht
  have hfits := Phase.fits_of_live hno.used
  have hturns : ∃ body, p.Turns place shape.head.id body := by
    rw [htail] at hsite
    rcases hbegun shape hlegal.1 with rfl | rfl
    · obtain rfl : place = .outerEnd := by
        cases surface <;> cases place <;> first | rfl | cases hsite
      exact ⟨_, Phase.turns_outer hp.valid hfits⟩
    · obtain rfl : place = .innerEnd := by
        cases surface <;> cases place <;> first | rfl | cases hsite
      exact ⟨_, Phase.turns_inner hp.valid hfits⟩
  obtain ⟨_, b, k, below, hframes, -⟩ := hturns
  have htop : x.stack.onTop? shape.head.id = some (.iterating shape.head.id b k, below) :=
    FrameStack.onTop?_eq_some_iff.2 ⟨(hp.frames hrun).trans hframes, rfl⟩
  cases hr : ((Call.advance shape i).act.on x).1 with
  | ok grant => exact ⟨grant, rfl⟩
  | error e =>
    exfalso
    cases Call.fails_of_error hr with
    | used hc => cases hc
    | aborted ha => simp [hrun] at ha
    | obstacle _ _ hobstacle =>
      cases hobstacle with
      | notOnTop hc hnone =>
        cases hc
        rw [htop] at hnone
        cases hnone
      | buried hc | unbounded hc | unclosed hc | unfinished hc => cases hc

end Dealing

/-! ## Along the moves of a session -/

/-- After any moves of a run its instance is in order. -/
theorem NestedRun.orderly {surface : Surface} {i : InstanceId} {moves : List Move}
    {recorders : Nat} {instances : List (BoundTable × Option RecorderId)}
    {p : BoundTable × Option RecorderId}
    (h : NestedRun surface i (.start recorders instances) moves)
    (hi : instances[i.index]? = some p) :
    ∃ (d : Dealing) (n : Nat),
      d.Covers ((Session.start recorders instances).after moves) ∧ d.Orderly surface i n := by
  obtain ⟨es, d, hr, hcov, horders, hcount⟩ := h.deeds (Dealing.covers_start recorders instances)
  have hstart : (Dealing.start (Session.start recorders instances).world).Orderly surface i 1 := by
    refine ⟨fun _ => draining_start hi, fun _ => oneAtATime_start hi, fun _ => rfl, fun x hx => ?_⟩
    obtain rfl := Option.some.inj ((instance?_start hi).symm.trans hx)
    exact fun hframes => absurd rfl hframes
  have hpermitted : ∀ e ∈ es, e.Permits surface i ∧ (surface = .iterator → e.Admits i) := by
    refine fun e he => ⟨h.permits (horders e he), fun hsurface => ?_⟩
    subst hsurface
    exact h.admits (horders e he)
  obtain ⟨n, hd⟩ := hr.counted (F := fun n d => d.Orderly surface i n) hstart hpermitted hcount
    fun hd hlegal hadmits hle => hd.perform hlegal hadmits.1 hadmits.2 hle
  exact ⟨d, n, hcov, hd⟩

namespace Session

open SessionM

variable {s : Session} {surface : Surface} {i : InstanceId} {m : Move} {h : Handle} {c : Call}
  {d : Dealing} {n : Nat} {x : Instance} {t : Token} {e : Fault}

/-- What a fault of the instance of a run comes from. -/
inductive Culprit (s : Session) (surface : Surface) (i : InstanceId) (m : Move) (e : Fault) :
    Prop where
  /-- The move is a transition that failed, through a misuse of the protocol. -/
  | transition {x : Instance} {t : Token} {c : Call} : s.world.instance? i = some x →
    s.attempt? m = some (⟨i, t⟩, c) → (c.act.on x).1 = .error e → e.isUsage = true →
    Blame surface x c e → Culprit s surface i m e
  /-- The body of a callback loop failed. -/
  | body : surface = .callback → s.bodyFault? m = some (i, e) → Culprit s surface i m e

/-- With this move the instance of a run, which had no fault on record, got its first one. -/
structure FirstFault (s : Session) (surface : Surface) (i : InstanceId) (m : Move) (e : Fault) :
    Prop where
  before : ∃ x, s.world.instance? i = some x ∧ x.Calm
  replied : (s.reply m).fault? = some e
  culprit : s.Culprit surface i m e

/-- A move that attempts a transition brings in no fault of a body. -/
theorem bodyFault?_of_attempt? (hattempt : s.attempt? m = some (h, c)) : s.bodyFault? m = none := by
  obtain ⟨name, hname, hget, hcall⟩ := attempt?_eq_some_iff.1 hattempt
  cases m with
  | act action | foreach source dest => rfl
  | returnFault fault => cases hname
  | returnState name =>
    cases hname
    obtain ⟨loop, hloop, hc⟩ := Option.bind_eq_some_iff.1 hcall
    split at hc
    · next htail => simp [bodyFault?, stateIn?, hget, hloop, htail]
    · cases hc

theorem isTransition_endCall? {point : EndPoint} (hc : t.endCall? point = some c) :
    c.isTransition = true := by
  cases point with
  | protocol closes =>
    cases hc
    rfl
  | iteration nextBody =>
    obtain ⟨q, -, rfl⟩ := Option.map_eq_some_iff.1 hc
    rfl

/-- **What a move attempts** is a transition, but for the plain use of a state and the return of one
from a body. -/
theorem attempt?_cases (hattempt : s.attempt? m = some (h, c)) :
    ∃ name, s.vars.get? name = some (.state h) ∧
      ((∃ u, m = .act (.use name u) ∧ c = .use h.token u) ∨
        (m = .returnState name ∧ c = .giveBack h.token) ∨ c.isTransition = true) := by
  obtain ⟨name, hname, hget, hcall⟩ := attempt?_eq_some_iff.1 hattempt
  refine ⟨name, hget, ?_⟩
  cases m with
  | returnFault fault => cases hname
  | foreach source dest =>
    obtain ⟨shape, -, rfl⟩ := Option.map_eq_some_iff.1 hcall
    exact .inr (.inr rfl)
  | returnState name =>
    cases hname
    obtain ⟨loop, -, hc⟩ := Option.bind_eq_some_iff.1 hcall
    split at hc <;> cases hc
    exact .inr (.inl ⟨rfl, rfl⟩)
  | act action =>
    cases action with
    | use of u =>
      cases hname
      cases hcall
      exact .inl ⟨u, rfl, rfl⟩
    | enter source surface dest after =>
      obtain ⟨p, -, rfl⟩ := Option.map_eq_some_iff.1 hcall
      split <;> exact .inr (.inr rfl)
    | exit source dest | send source label dest =>
      obtain ⟨_, -, rfl⟩ := Option.map_eq_some_iff.1 hcall
      exact .inr (.inr rfl)
    | finish source =>
      obtain ⟨point, -, hc⟩ := Option.bind_eq_some_iff.1 hcall
      exact .inr (.inr (isTransition_endCall? hc))
    | finishTaking source sequence dest | finishDropping source sequence =>
      obtain ⟨p, -, hend⟩ := Option.bind_eq_some_iff.1 hcall
      obtain ⟨point, -, hc⟩ := Option.bind_eq_some_iff.1 hend
      exact .inr (.inr (isTransition_endCall? hc))
    | _ => cases hname

/-- Only the return from a body gives a state back. -/
theorem eq_returnState (hattempt : s.attempt? m = some (h, .giveBack t)) :
    ∃ name, m = .returnState name ∧ s.vars.get? name = some (.state h) := by
  obtain ⟨name, hget, ⟨u, -, hc⟩ | ⟨hm, -⟩ | hc⟩ := attempt?_cases hattempt
  · cases hc
  · exact ⟨name, hm, hget⟩
  · cases hc

/-- A loop of the run goes on only for a state of the run. -/
theorem owner_eq_of_follows (hfollows : s.follows surface i m = true)
    (hattempt : s.attempt? m = some (h, .giveBack t)) {loop : RunningLoop}
    (hloop : s.running.head? = some loop) (howner : loop.owner = i) : h.owner = i := by
  obtain ⟨name, rfl, hget⟩ := eq_returnState hattempt
  simpa [follows, hloop, stateIn?, hget, howner] using hfollows

/-- A state of the run is used by its transitions alone. -/
theorem ne_use_of_follows (hfollows : s.follows surface i m = true)
    (hattempt : s.attempt? m = some (⟨i, t⟩, c)) (t' : Token) (u : Use) : c ≠ .use t' u := by
  rintro rfl
  obtain ⟨name, hget, ⟨u, rfl, -⟩ | ⟨-, hc⟩ | hc⟩ := attempt?_cases hattempt
  · simp [follows, stateIn?, hget] at hfollows
  · cases hc
  · cases hc

/-- What a move does besides its transition is harmless, unless it concerns a callback loop of the
instance. -/
theorem harmless_of_besides (hbesides : s.Besides m (.call i c))
    (hbody : ∀ e, s.bodyFault? m ≠ some (i, e))
    (hturn : ∀ h loop, s.attempt? m = some (h, .giveBack h.token) →
      s.running.head? = some loop → loop.owner ≠ i) : c.isHarmless = true := by
  cases c with
  | issue site | fork t | setParam name bound | take q | abandon q => rfl
  | fail e => exact absurd hbesides (hbody e)
  | advance shape j =>
    obtain ⟨h, loop, hattempt, hloop, howner, -⟩ := hbesides
    exact absurd howner (hturn h loop hattempt hloop)
  | _ => cases hbesides

/-- Callback loops of the run go on only on the callback surface. -/
theorem surface_eq_of_running (hcov : d.Covers s) (hd : d.Orderly surface i n) {loop : RunningLoop}
    (hloop : loop ∈ s.running) (howner : loop.owner = i) : surface = .callback := by
  by_contra hsurface
  have hbegun : loop.shape ∈ d.begunOn i :=
    Dealing.mem_begunOn.2 (howner ▸ (hcov.running loop hloop).1)
  rw [hd.begun hsurface] at hbegun
  cases hbegun

/-- The body of a callback loop of the instance failed. -/
theorem failed_of_body (hs : s.Issued) (hcov : d.Covers s) (hd : d.Orderly surface i n)
    (hx : s.world.instance? i = some x) (hcalm : x.Calm) (hattempt : s.attempt? m = none)
    (hbody : s.bodyFault? m = some (i, e)) :
    ∃ y, (s.after [m]).world.instance? i = some y ∧ y.Failed e ∧ s.FirstFault surface i m e := by
  have hkind : ∀ c, s.Besides m (.call i c) → c.isHarmless = true ∨ c = .fail e := by
    intro c hc
    cases c with
    | issue site | fork t | setParam name bound | take q | abandon q => exact .inl rfl
    | fail fault =>
      have hsame : some (i, fault) = some (i, e) := hc.symm.trans hbody
      cases hsame
      exact .inr rfl
    | advance shape j =>
      obtain ⟨h, loop, hsome, -⟩ := hc
      rw [hattempt] at hsome
      cases hsome
    | _ => cases hc
  obtain ⟨y, hy, hcalm' | hfailed⟩ := (besides_move hattempt).calm_or_failed hkind hx hcalm
  · obtain ⟨-, z, hz, haborted⟩ := reply_of_bodyFault? hs hbody
    obtain rfl := Option.some.inj (hy.symm.trans hz)
    simp [hcalm'.running] at haborted
  · refine ⟨y, hy, hfailed, ⟨x, hx, hcalm⟩, ?_, .body ?_ hbody⟩
    · rw [(reply_of_bodyFault? hs hbody).1]
      rfl
    · obtain ⟨loop, hloop, howner⟩ : ∃ loop ∈ s.running, loop.owner = i := by
        cases m with
        | returnFault fault =>
          obtain ⟨loop, hloop, hsame⟩ := Option.map_eq_some_iff.1 hbody
          cases hsame
          exact ⟨loop, List.mem_of_mem_head? hloop, rfl⟩
        | returnState name =>
          obtain ⟨loop, hloop, hsome⟩ := Option.bind_eq_some_iff.1 hbody
          split at hsome <;> cases hsome
          exact ⟨loop, List.mem_of_mem_head? hloop, rfl⟩
        | _ => cases hbody
      exact surface_eq_of_running hcov hd hloop howner

/-- A transition of the run is none of the calls that it does not permit. -/
structure Follows (c : Call) : Prop where
  use : ∀ t u, c ≠ .use t u
  issue : ∀ site, c ≠ .issue site
  advance : ∀ shape j, c ≠ .advance shape j
  abandon : ∀ q, c ≠ .abandon q

theorem follows_attempt (hfollows : s.follows surface i m = true)
    (hattempt : s.attempt? m = some (⟨i, t⟩, c)) : Follows c := by
  have huses := uses_of_attempt? hattempt
  refine ⟨ne_use_of_follows hfollows hattempt, ?_, ?_, ?_⟩ <;> rintro _ <;> intros <;> rintro rfl
    <;> cases huses

theorem legal_deed (hcov : d.Covers s) (hattempt : s.attempt? m = some (⟨i, t⟩, c))
    (hc : Follows c) : d.Legal (.call i c) :=
  ⟨legal_attempt hcov hattempt, fun shape j hadvance => absurd hadvance (hc.advance shape j)⟩

/-- A transition of the run failed. -/
theorem failed_of_error (hcov : d.Covers s) (hd : d.Orderly surface i n)
    (hfollows : s.follows surface i m = true) (hx : s.world.instance? i = some x) (hcalm : x.Calm)
    (hattempt : s.attempt? m = some (⟨i, t⟩, c)) (he : (c.act.on x).1 = .error e) :
    ∃ y, (s.after [m]).world.instance? i = some y ∧ y.Failed e ∧ s.FirstFault surface i m e := by
  have hc := follows_attempt hfollows hattempt
  have hx' : d.world.instance? i = some x := by rw [hcov.world, hx]
  have hblame := hd.blame hx' hcalm.running (legal_attempt hcov hattempt) hc.use
    (uses_of_attempt? hattempt) he
  have hfailed : (c.act.on x).2.Failed e := .of_error hcalm.running hcalm.recorded he hc.abandon
  have hopens := opens_attempt hattempt
  obtain ⟨hreplied, hdrains⟩ := hopens.refused e (by rw [World.on_eq hx, he])
  obtain ⟨y, hy, hfailed'⟩ := hdrains.failed (World.instance?_on_self hx c.act) hfailed
  exact ⟨y, hy, hfailed', ⟨x, hx, hcalm⟩, hreplied,
    .transition hx hattempt he (Surface.isUsage_of_canFault hblame.listed) hblame⟩

/-- The body of a callback loop of the run returned, and the loop goes on. -/
theorem calm_of_returnState (hcov : d.Covers s) (hd : d.Orderly surface i n)
    (hx : s.world.instance? i = some x) (hcalm : x.Calm) {name : String} {loop : RunningLoop}
    {outer : List RunningLoop} (hrunning : s.running = loop :: outer) (howner : loop.owner = i)
    (hget : s.vars.get? name = some (.state ⟨i, t⟩)) (htail : t.site = loop.shape.tail)
    {v : Unit} (hok : (t.consume.on x).1 = .ok v) :
    ∃ y, (s.after [.returnState name]).world.instance? i = some y ∧ y.Calm := by
  subst howner
  have hattempt := attempt?_returnState (h := ⟨loop.owner, t⟩) hrunning hget htail
  have hloop : loop ∈ s.running := by simp [hrunning]
  have hx' : d.world.instance? loop.owner = some x := by rw [hcov.world, hx]
  have hback : Follows (.giveBack t) := by constructor <;> simp
  have hlegal := legal_deed hcov hattempt hback
  have hgave : ((Call.giveBack t).act.on x).1 = .ok .nothing := by
    rw [Call.act, on_map, hok]
    rfl
  have hcalm' := hd.calm hx' hcalm hlegal hback.use hback.issue (by simp) hback.abandon hgave
  -- the instance in between, from which the loop goes on
  let d' := d.perform (.call loop.owner (.giveBack t))
  have hd' : d'.Orderly surface loop.owner n := hd.calls hlegal hback.use hback.issue (by simp)
  have hy := World.instance?_on_self hx' (Call.giveBack t).act
  have hdue : d'.due = some ⟨loop.owner, t⟩ := by
    show d.takesBack loop.owner (.giveBack t) = _
    rw [Dealing.takesBack, World.on_eq hx', hok]
  have hlegal' : d'.Legal (.call loop.owner (.advance loop.shape loop.owner)) := by
    refine ⟨?_, fun shape j hadvance => ?_⟩
    · have hbegun := (hcov.running loop hloop).1
      exact Dealing.mem_begunOn.2 ((Dealing.extends_perform d _).begun hbegun)
    · cases hadvance
      exact ⟨t, hdue, htail⟩
  have hsurface : surface ≠ .iterator := by simp [surface_eq_of_running hcov hd hloop rfl]
  obtain ⟨grant, hgoes⟩ := (hd'.oneAtATime hsurface).goesOn hy hcalm'.running hlegal'
  have hcalm'' := hd'.calm hy hcalm' hlegal' (by simp) (by simp)
    (by simp only [Call.advance.injEq, and_imp]; exact fun _ _ _ h => h.symm) (by simp) hgoes
  rw [Call.act, on_map, Call.act, on_map] at hcalm''
  let s₁ : Session := { s with
    running := outer
    vars := Variables.erase s.vars name
    world := (s.world.on loop.owner t.consume).2 }
  let s₂ : Session := { s₁ with
    world := (s₁.world.on loop.owner (Callback.advance loop.shape)).2 }
  have hafter : s.after [.returnState name] =
      ((takeTurn loop (s₁.world.on loop.owner (Callback.advance loop.shape)).1).run s₂).2 := by
    have hv : (s.world.on loop.owner t.consume).1 = .ok () := by rw [World.on_eq hx, hok]
    show ((move (.returnState name)).run s).2 = _
    rw [run_returnState (h := ⟨loop.owner, t⟩) hrunning hget htail, run_on, hv]
    rfl
  have hz : s₂.world.instance? loop.owner = some _ :=
    World.instance?_on_self (World.instance?_on_self hx t.consume) (Callback.advance loop.shape)
  rw [hafter]
  refine World.Steps.calm ((only_takeTurn loop _).steps rfl) (fun c hc => ?_) hz hcalm''
  cases c with
  | abandon q => rfl
  | _ => cases hc

/-- A transition of the run succeeded. -/
theorem calm_of_ok (hcov : d.Covers s) (hd : d.Orderly surface i n)
    (hfollows : s.follows surface i m = true) (hx : s.world.instance? i = some x) (hcalm : x.Calm)
    (hattempt : s.attempt? m = some (⟨i, t⟩, c)) {grant : Grant}
    (hok : (c.act.on x).1 = .ok grant) :
    ∃ y, (s.after [m]).world.instance? i = some y ∧ y.Calm := by
  have hc := follows_attempt hfollows hattempt
  have hx' : d.world.instance? i = some x := by rw [hcov.world, hx]
  have hcalm' := hd.calm hx' hcalm (legal_deed hcov hattempt hc) hc.use hc.issue
    (fun shape j hadvance => absurd hadvance (hc.advance shape j)) hc.abandon hok
  by_cases hturn : ∃ h loop, s.attempt? m = some (h, .giveBack h.token) ∧
      s.running.head? = some loop ∧ loop.owner = i
  · obtain ⟨h, loop, hsame, hloop, howner⟩ := hturn
    rw [hattempt] at hsame
    cases hsame
    obtain ⟨name, rfl, hget⟩ := eq_returnState hattempt
    obtain ⟨outer, hrunning⟩ := List.head?_eq_some_iff.1 hloop
    have htail : t.site = loop.shape.tail := by
      obtain ⟨name', hname, hget', hcall⟩ := attempt?_eq_some_iff.1 hattempt
      by_contra hne
      simp [callOn?, hloop, hne] at hcall
    obtain ⟨v, hv⟩ : ∃ v, (t.consume.on x).1 = .ok v := by
      rw [Call.act, on_map] at hok
      cases hr : (t.consume.on x).1 with
      | ok v => exact ⟨v, rfl⟩
      | error e => simp [hr, Except.map] at hok
    exact calm_of_returnState hcov hd hx hcalm hrunning howner hget htail hv
  · have hopens := opens_attempt hattempt
    refine hopens.besides.calm (fun c hbesides => ?_) (World.instance?_on_self hx c.act) hcalm'
    refine harmless_of_besides hbesides (fun e => ?_) fun h loop hgave hloop howner => ?_
    · simp [bodyFault?_of_attempt? hattempt]
    · exact hturn ⟨h, loop, hgave, hloop, howner⟩

/-- **One move of a run.** An instance without a fault remains without one, or gets its first. -/
theorem calm_or_firstFault (hs : s.Issued) (hcov : d.Covers s) (hd : d.Orderly surface i n)
    (hfollows : s.follows surface i m = true) (hx : s.world.instance? i = some x)
    (hcalm : x.Calm) :
    (∃ y, (s.after [m]).world.instance? i = some y ∧ y.Calm) ∨
      ∃ e y, (s.after [m]).world.instance? i = some y ∧ y.Failed e ∧
        s.FirstFault surface i m e := by
  cases hattempt : s.attempt? m with
  | none =>
    by_cases hbody : ∃ e, s.bodyFault? m = some (i, e)
    · obtain ⟨e, hbody⟩ := hbody
      exact .inr ⟨e, failed_of_body hs hcov hd hx hcalm hattempt hbody⟩
    · refine .inl ((besides_move hattempt).calm (fun c hbesides => ?_) hx hcalm)
      refine harmless_of_besides hbesides (fun e he => hbody ⟨e, he⟩) fun h loop hsome => ?_
      rw [hattempt] at hsome
      cases hsome
  | some p =>
    obtain ⟨⟨j, t⟩, c⟩ := p
    by_cases hj : j = i
    · subst hj
      cases hr : (c.act.on x).1 with
      | ok grant => exact .inl (calm_of_ok hcov hd hfollows hx hcalm hattempt hr)
      | error e => exact .inr ⟨e, failed_of_error hcov hd hfollows hx hcalm hattempt hr⟩
    · have hsame : (s.world.on j c.act).2.instance? i = some x :=
        (World.instance?_on_of_ne (Ne.symm hj) c.act).trans hx
      refine .inl ((opens_attempt hattempt).besides.calm (fun c' hbesides => ?_) hsame hcalm)
      refine harmless_of_besides hbesides (fun e => ?_) fun h loop hgave hloop howner => ?_
      · simp [bodyFault?_of_attempt? hattempt]
      · have hi := owner_eq_of_follows hfollows hgave hloop howner
        rw [hattempt] at hgave
        cases hgave
        exact hj hi

variable {recorders : Nat} {instances : List (BoundTable × Option RecorderId)} {moves : List Move}
  {p : BoundTable × Option RecorderId}

/-- The instance of a run has no fault, or one of the moves so far brought it its first one. -/
theorem exists_firstFault (h : NestedRun surface i (.start recorders instances) moves)
    (hi : instances[i.index]? = some p) :
    ∃ x, ((start recorders instances).after moves).world.instance? i = some x ∧
      (x.Calm ∨ ∃ before m later e, moves = before ++ m :: later ∧
        ((start recorders instances).after before).FirstFault surface i m e ∧ x.Failed e) := by
  induction moves using List.reverseRecOn with
  | nil =>
    refine ⟨Instance.create i p.1 p.2, NestedRun.instance?_start hi, .inl ⟨rfl, rfl, fun q => ?_⟩⟩
    simp [Instance.create, Instance.handOff, HandOff.gone, HandOff.waiting]
  | append_singleton moves m ih =>
    obtain ⟨x, hx, hcalm | ⟨before, m', later, e, rfl, hfirst, hfailed⟩⟩ := ih h.start
    · obtain ⟨d, n, hcov, hd⟩ := h.start.orderly hi
      have hstep := calm_or_firstFault (issued_after recorders instances moves) hcov hd
        (h.follows moves m [] rfl) hx hcalm
      rw [after_append]
      obtain ⟨y, hy, hcalm'⟩ | ⟨e, y, hy, hfailed, hfirst⟩ := hstep
      · exact ⟨y, hy, .inl hcalm'⟩
      · exact ⟨y, hy, .inr ⟨moves, m, [], e, rfl, hfirst, hfailed⟩⟩
    · obtain ⟨y, hy, hkept⟩ := related_after (R := fun x y => x.Failed e → y.Failed e)
        (fun _ hx => hx) (fun hxy hyz hx => hyz (hxy hx)) (fun c x hx => hx.call c) hx [m]
      rw [after_append]
      exact ⟨y, hy, .inr ⟨before, m', later ++ [m], e, by simp, hfirst, hkept hfailed⟩⟩

/-- **Which faults can come first.** On any instances and surfaces a fault that a move replies was
brought in by the driver, or the engine is not to blame for it. On an instance on which the nested
protocol runs once, the first fault is that of a transition of the run, as its surface allows, or
that of the body of a callback loop. -/
theorem first_faults (recorders : Nat) (instances : List (BoundTable × Option RecorderId))
    (moves : List Move) :
    let s := (start recorders instances).after moves
    (∀ m e, (s.reply m).fault? = some e → s.brought? m = some e ∨
      e ≠ .stackUnderflow ∧ ∀ cause, e = .engineFault cause → s.Foreseen m) ∧
    ∀ surface i p, NestedRun surface i (start recorders instances) moves →
      instances[i.index]? = some p →
      ∃ x, s.world.instance? i = some x ∧
        (x.Calm ∨ ∃ before m later e, moves = before ++ m :: later ∧
          ((start recorders instances).after before).FirstFault surface i m e ∧ x.Failed e) :=
  ⟨fun _ _ he => fault_source (issued_after recorders instances moves) he,
    fun _ _ _ h hi => exists_firstFault h hi⟩

/-- The consumer of an inner loop leaves before its last iteration. Afterwards the instance is
aborted, and the engine says so. -/
theorem first_fault_of_drop :
    let instances : List (BoundTable × Option RecorderId) := [(BoundTable.ofList [("k", 2)], none)]
    let moves : List Move :=
      [.act (.issue (Nested.start .iterator) ⟨0⟩ "outer"),
        .act (.enter ⟨"outer", false⟩ none "bodies" "done"), .act (.take "bodies" "inner"),
        .act (.enter ⟨"inner", false⟩ none "items" "after"), .act (.take "items" "item"),
        .act (.drop "items"), .act (.send ⟨"item", false⟩ "foo" "end"),
        .act (.finish ⟨"end", false⟩)]
    let s := (start 0 instances).after moves
    let m : Move := .act (.send ⟨"after", false⟩ "bar" "tail")
    NestedRun .iterator ⟨0⟩ (start 0 instances) moves ∧
    (∃ x, s.world.instance? ⟨0⟩ = some x ∧ x.Failed (.handOffClosed innerId) ∧
      ∃ before m later, moves = before ++ m :: later ∧
        ((start 0 instances).after before).FirstFault .iterator ⟨0⟩ m (.handOffClosed innerId)) ∧
    (s.reply m).fault? = some (.engineFault (.abortedEarlier ⟨0⟩)) ∧ s.Foreseen m := by
  intro instances moves s m
  obtain ⟨hsource, hrun⟩ := first_faults 0 instances moves
  have hmoves : NestedRun .iterator ⟨0⟩ (start 0 instances) moves :=
    .of_forall (by decide +kernel) (by decide)
  have hreply : (s.reply m).fault? = some (.engineFault (.abortedEarlier ⟨0⟩)) := by
    decide +kernel
  have hrecorded : (s.world.instance? ⟨0⟩).map Instance.recorded =
      some [.handOffClosed innerId] := by decide +kernel
  refine ⟨hmoves, ?_, hreply, ?_⟩
  · obtain ⟨x, hx, hx'⟩ := hrun .iterator ⟨0⟩ _ hmoves rfl
    have hlog : x.recorded = [.handOffClosed innerId] := by
      simpa [s, hx] using hrecorded
    obtain hcalm | ⟨before, m', later, e, hsplit, hfirst, hfailed⟩ := hx'
    · simp [hcalm.recorded] at hlog
    · obtain rfl : e = .handOffClosed innerId := by simpa [hfailed.recorded] using hlog
      exact ⟨x, hx, hfailed, before, m', later, hsplit, hfirst⟩
  · obtain hbrought | ⟨-, hengine⟩ := hsource m _ hreply
    · cases hbrought
    · exact hengine _ rfl

end Session

end LoopProtocol
