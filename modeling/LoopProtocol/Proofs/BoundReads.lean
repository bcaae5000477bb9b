import LoopProtocol.Proofs.Blind
import LoopProtocol.Proofs.IdleMove
import Mathlib.Data.List.Induction

/-!
# Where bounds are read

A bound is looked up when a loop starts, and never again. So two runs that make the same moves but
for those that set parameters are the same at corresponding points, but for the parameters, as long
as each loop that starts finds the same bound in both.
-/

namespace LoopProtocol

open Act

/-! ## Loops that start -/

section Starts

open Routine

variable {α : Type} {x y : Instance}

/-- The loop that a call starts: the call enters its head, with a state not used before, on an
instance that is not aborted and on which the loop is not active. -/
def Call.starts? (c : Call) (x : Instance) : Option LoopHead :=
  c.enters?.filter fun head =>
    !x.aborted && !c.uses.any (·.isConsumed x) && !x.stack.contains head.id

/-- **A transition that enters a head looks up the bound of the loop if it starts the loop.** What
is done then looks up nothing. -/
theorem alike_entering {c : Call} {t : Token} {head : LoopHead} {next : Frame → Routine α}
    (huses : c.uses = some t) (henters : c.enters? = some head)
    (hnext : ∀ f, (next f).MadeOf Operation.IsBlind) (hxy : y.unbounded = x.unbounded)
    (hbound : ∀ head, c.starts? x = some head →
      y.bounds.bound head.param = x.bounds.bound head.param) :
    (do once (.consume t); next (← once (.activate head))).run.Alike x y := by
  have hconsumed : t.consume.Alike x y := (Operation.blind (.consume t)).alike hxy
  simp only [run_bind, run_once]
  refine hconsumed.bind fun _ hok => ?_
  have hactivated : (Act.activate head.id head.param).Alike (t.consume.on x).2
      (t.consume.on y).2 := by
    refine alike_activate hconsumed.2 fun ha hc => ?_
    rw [bounds_consume, bounds_consume]
    refine hbound head ?_
    have hends : t.consume.Ends x (fun _ z => t.isConsumed x = false ∧ z = x.spend t)
        fun _ _ => True := ends_consume (fun _ => trivial) fun hused => ⟨hused, rfl⟩
    obtain ⟨hused, hon⟩ := hends.of_ok hok
    rw [hon] at ha hc
    have ha' : x.aborted = false := ha
    have hc' : x.stack.contains head.id = false := hc
    simp [Call.starts?, henters, huses, hused, ha', hc', Option.filter]
  exact hactivated.bind fun f _ => (hnext f).blind.alike hactivated.2

variable {shape : LoopShape} {t : Token}

theorem alike_enter (hxy : y.unbounded = x.unbounded)
    (hbound : ∀ head, (Call.enter shape t).starts? x = some head →
      y.bounds.bound head.param = x.bounds.bound head.param) :
    (Polling.enter shape t).Alike x y := by
  rw [← run_pollingEnter]
  refine alike_entering (c := .enter shape t) rfl rfl (fun f => ?_) hxy hbound
  split <;> simp [Operation.IsBlind]

theorem alike_iterate (hxy : y.unbounded = x.unbounded)
    (hbound : ∀ head, (Call.iterate shape t).starts? x = some head →
      y.bounds.bound head.param = x.bounds.bound head.param) :
    (Iterator.enter shape t).Alike x y := by
  rw [← run_iteratorEnter]
  refine alike_entering (c := .iterate shape t) rfl rfl (fun f => ?_) hxy hbound
  refine (madeOf_once_bind _ _).2 ⟨trivial, fun q => ?_⟩
  exact (madeOf_iteratorTurn q f shape.body).bind fun _ => by simp [Operation.IsBlind]

theorem alike_begin (hxy : y.unbounded = x.unbounded)
    (hbound : ∀ head, (Call.begin shape t).starts? x = some head →
      y.bounds.bound head.param = x.bounds.bound head.param) :
    (Callback.begin shape t).Alike x y := by
  rw [← run_callbackBegin]
  exact alike_entering (c := .begin shape t) rfl rfl (madeOf_callbackTurn shape) hxy hbound

end Starts

/-! ## Moves -/

/-- Whether a move sets a parameter. -/
def Move.setsParam : Move → Bool
  | .act (.setParam _ _ _) => true
  | _ => false

/-- Whether a move shows what is in the table of parameters. -/
def Move.showsTable : Move → Bool
  | .act (.params _) => true
  | m => m.setsParam

namespace Session

/-- The bound that a parameter of an instance stands for, or why it stands for none. -/
def boundOf? (s : Session) (i : InstanceId) (param : String) : Option (Except Fault Bound) :=
  (s.world.instance? i).map (·.bounds.bound param)

/-- The loop that a move starts, with its instance. -/
def starts? (s : Session) (m : Move) : Option (InstanceId × LoopHead) :=
  (s.attempt? m).bind fun (h, c) =>
    (s.world.instance? h.owner).bind fun x => (c.starts? x).map (h.owner, ·)

variable {s t : Session} {m : Move}

/-- What a move that enters a head finds in both sessions. -/
theorem found_of_attempt {g : Handle} {c : Call} {source : Source}
    (h : t.unbounded = s.unbounded) (hattempt : s.attempt? m = some (g, c))
    (hbound : ∀ i head, s.starts? m = some (i, head) →
      t.boundOf? i head.param = s.boundOf? i head.param) {x y : Instance}
    (hx : (s.moveOut source).world.instance? g.owner = some x)
    (hy : (t.moveOut source).world.instance? g.owner = some y) :
    y.unbounded = x.unbounded ∧ ∀ head, c.starts? x = some head →
      y.bounds.bound head.param = x.bounds.bound head.param := by
  rw [world_moveOut] at hx hy
  constructor
  · have hworld : t.world.unbounded = s.world.unbounded := congrArg (·.world) h
    obtain ⟨y', hy', hxy⟩ := World.exists_of_unbounded hworld hx
    obtain rfl := Option.some.inj (hy.symm.trans hy')
    exact hxy
  · intro head hstarts
    have hsame := hbound g.owner head (by simp [starts?, hattempt, hx, hstarts])
    simpa [boundOf?, hx, hy] using hsame

end Session

namespace SessionM

variable {s t : Session} {m : Move}

theorem blind_perform {action : Action} (hshows : (Move.act action).showsTable = false)
    (henters : ∀ source surface dest after, action ≠ .enter source surface dest after) :
    Blind (perform action) := by
  cases action with
  | setParam name bound i | params i => cases hshows
  | enter source surface dest after => exact absurd rfl (henters source surface dest after)
  | issue site i dest =>
    refine blind_withInstance (fun _ => ?_) fun _ _ _ => rfl
    exact (blind_on (Operation.blind (.issue site none))).bind fun r => blind_giving dest i r
  | top i | frames i =>
    refine blind_withInstance (fun _ => blind_pure _) fun x y hxy => ?_
    have hstack : y.stack = x.stack := congrArg (·.stack) hxy
    rw [hstack]
  | events r =>
    intro s t h
    obtain ⟨w, hw, rfl⟩ := exists_world h
    have hrecorders : w.recorders = s.world.recorders := congrArg (·.recorders) hw
    exact ⟨congrArg (fun rs : Recorders => Reply.events (rs.events r)) hrecorders, h⟩
  | clearEvents r =>
    intro s t h
    obtain ⟨w, hw, rfl⟩ := exists_world h
    refine ⟨rfl, unbounded_congr (s := { s with world := _ }) ?_ _ _⟩
    have hrecorders : w.recorders = s.world.recorders := congrArg (·.recorders) hw
    have hinstances : w.unbounded.instances = s.world.unbounded.instances :=
      congrArg (·.instances) hw
    have hlog : w.log = s.world.log := congrArg (·.log) hw
    show World.mk w.unbounded.instances (w.recorders.clear r) w.log =
      World.mk s.world.unbounded.instances (s.world.recorders.clear r) s.world.log
    rw [hrecorders, hinstances, hlog]
  | raise fault => exact blind_pure _
  | «alias» of dest => exact blind_withState fun g => blind_give dest g.owner g.token
  | drop of =>
    refine (blind_remove of).bind fun held => ?_
    cases held with
    | none => exact blind_pure _
    | some held => exact (blind_release (some held)).bind fun _ => blind_pure _
  | info of =>
    refine blind_withState fun g => blind_withInstance (fun _ => blind_pure _) fun x y hxy => ?_
    rw [Instance.eq_of_unbounded hxy]
    rfl
  | loopId of =>
    refine blind_withState fun g => ?_
    split <;> exact blind_pure _
  | hasMore of =>
    refine blind_withState fun g => blind_withInstance (fun _ => ?_) fun x y hxy => ?_
    · split <;> exact blind_pure _
    · rw [Instance.eq_of_unbounded hxy]
      rfl
  | take of dest =>
    exact blind_withSequence fun owner q => (blind_take owner q dest).bind fun _ => blind_pure _
  | use of u => exact blind_withState fun g => blind_useState g u
  | fork of dest =>
    refine blind_withState fun g => ?_
    split
    · exact (blind_on (Operation.blind (.issue .item g.token.feed))).bind fun r =>
        blind_giving dest g.owner r
    · exact blind_pure _
  | exit source dest =>
    exact blind_withSource fun g shape => (blind_on (blind_exit shape g.token)).bind fun r =>
      blind_giving dest g.owner r
  | send source label dest =>
    exact blind_withSource fun g point => (blind_on (blind_sendAt g.token point)).bind fun r =>
      blind_giving dest g.owner r
  | finish source => exact blind_withSource blind_finishing
  | finishTaking source sequence dest =>
    exact blind_withSource fun g point => blind_withSequence fun owner q =>
      (blind_finishing g point).bind fun _ => (blind_take owner q dest).bind fun _ => blind_pure _
  | finishDropping source sequence =>
    refine blind_withSource fun g point => blind_withSequence fun owner q =>
      (blind_finishing g point).bind fun _ => (blind_remove sequence).bind fun held =>
        (blind_release held).bind fun _ => ?_
    split <;> exact blind_pure _

/-- **One move.** Only a loop that the move starts looks up a bound. -/
theorem alike_move (h : t.unbounded = s.unbounded) (hshows : m.showsTable = false)
    (hbound : ∀ i head, s.starts? m = some (i, head) →
      t.boundOf? i head.param = s.boundOf? i head.param) : Alike s t (move m) := by
  cases m with
  | foreach source dest =>
    refine alike_withSource h fun g shape hget hshape => ?_
    have hattempt : s.attempt? (.foreach source dest) = some (g, .begin shape g.token) :=
      Session.attempt?_eq_some_iff.2 ⟨source.name, rfl, hget, by simp [Session.callOn?, hshape]⟩
    refine Alike.bind (alike_on (unbounded_moveOut h source) fun x y hx hy => ?_)
      fun r => blind_takeTurn _ r
    obtain ⟨hxy, hfound⟩ := Session.found_of_attempt h hattempt hbound hx hy
    exact alike_begin hxy hfound
  | returnState name =>
    refine blind_returning (fun loop => ?_) s t h
    exact (blind_remove name).bind fun held => blind_bodyReturned loop held
  | returnFault fault => exact blind_returning (fun loop => blind_bodyFailed loop fault) s t h
  | act action =>
    by_cases henters : ∃ source surface dest after, action = .enter source surface dest after
    · obtain ⟨source, surface, dest, after, rfl⟩ := henters
      refine alike_withSource h fun g p hget hp => ?_
      obtain ⟨via, shape⟩ := p
      have hmoved := unbounded_moveOut h source
      have hattempt : s.attempt? (.act (.enter source surface dest after)) =
          some (g, if via = .iterator then .iterate shape g.token else .enter shape g.token) :=
        Session.attempt?_eq_some_iff.2 ⟨source.name, rfl, hget, by simp [Session.callOn?, hp]⟩
      have hpolling (hne : via ≠ .iterator) : Alike (s.moveOut source) (t.moveOut source)
          (on g.owner (Polling.enter shape g.token)) := by
        rw [if_neg hne] at hattempt
        refine alike_on hmoved fun x y hx hy => ?_
        obtain ⟨hxy, hfound⟩ := Session.found_of_attempt h hattempt hbound hx hy
        exact alike_enter hxy hfound
      cases via with
      | iterator =>
        rw [if_pos rfl] at hattempt
        refine Alike.bind (alike_on hmoved fun x y hx hy => ?_) fun r => ?_
        · obtain ⟨hxy, hfound⟩ := Session.found_of_attempt h hattempt hbound hx hy
          exact alike_iterate hxy hfound
        · rcases r with fault | ⟨q, next⟩
          · exact blind_pure _
          · exact (blind_store dest _).bind fun _ => (blind_store after _).bind fun _ =>
              blind_pure _
      | polling => exact (hpolling (by simp)).bind fun r => blind_giving dest g.owner r
      | callback => exact (hpolling (by simp)).bind fun r => blind_giving dest g.owner r
    · refine blind_perform hshows (fun source surface dest after heq => henters ?_) s t h
      exact ⟨source, surface, dest, after, heq⟩

/-- A move that shows the table leaves all but the parameters as it was. -/
theorem unbounded_of_showsTable (hshows : m.showsTable = true) (s : Session) :
    (s.after [m]).unbounded = s.unbounded := by
  cases m with
  | act action =>
    cases action with
    | params i =>
      refine congrArg Session.unbounded ?_
      show ((perform (.params i)).run s).2 = s
      exact withInstance_of (R := fun p => p.2 = s) rfl fun _ _ => rfl
    | setParam name bound i =>
      refine withInstance_of (R := fun p => p.2.unbounded = s.unbounded) rfl fun x _ => ?_
      rw [run_on]
      have hset := unbounded_congr (World.unbounded_setParam s.world i name bound) s.vars s.running
      cases (s.world.on i (Act.setParam name bound)).1 <;> exact hset
    | _ => cases hshows
  | _ => cases hshows

end SessionM

/-! ## Runs -/

/-- The moves are the same but for those that set parameters. -/
def SameSteps (ms ns : List Move) : Prop :=
  ms.filter (!·.setsParam) = ns.filter (!·.setsParam)

/-- Lists that are the same but for some elements grow from nothing by such elements on either side
and by others on both. -/
theorem filter_induction {α : Type} {p : α → Bool} {P : List α → List α → Prop} (hnil : P [] [])
    (hleft : ∀ as bs a, p a = false → P as bs → P (as ++ [a]) bs)
    (hright : ∀ as bs b, p b = false → P as bs → P as (bs ++ [b]))
    (hboth : ∀ as bs a, as.filter p = bs.filter p → P as bs → P (as ++ [a]) (bs ++ [a]))
    {as bs : List α} (h : as.filter p = bs.filter p) : P as bs := by
  induction as using List.reverseRecOn generalizing bs with
  | nil =>
    induction bs using List.reverseRecOn with
    | nil => exact hnil
    | append_singleton bs b ih =>
      cases hb : p b with
      | false => exact hright [] bs b hb (ih (by simpa [hb] using h))
      | true => simp [hb] at h
  | append_singleton as a iha =>
    cases ha : p a with
    | false => exact hleft as bs a ha (iha (by simpa [ha] using h))
    | true =>
      induction bs using List.reverseRecOn with
      | nil => simp [ha] at h
      | append_singleton bs b ihb =>
        cases hb : p b with
        | false => exact hright (as ++ [a]) bs b hb (ihb (by simpa [hb] using h))
        | true =>
          obtain ⟨hrest, hlast⟩ : as.filter p = bs.filter p ∧ a = b := by simpa [ha, hb] using h
          subst hlast
          exact hboth as bs a hrest (iha hrest)

namespace Session

open SessionM

variable {s u : Session} {m : Move}

/-- A move from sessions that differ in parameters at most leaves such sessions. -/
theorem unbounded_after {t : Session} (h : t.unbounded = s.unbounded)
    (hbound : ∀ i head, s.starts? m = some (i, head) →
      t.boundOf? i head.param = s.boundOf? i head.param) :
    (t.after [m]).unbounded = (s.after [m]).unbounded := by
  cases hshows : m.showsTable with
  | false => exact (alike_move h hshows hbound).2
  | true => rw [unbounded_of_showsTable hshows, unbounded_of_showsTable hshows, h]

theorem unbounded_of_setsParam (hsets : m.setsParam = true) (s : Session) :
    (s.after [m]).unbounded = s.unbounded := by
  refine unbounded_of_showsTable ?_ s
  cases m with
  | act action => cases action <;> first | rfl | cases hsets
  | _ => cases hsets

/-- Parameters are set, and nothing else is changed. -/
theorem unbounded_after_sets {sets : List Move} (hsets : ∀ c ∈ sets, c.setsParam = true)
    (s : Session) : (s.after sets).unbounded = s.unbounded := by
  induction sets generalizing s with
  | nil => rfl
  | cons c sets ih =>
    obtain ⟨hc, hsets⟩ := List.forall_mem_cons.1 hsets
    exact (ih hsets (s.after [c])).trans (unbounded_of_setsParam hc s)

/-- **Bounds are read at fresh activations.** Two runs from one session make the same moves but for
those that set parameters, and each loop that starts finds the same bound in both. Then at
corresponding points they differ in parameters at most, and every other move is answered the same.
In particular a change of the parameters is of no account to any move that starts no loop. -/
theorem bounds_read_at_starts (s : Session) {ms ns : List Move}
    (hbound : ∀ before before' m i head, before ++ [m] <+: ms → before' ++ [m] <+: ns →
      SameSteps before before' → (s.after before).starts? m = some (i, head) →
      (s.after before').boundOf? i head.param = (s.after before).boundOf? i head.param) :
    (∀ before before', before <+: ms → before' <+: ns → SameSteps before before' →
      (s.after before').unbounded = (s.after before).unbounded) ∧
    (∀ before before' m, before ++ [m] <+: ms → before' ++ [m] <+: ns →
      SameSteps before before' → m.showsTable = false →
      (s.after before').reply m = (s.after before).reply m) ∧
    ∀ (u : Session) (sets : List Move) (m : Move), (∀ c ∈ sets, c.setsParam = true) →
      u.starts? m = none →
      ((u.after sets).after [m]).unbounded = (u.after [m]).unbounded ∧
      (m.showsTable = false → (u.after sets).reply m = u.reply m) := by
  have hpoints : ∀ {before before'}, SameSteps before before' → before <+: ms → before' <+: ns →
      (s.after before').unbounded = (s.after before).unbounded := by
    intro before before' hsame
    refine filter_induction (P := fun as bs => as <+: ms → bs <+: ns →
      (s.after bs).unbounded = (s.after as).unbounded) ?_ ?_ ?_ ?_ hsame
    · exact fun _ _ => rfl
    · intro as bs a ha ih has hbs
      rw [after_append, unbounded_of_setsParam (by simpa using ha)]
      exact ih ((List.prefix_append as [a]).trans has) hbs
    · intro as bs b hb ih has hbs
      rw [after_append, unbounded_of_setsParam (by simpa using hb)]
      exact ih has ((List.prefix_append bs [b]).trans hbs)
    · intro as bs a hrest ih has hbs
      rw [after_append, after_append]
      refine unbounded_after ?_ fun i head => hbound as bs a i head has hbs hrest
      exact ih ((List.prefix_append as [a]).trans has) ((List.prefix_append bs [a]).trans hbs)
  refine ⟨fun before before' hms hns hsame => hpoints hsame hms hns,
    fun before before' m hms hns hsame hshows => ?_, fun u sets m hsets hnone => ?_⟩
  · have hpoint := hpoints hsame ((List.prefix_append before [m]).trans hms)
      ((List.prefix_append before' [m]).trans hns)
    exact (alike_move hpoint hshows fun i head => hbound before before' m i head hms hns hsame).1
  · have hpoint := unbounded_after_sets hsets u
    have hnever : ∀ i head, u.starts? m = some (i, head) →
        (u.after sets).boundOf? i head.param = u.boundOf? i head.param := by
      intro i head hstarts
      rw [hnone] at hstarts
      cases hstarts
    exact ⟨unbounded_after hpoint hnever, fun hshows => (alike_move hpoint hshows hnever).1⟩

/-- The inner of two callback loops starts with the bound of the outer one. In one run the parameter
of both was changed and changed back before, and is no bound at all when the body of the inner loop
has begun. -/
theorem bounds_read_at_starts_nested :
    let s := (start 0 [(BoundTable.ofList [("k", 2)], none)]).after
      [.act (.issue (Nested.start .callback) ⟨0⟩ "a"), .foreach ⟨"a", false⟩ "done"]
    let ms : List Move := [.foreach ⟨"it", false⟩ "inner", .act (.send ⟨"it", false⟩ "foo" "e"),
      .returnState "e"]
    let ns : List Move := [.act (.setParam "k" 7 ⟨0⟩), .act (.setParam "k" 2 ⟨0⟩),
      .foreach ⟨"it", false⟩ "inner", .act (.setParam "k" 0 ⟨0⟩),
      .act (.send ⟨"it", false⟩ "foo" "e"), .returnState "e"]
    (s.starts? (.foreach ⟨"it", false⟩ "inner")).isSome ∧
    (s.after ns).unbounded = (s.after ms).unbounded ∧
    (s.after ns).boundOf? ⟨0⟩ "k" ≠ (s.after ms).boundOf? ⟨0⟩ "k" := by
  intro s ms ns
  have hbound : ∀ before before' m i head, before ++ [m] <+: ms → before' ++ [m] <+: ns →
      SameSteps before before' → (s.after before).starts? m = some (i, head) →
      (s.after before').boundOf? i head.param = (s.after before).boundOf? i head.param := by
    intro before before' m i head hms hns hsame hstarts
    rcases before with _ | ⟨a, _ | ⟨b, _ | ⟨c, before⟩⟩⟩
    · obtain ⟨rfl, -⟩ := List.cons_prefix_cons.1 hms
      have hstart : s.starts? (.foreach ⟨"it", false⟩ "inner") =
          some (⟨0⟩, (Nested.inner .callback).head) := by decide +kernel
      obtain ⟨rfl, rfl⟩ : ⟨0⟩ = i ∧ (Nested.inner .callback).head = head := by
        simpa using hstart.symm.trans hstarts
      rcases before' with _ | ⟨a, _ | ⟨b, _ | ⟨c, before'⟩⟩⟩
      · cases (List.cons_prefix_cons.1 hns).1
      · obtain ⟨rfl, hrest⟩ := List.cons_prefix_cons.1 hns
        cases (List.cons_prefix_cons.1 hrest).1
      · obtain ⟨rfl, hrest⟩ := List.cons_prefix_cons.1 hns
        obtain ⟨rfl, -⟩ := List.cons_prefix_cons.1 hrest
        decide +kernel
      · obtain ⟨rfl, hrest⟩ := List.cons_prefix_cons.1 hns
        obtain ⟨rfl, hlast⟩ := List.cons_prefix_cons.1 hrest
        obtain ⟨rfl, -⟩ := List.cons_prefix_cons.1 hlast
        simp [SameSteps, Move.setsParam] at hsame
    · obtain ⟨rfl, hrest⟩ := List.cons_prefix_cons.1 hms
      obtain ⟨rfl, -⟩ := List.cons_prefix_cons.1 hrest
      have hnone : (s.after [.foreach ⟨"it", false⟩ "inner"]).starts?
          (.act (.send ⟨"it", false⟩ "foo" "e")) = none := by decide +kernel
      rw [hnone] at hstarts
      cases hstarts
    · obtain ⟨rfl, hrest⟩ := List.cons_prefix_cons.1 hms
      obtain ⟨rfl, hlast⟩ := List.cons_prefix_cons.1 hrest
      obtain ⟨rfl, -⟩ := List.cons_prefix_cons.1 hlast
      have hnone : (s.after [.foreach ⟨"it", false⟩ "inner",
          .act (.send ⟨"it", false⟩ "foo" "e")]).starts? (.returnState "e") = none := by
        decide +kernel
      rw [hnone] at hstarts
      cases hstarts
    · have hlength := hms.length_le
      simp only [ms, List.length_append, List.length_cons, List.length_nil] at hlength
      omega
  obtain ⟨hpoints, -, -⟩ := bounds_read_at_starts s hbound
  exact ⟨by decide +kernel, hpoints ms ns List.prefix_rfl List.prefix_rfl rfl, by decide +kernel⟩

end Session

end LoopProtocol
