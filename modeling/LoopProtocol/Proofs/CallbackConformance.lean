import LoopProtocol.Proofs.Conformance
import LoopProtocol.Proofs.OneState

/-!
# Runs of the nested protocol on the callback surface

A driver starts the nested protocol once, and its body functions do whatever they like with the
states of the run: they keep, alias and drop them, use them late or twice, return any that ends an
iteration, and go on after a fault. At every moment the events are the beginning of a complete
run's, and the protocol ends only with a complete run.
-/

namespace LoopProtocol

open Nested

/-! ## Along the deeds of a session -/

/-- What a driver of the nested protocol on an instance may do there. -/
def Deed.Permits (surface : Surface) (i : InstanceId) : Deed → Prop
  | .call j c => j = i → Nested.Permits surface i c
  | .clear _ => True

namespace Dealing

variable {surface : Surface} {d d' : Dealing} {es : List Deed} {i : InstanceId} {x : Instance}
  {n : Nat}

/-- The instance gives one state at a time, and so many first states are to come. A state that was
taken back from a body was the only one. -/
structure OneAtATime (d : Dealing) (surface : Surface) (i : InstanceId) (n : Nat) : Prop where
  phase : ∃ x p, d.world.instance? i = some x ∧ p.starts = n ∧ OneState surface (d.givenBy i) p x ∧
    ∀ t, d.due = some ⟨i, t⟩ →
      ∃ place, t.site = siteAt surface place ∧ NoState surface (d.givenBy i) p place x
  begun : ∀ shape ∈ d.begunOn i, IsLoop shape

/-- A state is due only after a body returned one that was unused. -/
theorem takesBack_eq_some {c : Call} {h : Handle} (hdue : d.takesBack i c = some h) :
    ∃ t, c = .giveBack t ∧ h = ⟨i, t⟩ ∧ ∃ v, (d.world.on i t.consume).1 = .ok v := by
  cases c with
  | giveBack t =>
    cases hr : (d.world.on i t.consume).1 with
    | ok v =>
      simp only [takesBack, hr, Option.some.injEq] at hdue
      exact ⟨t, rfl, hdue.symm, v, hr⟩
    | error e => simp [takesBack, hr] at hdue
  | _ => cases hdue

/-- A state was taken back from a body. -/
theorem OneAtATime.giveBack (h : d.OneAtATime surface i n) {t : Token} (ht : t ∈ d.givenBy i)
    {v : Unit} (hv : (d.world.on i t.consume).1 = .ok v) :
    (d.perform (.call i (.giveBack t))).OneAtATime surface i n := by
  obtain ⟨⟨x, p, hx, rfl, hp, -⟩, hbegun⟩ := h
  rw [World.on_eq hx] at hv
  obtain ⟨place, hsite, hno⟩ := (hp.ends_consume ht).of_ok hv
  have hgains : (Call.giveBack t).gains x = [] := by
    unfold Call.gains
    rw [Call.act, Act.on_map, hv]
    rfl
  have hgiven : (d.perform (.call i (.giveBack t))).givenBy i = d.givenBy i := by
    rw [givenBy_perform_self hx, hgains, List.append_nil]
  have hy : (d.perform (.call i (.giveBack t))).world.instance? i = some (t.consume.on x).2 := by
    have hself := World.instance?_on_self hx (Call.giveBack t).act
    rwa [Call.act, Act.on_map] at hself
  refine ⟨⟨_, p, hy, rfl, ?_, fun u hu => ?_⟩, ?_⟩
  · rw [hgiven]
    exact hno.toOneState
  · obtain ⟨t', ht', hu', -⟩ := takesBack_eq_some (c := .giveBack t) hu
    cases ht'
    cases hu'
    rw [hgiven]
    exact ⟨place, hsite, hno⟩
  · simpa [begunOn, Dealing.perform, Call.begins] using hbegun

/-- A call on the instance that takes no state back. -/
theorem OneAtATime.call (h : d.OneAtATime surface i n) {c : Call} (hlegal : d.Legal (.call i c))
    (hsurface : surface ≠ .iterator) (hpermits : Nested.Permits surface i c)
    (hstarts : startsOf c ≤ n)
    (hkeeps : ∀ t, (d.perform (.call i c)).due ≠ some ⟨i, t⟩) :
    (d.perform (.call i c)).OneAtATime surface i (n - startsOf c) := by
  obtain ⟨⟨x, p, hx, rfl, hp, hdue⟩, hbegun⟩ := h
  obtain ⟨hc, hadvance⟩ := hlegal
  -- a loop goes on for the state that was taken back, which was the only one
  have hgoes : ∀ shape, c = .advance shape i →
      ∃ place, shape.tail = siteAt surface place ∧ NoState surface (d.givenBy i) p place x := by
    intro shape hshape
    obtain ⟨t, ht, htail⟩ := hadvance shape i hshape
    obtain ⟨place, hsite, hno⟩ := hdue t ht
    exact ⟨place, htail.symm.trans hsite, hno⟩
  have hends := hp.ends_call hc hbegun hsurface hpermits hgoes hstarts
  obtain ⟨p', hp', hone⟩ := hends.gains (P := fun given => OneState.Reaches surface given _)
  refine ⟨⟨_, p', World.instance?_on_self hx c.act, hp', ?_, fun t ht => ?_⟩, fun shape hmem => ?_⟩
  · rwa [givenBy_perform_self hx]
  · exact absurd ht (hkeeps t)
  · rcases List.mem_append.1 (mem_begunOn.1 hmem) with hold | hnew
    · exact hbegun shape (mem_begunOn.2 hold)
    · obtain ⟨shape', hbegins, heq⟩ := List.mem_map.1 hnew
      cases heq
      cases c with
      | begin shape' t =>
        obtain rfl := List.mem_singleton.1 hbegins
        exact hp.isLoop hc.1 hc.2
      | _ => cases hbegins

theorem OneAtATime.perform (h : d.OneAtATime surface i n) {e : Deed} (hlegal : d.Legal e)
    (hsurface : surface ≠ .iterator) (hpermits : e.Permits surface i)
    (hstarts : [e].countP (Deed.startsOn i) ≤ n) :
    (d.perform e).OneAtATime surface i (n - [e].countP (Deed.startsOn i)) := by
  match e with
  | .clear r =>
    obtain ⟨⟨x, p, hx, hn, hp, -⟩, hbegun⟩ := h
    exact ⟨⟨x, p, hx, hn, hp, fun t ht => by cases ht⟩, hbegun⟩
  | .call j c =>
    by_cases hj : j = i
    · subst hj
      rw [Deed.countP_startsOn_self] at hstarts ⊢
      by_cases htakes : ∃ t, d.takesBack j c = some ⟨j, t⟩
      · obtain ⟨t, ht⟩ := htakes
        obtain ⟨u, rfl, -, v, hv⟩ := takesBack_eq_some ht
        exact h.giveBack hlegal.1.1 hv
      · exact h.call hlegal hsurface (hpermits rfl) hstarts fun t ht => htakes ⟨t, ht⟩
    · obtain ⟨⟨x, p, hx, rfl, hp, -⟩, hbegun⟩ := h
      obtain ⟨hgiven, hsame⟩ := perform_of_ne (d := d) hj c
      rw [Deed.countP_startsOn_of_ne hj]
      refine ⟨⟨x, p, (World.instance?_on_of_ne (Ne.symm hj) c.act).trans hx, rfl, ?_, ?_⟩, ?_⟩
      · rwa [hgiven]
      · intro t ht
        obtain ⟨u, -, hu, -⟩ := takesBack_eq_some (c := c) ht
        exact absurd (congrArg Handle.owner hu) (Ne.symm hj)
      · rwa [hsame]

theorem Runs.oneAtATime (h : d.Runs es d') (hd : d.OneAtATime surface i n)
    (hsurface : surface ≠ .iterator) (hpermits : ∀ e ∈ es, e.Permits surface i)
    (hcount : es.countP (Deed.startsOn i) ≤ n) : ∃ n, d'.OneAtATime surface i n :=
  h.counted (F := fun n d => d.OneAtATime surface i n) hd hpermits hcount
    fun hd hlegal hpermits hle => hd.perform hlegal hsurface hpermits hle

end Dealing

/-! ## Along the moves of a session -/

/-- Whether the move is one of a driver that runs the nested protocol on an instance with its own
recorder. Of the instance it gets no state but the protocol's first and what follows it, and it uses
these by their transitions, or consumes them; the bodies of the instance's loops return no state of
another instance. -/
def Session.permits (s : Session) (i : InstanceId) (r : RecorderId) : Move → Bool
  | .act (.issue site j _) => j = i → site = Nested.start .callback
  | .act (.use of u) => (s.stateIn? of).all fun h => h.owner = i → u = .consume
  | .act (.clearEvents r') => r' ≠ r
  | .returnState name =>
    s.running.head?.all fun loop => (s.stateIn? name).all fun h => loop.owner = i → h.owner = i
  | _ => true

namespace Nested

/-- The moves of a driver that runs the nested protocol on the instance once, from the session
on. -/
structure CallbackRun (i : InstanceId) (r : RecorderId) (s : Session) (moves : List Move) :
    Prop where
  permits : ∀ before m later, moves = before ++ m :: later →
    (s.after before).permits i r m = true
  once : moves.countP (Move.startsOn i) ≤ 1

variable {recorders : Nat} {instances : List (BoundTable × Option RecorderId)} {i : InstanceId}
  {r : RecorderId} {moves : List Move} {s : Session}

/-- Each move is permitted in the session that those before it lead to. -/
theorem CallbackRun.of_forall
    (hpermits : ∀ n : Fin moves.length, (s.after (moves.take n)).permits i r moves[n] = true)
    (honce : moves.countP (Move.startsOn i) ≤ 1) : CallbackRun i r s moves := by
  refine ⟨?_, honce⟩
  rintro before m later rfl
  have hlt : before.length < (before ++ m :: later).length := by simp
  simpa using hpermits ⟨before.length, hlt⟩

theorem CallbackRun.permits_deed (h : CallbackRun i r s moves) {e : Deed}
    (horders : e.isOrder = true → s.Ordered moves e) : e.Permits .callback i := by
  cases e with
  | clear r' => trivial
  | call j c =>
    intro hj
    subst hj
    cases c with
    | issue site =>
      obtain ⟨before, m, later, hmoves, hord⟩ := horders rfl
      have hpermits := h.permits before m later hmoves
      obtain ⟨dest, rfl⟩ := hord.issue
      show site = start .callback
      simpa [Session.permits] using hpermits
    | use t u =>
      obtain ⟨before, m, later, hmoves, hord⟩ := horders rfl
      have hpermits := h.permits before m later hmoves
      obtain ⟨of, rfl, hget⟩ := hord.use
      show u = .consume
      simpa [Session.permits, Session.stateIn?, hget] using hpermits
    | advance shape k =>
      by_cases hk : j = k
      · exact hk.symm
      · obtain ⟨before, m, later, hmoves, hord⟩ := horders (by simpa [Deed.isOrder] using hk)
        have hpermits := h.permits before m later hmoves
        obtain ⟨name, loop, outer, t, rfl, hrunning, howner, hget⟩ := hord.advance
        show k = j
        simpa [Session.permits, Session.stateIn?, hrunning, hget, howner] using hpermits
    | _ => trivial

theorem CallbackRun.clear_not_mem (h : CallbackRun i r s moves) :
    .act (.clearEvents r) ∉ moves := by
  intro hmem
  obtain ⟨before, later, hmoves⟩ := List.append_of_mem hmem
  have hpermits := h.permits before _ later hmoves
  simp [Session.permits] at hpermits

/-- After any moves the instance gives one state at a time, and its recorder has heard what it
reported. -/
theorem CallbackRun.oneAtATime (halone : Session.ReportsAlone recorders instances i r)
    (h : CallbackRun i r (.start recorders instances) moves) :
    ∃ d : Dealing, d.Covers ((Session.start recorders instances).after moves) ∧ d.world.Hears r i ∧
      ∃ n, d.OneAtATime .callback i n := by
  obtain ⟨es, d, hr, hcov, horders, hcount⟩ :=
    Session.after_deeds (Dealing.covers_start recorders instances) moves
  obtain ⟨bounds, hbounds⟩ := halone.reports
  have hidle : OneState .callback [] .idle (Instance.create i bounds (some r)) := by
    refine ⟨trivial, rfl, fun _ => rfl, rfl, ?_, ?_, ?_, ?_⟩ <;> simp
  have hstart :
      (Dealing.start (Session.start recorders instances).world).OneAtATime .callback i 1 := by
    refine ⟨⟨Instance.create i bounds (some r), .idle, ?_, rfl, hidle, fun t ht => by cases ht⟩, ?_⟩
    · show (Session.start recorders instances).world.instance? i = _
      rw [Session.instance?_start, hbounds]
      rfl
    · simp [Dealing.start]
  refine ⟨d, hcov, hr.hears halone.hears_start ?_, ?_⟩
  · exact Session.clear_not_mem horders h.clear_not_mem
  · have hstarts := hcount (Deed.startsOn i) (Move.startsOn i)
      (fun e he => Deed.isOrder_of_startsOn he) fun _ m e hord he => Move.startsOn_of_orders hord he
    exact hr.oneAtATime hstart (by simp) (fun e he => h.permits_deed (horders e he))
      (Nat.le_trans hstarts h.once)

/-- **Whatever its bodies do, a driver reports only the beginning of a complete run**, and the end
of the protocol succeeds only if it completes one. -/
theorem conforms_in_any_body (halone : Session.ReportsAlone recorders instances i r)
    (h : CallbackRun i r (.start recorders instances) moves) :
    let s := (Session.start recorders instances).after moves
    (∃ (b : Bound) (c : Nat → Bound), s.heard r <+: word b.count fun i => (c i).count) ∧
    ∀ (source : Source) (t : Token), s.vars.get? source.name = some (.state ⟨i, t⟩) →
      t.site = .nested .callback .done → s.reply (.act (.finish source)) = .done →
      ∃ (b : Bound) (c : Nat → Bound),
        (s.after [.act (.finish source)]).heard r = word b.count fun i => (c i).count := by
  intro s
  obtain ⟨d, hcov, hhears, n, ⟨x, p, hx, -, hp, -⟩, -⟩ := h.oneAtATime halone
  refine ⟨?_, fun source t hsource hsite hdone => ?_⟩
  · rw [hcov.heard_eq hhears hx, hp.log]
    exact Phase.log_prefix_word hp.valid
  · have ht : t ∈ d.givenBy i := Dealing.mem_givenBy.2 (hcov.mem hsource)
    have hend : t.site.end? = some (.protocol (closesAtEnd .callback)) := by rw [hsite]; rfl
    obtain ⟨v, hv, hheard⟩ := heard_finish hcov hhears hx hsource hend hdone
    obtain ⟨b, c, -, hended⟩ := (hp.ends_finish ht hend).of_ok hv
    refine ⟨b, c, ?_⟩
    rw [hheard, hended.log]
    rfl

/-- A run to the end, with aliases of the head and of the body of the outer loop left over. -/
theorem conforms_with_aliases :
    let instances := [(BoundTable.ofList [("k", 1)], some ⟨0⟩)]
    let moves : List Move :=
      [.act (.issue (start .callback) ⟨0⟩ "outer"), .foreach ⟨"outer", true⟩ "done",
        .act (.alias "it" "kept"), .foreach ⟨"it", false⟩ "after",
        .act (.send ⟨"it", false⟩ "foo" "end"), .returnState "end",
        .act (.send ⟨"after", false⟩ "bar" "tail"), .returnState "tail"]
    let s := (Session.start 1 instances).after moves
    Session.ReportsAlone 1 instances ⟨0⟩ ⟨0⟩ ∧
    CallbackRun ⟨0⟩ ⟨0⟩ (.start 1 instances) moves ∧
    s.reply (.act (.finish ⟨"done", false⟩)) = .done ∧
    ∃ (b : Bound) (c : Nat → Bound), (s.after [.act (.finish ⟨"done", false⟩)]).heard ⟨0⟩ =
      word b.count fun i => (c i).count := by
  intro instances moves s
  have halone : Session.ReportsAlone 1 instances ⟨0⟩ ⟨0⟩ := Session.reportsAlone_single _
  have hmoves : CallbackRun ⟨0⟩ ⟨0⟩ (.start 1 instances) moves :=
    .of_forall (by decide +kernel) (by decide)
  let done : Token := ⟨⟨6⟩, .nested .callback .done, none⟩
  have hsource : s.vars.get? "done" = some (.state ⟨⟨0⟩, done⟩) := by decide +kernel
  have hdone : s.reply (.act (.finish ⟨"done", false⟩)) = .done := by
    have hreply : (match s.reply (.act (.finish ⟨"done", false⟩)) with
      | .done => true
      | _ => false) = true := by decide +kernel
    split at hreply
    · next h => exact h
    · cases hreply
  exact ⟨halone, hmoves, hdone,
    (conforms_in_any_body halone hmoves).2 ⟨"done", false⟩ done hsource rfl hdone⟩

end Nested

end LoopProtocol
