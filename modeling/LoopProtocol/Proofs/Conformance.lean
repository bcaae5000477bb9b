import LoopProtocol.Proofs.Attempt
import LoopProtocol.Proofs.PhaseCall
import LoopProtocol.Proofs.Recording

/-!
# Runs of the nested protocol on the iterator surface

A driver starts the nested protocol once and then does whatever it likes with the states and
sequences that it gets: it uses them early, late or twice, drops them, and goes on after an abort.
At every moment the events are the beginning of a complete run's, the protocol ends only with a
complete run, and nothing is reported after its end.
-/

namespace LoopProtocol

open Nested

/-! ## Along the deeds of a session -/

/-- What a driver of the nested protocol on an instance may do there. -/
def Deed.Admits (i : InstanceId) : Deed → Prop
  | .call j c => j = i → Nested.Admits c
  | .clear _ => True

/-- Whether a deed gives out a first state on the instance. -/
def Deed.startsOn (i : InstanceId) : Deed → Bool
  | .call j (.issue _) => j = i
  | _ => false

theorem Deed.countP_startsOn_self (i : InstanceId) (c : Call) :
    [Deed.call i c].countP (startsOn i) = startsOf c := by
  cases c <;> simp [startsOn, startsOf]

theorem Deed.countP_startsOn_of_ne {i j : InstanceId} (hj : j ≠ i) (c : Call) :
    [Deed.call j c].countP (startsOn i) = 0 := by
  cases c <;> simp [startsOn, hj]

namespace Dealing

variable {d d' : Dealing} {es : List Deed} {i : InstanceId} {x : Instance} {n : Nat}

/-- The instance is in a phase, with so many first states to come, and no callback loop began on
it. -/
structure Follows (d : Dealing) (i : InstanceId) (n : Nat) : Prop where
  conforms : ∃ x, d.world.instance? i = some x ∧ Conforms (d.givenBy i) n x
  begun : d.begunOn i = []

theorem Follows.perform (h : d.Follows i n) {e : Deed} (hlegal : d.Legal e) (hadmits : e.Admits i)
    (hstarts : [e].countP (Deed.startsOn i) ≤ n) :
    (d.perform e).Follows i (n - [e].countP (Deed.startsOn i)) := by
  obtain ⟨⟨x, hx, p, rfl, hp⟩, hbegun⟩ := h
  match e with
  | .clear r => exact ⟨⟨x, hx, p, rfl, hp⟩, hbegun⟩
  | .call j c =>
    by_cases hj : j = i
    · subst hj
      rw [Deed.countP_startsOn_self] at hstarts ⊢
      obtain ⟨hc, -⟩ := hlegal
      rw [hbegun] at hc
      have hends := hp.ends_call hc (hadmits rfl) hstarts
      refine ⟨⟨_, World.instance?_on_self hx c.act, ?_⟩, ?_⟩
      · rw [givenBy_perform_self hx]
        exact hends.gains (P := fun given => Conforms given _)
      · simpa [begunOn, Dealing.perform, hp.begins_eq_nil hc] using hbegun
    · obtain ⟨hgiven, hsame⟩ := perform_of_ne (d := d) hj c
      rw [Deed.countP_startsOn_of_ne hj]
      refine ⟨⟨x, (World.instance?_on_of_ne (Ne.symm hj) c.act).trans hx, p, rfl, ?_⟩, ?_⟩
      · rwa [hgiven]
      · rwa [hsame]

theorem Runs.follows (h : d.Runs es d') (hd : d.Follows i n) (hadmits : ∀ e ∈ es, e.Admits i)
    (hcount : es.countP (Deed.startsOn i) ≤ n) : ∃ n, d'.Follows i n :=
  h.counted (F := fun n d => d.Follows i n) hd hadmits hcount fun hd hlegal hadmits hle =>
    hd.perform hlegal hadmits hle

end Dealing

/-! ## Along the moves of a session -/

/-- What a recorder has heard in a session. -/
def Session.heard (s : Session) (r : RecorderId) : List Event := (s.world.recorders.events r).toList

/-- A recorder with one instance has heard what the instance reported. -/
theorem Dealing.Covers.heard_eq {d : Dealing} {s : Session} {r : RecorderId} {i : InstanceId}
    {x : Instance} (h : d.Covers s) (hhears : d.world.Hears r i)
    (hx : d.world.instance? i = some x) : s.heard r = x.events.toList := by
  obtain ⟨-, ⟨x', hx', -, hheard⟩, -⟩ := hhears
  obtain rfl : x = x' := Option.some.inj (hx.symm.trans hx')
  rw [Session.heard, ← h.world, hheard]

/-- A move of a driver of the nested protocol on an instance with its own recorder. Of the instance
it gets no state but the protocol's first and what follows it, and it uses none past its
transitions. -/
def Move.Conforms (i : InstanceId) (r : RecorderId) : Move → Prop
  | .act (.issue site j _) => j = i → site = start .iterator
  | .act (.use _ _) => False
  | .act (.clearEvents r') => r' ≠ r
  | _ => True

/-- Whether a move gives out a first state on the instance. -/
def Move.startsOn (i : InstanceId) : Move → Bool
  | .act (.issue _ j _) => j = i
  | _ => false

theorem Deed.isOrder_of_startsOn {i : InstanceId} {e : Deed} (h : e.startsOn i = true) :
    e.isOrder = true := by
  cases e with
  | clear r => rfl
  | call j c => cases c <;> first | rfl | cases h

theorem Move.startsOn_of_orders {i : InstanceId} {s : Session} {m : Move} {e : Deed}
    (hord : m.Orders s e) (h : e.startsOn i = true) : m.startsOn i = true := by
  cases e with
  | clear r => cases h
  | call j c =>
    cases c with
    | issue site =>
      obtain ⟨dest, rfl⟩ := hord.issue
      exact h
    | _ => cases h

namespace Nested

/-- The moves of a driver that runs the nested protocol on the instance once. -/
structure OneRun (i : InstanceId) (r : RecorderId) (moves : List Move) : Prop where
  conforms : ∀ m ∈ moves, m.Conforms i r
  once : moves.countP (Move.startsOn i) ≤ 1

variable {recorders : Nat} {instances : List (BoundTable × Option RecorderId)} {i : InstanceId}
  {r : RecorderId} {moves : List Move} {s : Session} {d : Dealing}

theorem OneRun.admits (h : OneRun i r moves) {e : Deed}
    (horders : e.isOrder = true → s.Ordered moves e) : e.Admits i := by
  cases e with
  | clear r' => trivial
  | call j c =>
    intro hj
    cases c with
    | issue site =>
      obtain ⟨before, m, later, rfl, hord⟩ := horders rfl
      have hconforms := h.conforms m (by simp)
      obtain ⟨dest, rfl⟩ := hord.issue
      exact hconforms hj
    | use t u =>
      obtain ⟨before, m, later, rfl, hord⟩ := horders rfl
      have hconforms := h.conforms m (by simp)
      obtain ⟨of, rfl, -⟩ := hord.use
      exact hconforms
    | _ => trivial

theorem OneRun.clear_not_mem (h : OneRun i r moves) : .act (.clearEvents r) ∉ moves :=
  fun hmem => h.conforms _ hmem rfl

/-- What the end of the protocol answers, and what it does. -/
theorem move_finish {source : Source} {t : Token} {closes : Option LoopId}
    (hsource : s.vars.get? source.name = some (.state ⟨i, t⟩))
    (hend : t.site.end? = some (.protocol closes)) :
    (SessionM.move (.act (.finish source))).run s =
      ((match (s.world.on i (t.finish closes)).1 with
        | .ok _ => .done
        | .error e => .fault e),
        { s.moveOut source with world := (s.world.on i (t.finish closes)).2 }) := by
  have hrun : (SessionM.move (.act (.finish source))).run s =
      (SessionM.on i (t.finish closes) >>= SessionM.answer .done).run (s.moveOut source) :=
    SessionM.run_withSource hsource hend
  rw [hrun, SessionM.run_answer, Session.world_moveOut]
  cases (s.world.on i (t.finish closes)).1 <;> rfl

/-- What is heard when the protocol ends. -/
theorem heard_finish (hcov : d.Covers s) (hhears : d.world.Hears r i) {x : Instance}
    (hx : d.world.instance? i = some x) {source : Source} {t : Token} {closes : Option LoopId}
    (hsource : s.vars.get? source.name = some (.state ⟨i, t⟩))
    (hend : t.site.end? = some (.protocol closes))
    (hdone : ((SessionM.move (.act (.finish source))).run s).1 = .done) :
    ∃ v, ((t.finish closes).on x).1 = .ok v ∧
      (s.after [.act (.finish source)]).heard r = ((t.finish closes).on x).2.events.toList := by
  have hmove := move_finish hsource hend
  rw [← hcov.world] at hmove
  obtain ⟨v, hv⟩ : ∃ v, (d.world.on i (t.finish closes)).1 = .ok v := by
    cases hr : (d.world.on i (t.finish closes)).1 with
    | ok v => exact ⟨v, rfl⟩
    | error e => simp [hmove, hr] at hdone
  have hcall : (d.world.on i (t.finish closes)).2.Hears r i := by
    have hkept := hhears.call i (.finish t closes)
    rwa [Call.act, World.on_map] at hkept
  obtain ⟨-, ⟨y, hy, -, hheard⟩, -⟩ := hcall
  rw [World.instance?_on_self hx] at hy
  rw [World.on_eq hx] at hv
  obtain rfl := Option.some.inj hy
  refine ⟨v, hv, ?_⟩
  show (((SessionM.move _).run _).2.world.recorders.events r).toList = _
  rw [hmove, hheard]

/-- After any moves the instance is in a phase, and its recorder has heard what it reported. -/
theorem OneRun.follows (halone : Session.ReportsAlone recorders instances i r)
    (h : OneRun i r moves) :
    ∃ d : Dealing, d.Covers ((Session.start recorders instances).after moves) ∧ d.world.Hears r i ∧
      ∃ n, d.Follows i n := by
  obtain ⟨es, d, hr, hcov, horders, hcount⟩ :=
    Session.after_deeds (Dealing.covers_start recorders instances) moves
  obtain ⟨bounds, hbounds⟩ := halone.reports
  have hidle : InPhase [] .idle (Instance.create i bounds (some r)) := by
    refine ⟨trivial, rfl, fun _ => rfl, ?_, ?_, ?_, ?_⟩ <;>
      simp [Known, Queued, Instance.create]
  have hstart : (Dealing.start (Session.start recorders instances).world).Follows i 1 := by
    refine ⟨⟨Instance.create i bounds (some r), ?_, .idle, rfl, hidle⟩, rfl⟩
    show (Session.start recorders instances).world.instance? i = _
    rw [Session.instance?_start, hbounds]
    rfl
  refine ⟨d, hcov, hr.hears halone.hears_start ?_, ?_⟩
  · exact Session.clear_not_mem horders h.clear_not_mem
  · have hstarts := hcount (Deed.startsOn i) (Move.startsOn i) (fun e he => ?_)
      fun _ m e hord he => ?_
    · exact hr.follows hstart (fun e he => h.admits (horders e he)) (Nat.le_trans hstarts h.once)
    · exact Deed.isOrder_of_startsOn he
    · exact Move.startsOn_of_orders hord he

theorem OneRun.prefix_word (halone : Session.ReportsAlone recorders instances i r)
    (h : OneRun i r moves) :
    ∃ (b : Bound) (c : Nat → Bound), ((Session.start recorders instances).after moves).heard r <+:
      word b.count fun i => (c i).count := by
  obtain ⟨d, hcov, hhears, n, ⟨x, hx, p, -, hp⟩, -⟩ := h.follows halone
  rw [hcov.heard_eq hhears hx, hp.log]
  exact Phase.log_prefix_word hp.valid

theorem OneRun.word_of_done (halone : Session.ReportsAlone recorders instances i r)
    (h : OneRun i r moves) {source : Source} {t : Token}
    (hsource : ((Session.start recorders instances).after moves).vars.get? source.name =
      some (.state ⟨i, t⟩))
    (hsite : t.site = .nested .iterator .done)
    (hdone : ((SessionM.move (.act (.finish source))).run
      ((Session.start recorders instances).after moves)).1 = .done) :
    ∃ (b : Bound) (c : Nat → Bound),
      (((Session.start recorders instances).after moves).after [.act (.finish source)]).heard r =
        word b.count fun i => (c i).count := by
  obtain ⟨d, hcov, hhears, n, ⟨x, hx, p, -, hp⟩, -⟩ := h.follows halone
  have ht : Known (d.givenBy i) x t := .inl (Dealing.mem_givenBy.2 (hcov.mem hsource))
  have hend : t.site.end? = some (.protocol (closesAtEnd .iterator)) := by rw [hsite]; rfl
  obtain ⟨v, hv, hheard⟩ := heard_finish hcov hhears hx hsource hend hdone
  obtain ⟨b, c, -, hended⟩ := (hp.ends_finish ht hend).of_ok hv
  refine ⟨b, c, ?_⟩
  rw [hheard, hended.log]
  rfl

/-- Nothing that was heard is taken back. -/
theorem OneRun.heard_prefix_heard {moves' : List Move}
    (halone : Session.ReportsAlone recorders instances i r) (h : OneRun i r moves)
    (h' : OneRun i r (moves ++ moves')) :
    ((Session.start recorders instances).after moves).heard r <+:
      (((Session.start recorders instances).after moves).after moves').heard r := by
  obtain ⟨d, hcov, hhears, n, ⟨x, hx, -⟩, -⟩ := h.follows halone
  obtain ⟨es, d', hr, hcov', horders, -⟩ := Session.after_deeds hcov moves'
  have hclear : .act (.clearEvents r) ∉ moves' := fun hmem =>
    h'.clear_not_mem (List.mem_append_right moves hmem)
  have hhears' := hr.hears hhears (Session.clear_not_mem horders hclear)
  obtain ⟨y, hy, hgrown⟩ := hr.grown hx
  obtain ⟨fs, hfs⟩ := hgrown.events
  rw [hcov.heard_eq hhears hx, hcov'.heard_eq hhears' hy, hfs, Array.toList_append]
  exact List.prefix_append _ _

/-- **In any order of its moves a driver reports only the beginning of a complete run.** The end of
the protocol succeeds only if it completes one, and nothing is reported after it. -/
theorem conforms_in_any_order (halone : Session.ReportsAlone recorders instances i r)
    (h : OneRun i r moves) :
    let s := (Session.start recorders instances).after moves
    (∃ (b : Bound) (c : Nat → Bound), s.heard r <+: word b.count fun i => (c i).count) ∧
    (∀ (source : Source) (t : Token), s.vars.get? source.name = some (.state ⟨i, t⟩) →
      t.site = .nested .iterator .done →
      ((SessionM.move (.act (.finish source))).run s).1 = .done →
      ∃ (b : Bound) (c : Nat → Bound),
        (s.after [.act (.finish source)]).heard r = word b.count fun i => (c i).count) ∧
    (.terminated ∈ s.heard r →
      (∃ (b : Bound) (c : Nat → Bound), s.heard r = word b.count fun i => (c i).count) ∧
      ∀ moves', OneRun i r (moves ++ moves') → (s.after moves').heard r = s.heard r) := by
  intro s
  obtain ⟨b, c, hstart⟩ := h.prefix_word halone
  refine ⟨⟨b, c, hstart⟩, fun source t hsource hsite hdone => ?_, fun hend =>
    ⟨⟨b, c, eq_word_of_terminated hstart hend⟩, fun moves' h' => ?_⟩⟩
  · exact h.word_of_done halone hsource hsite hdone
  · have hgrown := h.heard_prefix_heard halone h'
    obtain ⟨b', c', hstart'⟩ := h'.prefix_word halone
    rw [Session.after_append] at hstart'
    have hbefore := eq_word_of_terminated (hgrown.trans hstart') hend
    have hafter := eq_word_of_terminated hstart' (hgrown.subset hend)
    exact hafter.trans hbefore.symm

/-- A run to the end, with an alias of the state after the inner loop left over. -/
theorem conforms_to_the_end :
    let instances := [(BoundTable.ofList [("k", 1)], some ⟨0⟩)]
    let moves : List Move :=
      [.act (.issue (start .iterator) ⟨0⟩ "outer"),
        .act (.enter ⟨"outer", false⟩ none "bodies" "done"), .act (.take "bodies" "inner"),
        .act (.enter ⟨"inner", false⟩ none "items" "after"), .act (.take "items" "item"),
        .act (.alias "after" "copy"), .act (.send ⟨"item", false⟩ "foo" "end"),
        .act (.finish ⟨"end", false⟩), .act (.send ⟨"after", false⟩ "bar" "tail"),
        .act (.finish ⟨"tail", false⟩), .act (.finish ⟨"done", false⟩)]
    let s := (Session.start 1 instances).after moves
    Session.ReportsAlone 1 instances ⟨0⟩ ⟨0⟩ ∧ OneRun ⟨0⟩ ⟨0⟩ moves ∧
    .terminated ∈ s.heard ⟨0⟩ ∧
    (∃ (b : Bound) (c : Nat → Bound), s.heard ⟨0⟩ = word b.count fun i => (c i).count) ∧
    ∀ moves', OneRun ⟨0⟩ ⟨0⟩ (moves ++ moves') → (s.after moves').heard ⟨0⟩ = s.heard ⟨0⟩ := by
  intro instances moves s
  have halone : Session.ReportsAlone 1 instances ⟨0⟩ ⟨0⟩ := Session.reportsAlone_single _
  have hmoves : OneRun ⟨0⟩ ⟨0⟩ moves := by
    refine ⟨?_, by decide⟩
    simp [moves, Move.Conforms]
  have hend : .terminated ∈ s.heard ⟨0⟩ := by decide +kernel
  exact ⟨halone, hmoves, hend, (conforms_in_any_order halone hmoves).2.2 hend⟩

end Nested

end LoopProtocol
