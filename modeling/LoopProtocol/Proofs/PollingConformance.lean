import LoopProtocol.Proofs.Failure
import LoopProtocol.Proofs.NestedRun

/-!
# Runs of the nested protocol on the polling surface

A driver starts the nested protocol once and uses the states of the run in any order, late or
twice, and after an abort. At every moment there is at most one unused state, the events are the
beginning of a complete run's, and the protocol ends only with a complete run.

Such a run can always be completed. A driver that still has the unused state of a running instance
does as documented from there on: at a loop head it enters the body while there is more and leaves
the loop otherwise, and elsewhere it sends the message of the site or ends the protocol. Every step
of that driver succeeds and lowers the rank of the phase.
-/

namespace LoopProtocol

open Nested

/-! ## The documented driver -/

namespace Session

/-- The next move of the documented driver, whose state is in the variable. -/
def documented (s : Session) (name : String) : Option Move :=
  (s.stateIn? name).bind fun h =>
    match h.token.site with
    | .nested .polling .outer | .nested .polling .inner =>
      match s.reply (.act (.hasMore name)) with
      | .more true => some (.act (.enter ⟨name, false⟩ none name name))
      | .more false => some (.act (.exit ⟨name, false⟩ name))
      | _ => none
    | .nested .polling .innerBody => some (.act (.send ⟨name, false⟩ "foo" name))
    | .nested .polling .afterInner => some (.act (.send ⟨name, false⟩ "bar" name))
    | .nested .polling .done => some (.act (.finish ⟨name, false⟩))
    | _ => none

end Session

/-- A move that may come between two of the documented driver: a question to a loop head, or the
setting of a parameter, which leaves the protocol's own one positive. -/
def Move.Steady (i : InstanceId) : Move → Prop
  | .act (.hasMore _) => True
  | .act (.setParam name bound j) => j = i → name = param → bound ≠ 0
  | _ => False

/-- The documented driver comes to the end of a complete run without a fault, whatever steady moves
are made on its way. -/
inductive Session.Completes (i : InstanceId) (r : RecorderId) (name : String) : Session → Prop where
  | ended {s : Session} {m : Move} {b : Bound} {c : Nat → Bound} :
    s.documented name = some m → s.reply m = .done → s.heard r <+: (s.after [m]).heard r →
    ((s.after [m]).heard r = word b.count fun i => (c i).count) → Completes i r name s
  | step {s : Session} {m : Move} {site : Site} :
    s.documented name = some m → s.reply m = .state site →
    s.heard r <+: (s.after [m]).heard r →
    (∀ moves, (∀ m ∈ moves, Move.Steady i m) →
      Completes i r name ((s.after [m]).after moves)) →
    Completes i r name s

/-! ## What is left of a run -/

namespace Nested.Phase

/-- The iterations of the outer loop that are not over. -/
def outerLeft : Phase → Nat
  | idle | start => Bound.limit + 1
  | outerBody b _ i | innerBody b _ i _ | innerEnd b _ i _ | afterInner b _ i
  | outerEnd b _ i => b.count.toNat - i
  | done _ _ | ended _ _ => 0

/-- The steps that are left of an outer iteration, or more. The inner loop may get any bound. -/
def innerLeft : Phase → Nat
  | outerBody _ _ _ => 2 * Bound.limit + 6
  | innerBody _ c i j => 2 * ((c i).count.toNat - j) + 3
  | innerEnd _ c i j => 2 * ((c i).count.toNat - j) + 2
  | afterInner _ _ _ => 2
  | idle | outerEnd _ _ _ | done _ _ => 1
  | start | ended _ _ => 0

/-- How far the end of a run is. -/
def rank (p : Phase) : Nat := p.outerLeft * (2 * Bound.limit + 8) + p.innerLeft

/-- **Every step of a run brings it closer to its end.** -/
theorem Step.rank_lt {p p' : Phase} {used : Place} {new : List Place} (h : Step used p p' new)
    (hp : p.Valid) : p'.rank < p.rank := by
  have hlimit : ∀ b : Bound, b.count.toNat < Bound.limit := Bound.count_lt_limit
  cases h with
  | enterOuter b c =>
    have hb := hlimit b
    simp only [rank, outerLeft, innerLeft, Bound.limit, UInt64.size] at hb ⊢
    omega
  | enterInner b c i b' =>
    have hb := hlimit b'
    simp only [rank, outerLeft, innerLeft, Function.update_self, Bound.limit, UInt64.size] at hb ⊢
    omega
  | sendFoo b c i j | sendBar b c i | terminate b c => simp [rank, outerLeft, innerLeft]
  | nextInner b c i j | leaveInner b c i j =>
    have hj : j < (c i).count.toNat := hp.2
    simp only [rank, outerLeft, innerLeft]
    omega
  | nextOuter b c i | leaveOuter b c i =>
    have hi : i < b.count.toNat := hp
    simp only [rank, outerLeft, innerLeft, Bound.limit, UInt64.size]
    omega

end Nested.Phase

/-! ## Nothing is in the way of the documented driver -/

namespace Nested.OneState

variable {given : List Token} {p : Phase} {x : Instance} {t : Token} {b : Bound} {e : Fault}
  {shape : LoopShape}

/-- At the head of a loop, the loop is not further out. -/
theorem contains_eq_false {surface : Surface} (h : OneState surface given p x)
    (hrun : x.aborted = false) (ht : t ∈ given) (hunused : t.isConsumed x = false)
    (hloop : t.site.loop? surface = some shape) (htop : x.stack.onTop? shape.head.id = none) :
    x.stack.contains shape.head.id = false := by
  obtain ⟨place, hsite, hlive⟩ := h.live t ht hunused
  have hframes := h.frames hrun
  have hfits := Phase.fits_of_live hlive
  -- where an iteration ends, the loop is on top
  have hturns : ∀ {body}, p.Turns place shape.head.id body → False := by
    rintro body ⟨b, i, below, hp, -⟩
    have hon : x.stack.onTop? shape.head.id = some (.iterating shape.head.id b i, below) :=
      FrameStack.onTop?_eq_some_iff.2 ⟨hframes.trans hp, rfl⟩
    rw [htop] at hon
    cases hon
  rw [FrameStack.contains_eq_false_iff, hframes]
  rw [hsite] at hloop
  rcases loop?_siteAt hloop with ⟨rfl, rfl | rfl⟩ | ⟨rfl, rfl | rfl⟩
  · exact (Phase.enters_outer hfits).1
  · exact (hturns (Phase.turns_outer h.valid hfits)).elim
  · exact (Phase.enters_inner h.valid hfits).1
  · exact (hturns (Phase.turns_inner h.valid hfits)).elim

/-- A head that has more can be entered. -/
theorem free_enter (h : OneState .polling given p x) (hrun : x.aborted = false) (ht : t ∈ given)
    (hunused : t.isConsumed x = false) (hloop : t.site.loop? .polling = some shape)
    (hmore : x.hasMore shape.head.id = true) (hparam : shape.head.param = param)
    (hbound : x.bounds.bound param = .ok b) : ¬(Call.enter shape t).Obstacle x e := by
  intro hobstacle
  cases hobstacle with
  | buried hc htop hburied =>
    cases hc
    rw [h.contains_eq_false hrun ht hunused hloop htop] at hburied
    cases hburied
  | unbounded hc _ hb =>
    cases hc
    rw [hparam, hbound] at hb
    cases hb
  | exhausted htop hover =>
    simp only [Instance.hasMore, hrun, FrameStack.hasMore, htop] at hmore
    rw [Frame.canEnter_advance hmore] at hover
    cases hover
  | notOnTop hc | unclosed hc | unfinished hc => cases hc

/-- A head that has no more can be left. -/
theorem free_exit (hrun : x.aborted = false) (hmore : x.hasMore shape.head.id = false) :
    ¬(Call.exit shape t).Obstacle x e := by
  intro hobstacle
  cases hobstacle with
  | notOnTop hc htop =>
    cases hc
    simp [Instance.hasMore, hrun, FrameStack.hasMore, htop] at hmore
  | early htop hnext => simp [Instance.hasMore, hrun, FrameStack.hasMore, htop, hnext] at hmore
  | buried hc | unbounded hc | unclosed hc | unfinished hc => cases hc

/-- A message can be sent. -/
theorem free_send (h : OneState .polling given p x) (ht : t ∈ given) {point : SendPoint}
    (hpoint : t.site.send? = some point) : ¬(Call.send t point).Obstacle x e := by
  obtain ⟨place, hsite⟩ := h.placed t ht
  refine Call.free_send fun id hclose => ?_
  rcases send?_siteAt (hsite ▸ hpoint) with ⟨-, rfl⟩ | ⟨-, rfl⟩ <;> cases hclose

end Nested.OneState

/-! ## One step of the documented driver -/

namespace SessionM

variable {s : Session} {i : InstanceId} {t : Token}

/-- A call on a state in a variable gives the next state, which replaces it there. -/
theorem run_onGive {a : Act Token} (hok : (s.world.on i a).1 = .ok t) (name : String) :
    (on i a >>= fun
      | .ok t => give name i t
      | .error fault => pure (.fault fault)).run (s.moveOut ⟨name, false⟩) =
      (.state t.site, { s with
        world := (s.world.on i a).2
        vars := Variables.insert s.vars name (.state ⟨i, t⟩) }) := by
  have hmoved : s.moveOut ⟨name, false⟩ = { s with vars := Variables.erase s.vars name } := rfl
  have herase : ∀ vs : Variables, Variables.erase (Variables.erase vs name) name =
      Variables.erase vs name := fun vs => by simp [Variables.erase]
  rw [run_on, Session.world_moveOut, hok, hmoved]
  simp only [give, StateT.run_bind, run_store, Variables.get?_erase_self, Variables.insert, herase]
  rfl

end SessionM

/-- A driver that can go on as documented: its variable holds the unused state of an instance that
runs, and the protocol's parameter is positive. -/
structure Ready (i : InstanceId) (r : RecorderId) (name : String) (s : Session) (d : Dealing)
    (x : Instance) (t : Token) (p : Phase) : Prop where
  covers : d.Covers s
  hears : d.world.Hears r i
  world : d.world.instance? i = some x
  running : x.aborted = false
  one : OneState .polling (d.givenBy i) p x
  held : s.vars.get? name = some (.state ⟨i, t⟩)
  unused : t.isConsumed x = false
  bound : ∃ b, x.bounds.bound param = .ok b

namespace Ready

variable {i : InstanceId} {r : RecorderId} {name : String} {s : Session} {d : Dealing}
  {x : Instance} {t : Token} {p : Phase} {m : Move}

theorem mem (h : Ready i r name s d x t p) : t ∈ d.givenBy i :=
  Dealing.mem_givenBy.2 (h.covers.mem h.held)

/-- The state that the documented driver moves out of its variable. -/
theorem source (h : Ready i r name s d x t p) :
    s.vars.get? (⟨name, false⟩ : Source).name = some (.state ⟨i, t⟩) := h.held

/-- What the documented driver comes to with a move: another state in its variable, closer to the
end of the run, or that end. -/
inductive Advances (i : InstanceId) (r : RecorderId) (name : String) (s : Session) (p : Phase)
    (m : Move) : Prop where
  | step {site : Site} {d : Dealing} {x : Instance} {t : Token} {p' : Phase} :
    s.reply m = .state site → s.heard r <+: (s.after [m]).heard r → p'.rank < p.rank →
    Ready i r name (s.after [m]) d x t p' → Advances i r name s p m
  | ended {b : Bound} {c : Nat → Bound} :
    s.reply m = .done → s.heard r <+: (s.after [m]).heard r →
    ((s.after [m]).heard r = word b.count fun i => (c i).count) → Advances i r name s p m

/-- **A move that nothing is in the way of gives the next state.** -/
theorem gives (h : Ready i r name s d x t p) {c : Call} {a : Act Token}
    (hact : c.act = .state <$> a) (huses : c.uses = some t)
    (hends : a.Ends x (Gave .polling (d.givenBy i) p x.bounds x.aborted) fun _ =>
      OneState.Reaches .polling (d.givenBy i) p.starts)
    (hfree : ∀ e, ¬c.Obstacle x e)
    (hrun : (SessionM.move m).run s = (SessionM.on i a >>= fun
      | .ok t => SessionM.give name i t
      | .error fault => pure (.fault fault)).run (s.moveOut ⟨name, false⟩)) :
    Advances i r name s p m := by
  obtain ⟨grant, hgrant⟩ := Call.succeeds huses h.unused h.running hfree
  obtain ⟨next, hnext⟩ : ∃ next, (a.on x).1 = .ok next := by
    cases hr : (a.on x).1 with
    | ok next => exact ⟨next, rfl⟩
    | error e => simp [hact, hr, Except.map] at hgrant
  have hgains : c.gains x = [next] := by simp [Call.gains, hact, hnext, Except.map, Grant.tokens]
  obtain ⟨⟨used, p', new, hstep, hone⟩, hunused, hbounds, haborted⟩ := hends.of_ok hnext
  have hself : (d.perform (.call i c)).world.instance? i = some (a.on x).2 := by
    have hact_on : (c.act.on x).2 = (a.on x).2 := by rw [hact, Act.on_map]
    rw [← hact_on]
    exact World.instance?_on_self h.world c.act
  have hon : (s.world.on i a).1 = .ok next := by
    rw [← h.covers.world, World.on_eq h.world]
    exact hnext
  rw [SessionM.run_onGive hon] at hrun
  have hafter : s.after [m] = { s with
      world := (s.world.on i a).2
      vars := Variables.insert s.vars name (.state ⟨i, next⟩) } := congrArg Prod.snd hrun
  have hready : Ready i r name (s.after [m]) (d.perform (.call i c)) (a.on x).2 next p' := by
    refine ⟨?_, h.hears.call i c, hself, haborted.trans h.running, ?_, ?_, hunused, ?_⟩
    · rw [hafter]
      refine (SessionM.covers_call hact h.covers).insert fun g hg => ?_
      cases hg
      exact SessionM.mem_given_perform hact (by rw [h.covers.world, hon]) (by simp [Grant.tokens])
    · rwa [Dealing.givenBy_perform_self h.world, hgains]
    · rw [hafter]
      exact List.lookup_cons_self
    · rw [hbounds]
      exact h.bound
  have hheard : s.heard r <+: (s.after [m]).heard r := by
    obtain ⟨es, hes⟩ := (c.grown x).events
    rw [h.covers.heard_eq h.hears h.world, hready.covers.heard_eq hready.hears hready.world]
    rw [hact, Act.on_map] at hes
    rw [hes, Array.toList_append]
    exact List.prefix_append _ _
  exact .step (congrArg Prod.fst hrun) hheard (hstep.rank_lt h.one.valid) hready

theorem reply_hasMore (h : Ready i r name s d x t p) {shape : LoopShape}
    (hloop : t.site.loop? .polling = some shape) :
    s.reply (.act (.hasMore name)) = .more (x.hasMore shape.head.id) := by
  have hx : s.world.instance? i = some x := h.covers.world ▸ h.world
  simp only [Session.reply, SessionM.move, SessionM.perform, SessionM.withState,
    SessionM.withInstance, StateT.run_bind, StateT.run_get, pure_bind, h.held, hx, hloop]
  rfl

/-- At the head of a loop the driver enters the body or leaves the loop. -/
theorem advances_head (h : Ready i r name s d x t p) {shape : LoopShape}
    (hloop : t.site.loop? .polling = some shape) (hparam : shape.head.param = param)
    (henterable : SessionM.enterable? none t.site = some (.polling, shape))
    (hdoc : s.documented name = match s.reply (.act (.hasMore name)) with
      | .more true => some (.act (.enter ⟨name, false⟩ none name name))
      | .more false => some (.act (.exit ⟨name, false⟩ name))
      | _ => none) :
    ∃ m, s.documented name = some m ∧ Advances i r name s p m := by
  obtain ⟨b, hb⟩ := h.bound
  rw [h.reply_hasMore hloop] at hdoc
  cases hmore : x.hasMore shape.head.id with
  | true =>
    rw [hmore] at hdoc
    refine ⟨_, hdoc, h.gives (c := .enter shape t) rfl rfl ?_ ?_ ?_⟩
    · exact h.one.ends_enter h.mem hloop
    · exact fun e => h.one.free_enter h.running h.mem h.unused hloop hmore hparam hb
    · exact SessionM.run_withSource h.source henterable
  | false =>
    rw [hmore] at hdoc
    refine ⟨_, hdoc, h.gives (c := .exit shape t) rfl rfl ?_ ?_ ?_⟩
    · exact h.one.ends_exit h.mem hloop
    · exact fun e => OneState.free_exit h.running hmore
    · exact SessionM.run_withSource (p := fun site => site.loop? .polling) h.source hloop

/-- At a message the driver sends it. -/
theorem advances_send (h : Ready i r name s d x t p) {point : SendPoint}
    (hpoint : t.site.send? = some point)
    (hdoc : s.documented name = some (.act (.send ⟨name, false⟩ point.label name))) :
    ∃ m, s.documented name = some m ∧ Advances i r name s p m := by
  refine ⟨_, hdoc, h.gives (c := .send t point) rfl rfl ?_ ?_ ?_⟩
  · exact h.one.ends_sendAt h.mem hpoint
  · exact fun e => h.one.free_send h.mem hpoint
  · have hlabel : t.site.send?.filter (·.label = point.label) = some point := by simp [hpoint]
    exact SessionM.run_withSource (p := fun site => site.send?.filter (·.label = point.label))
      h.source hlabel

/-- After the outer loop the driver ends the protocol. -/
theorem advances_finish (h : Ready i r name s d x t p) (hlive : p.live = some .done)
    (hend : t.site.end? = some (.protocol none))
    (hdoc : s.documented name = some (.act (.finish ⟨name, false⟩))) :
    ∃ m, s.documented name = some m ∧ Advances i r name s p m := by
  have hframes : x.stack.frames = [] := by
    rw [h.one.frames h.running]
    cases p <;> cases hlive
    rfl
  obtain ⟨grant, hgrant⟩ := Call.succeeds (c := .finish t none) rfl h.unused h.running
    fun e => Call.free_finish hframes
  have hdone : s.reply (.act (.finish ⟨name, false⟩)) = .done := by
    have hmove := move_finish h.source hend
    rw [Call.act, Act.on_map] at hgrant
    cases hr : ((t.finish none).on x).1 with
    | error e => simp [hr, Except.map] at hgrant
    | ok v => simp [Session.reply, hmove, ← h.covers.world, World.on_eq h.world, hr]
  obtain ⟨v, hv, hheard⟩ := heard_finish h.covers h.hears h.world h.source hend hdone
  obtain ⟨b, c, -, hended⟩ := (h.one.ends_finish h.mem hend).of_ok hv
  refine ⟨_, hdoc, .ended hdone ?_ (b := b) (c := c) ?_⟩
  · obtain ⟨es, hes⟩ := ((Call.finish t none).grown x).events
    rw [h.covers.heard_eq h.hears h.world, hheard]
    rw [Call.act, Act.on_map] at hes
    rw [hes, Array.toList_append]
    exact List.prefix_append _ _
  · rw [hheard, hended.log]
    rfl

/-- **The documented driver steps on.** -/
theorem advances (h : Ready i r name s d x t p) :
    ∃ m, s.documented name = some m ∧ Advances i r name s p m := by
  obtain ⟨place, hsite, hlive⟩ := h.one.live t h.mem h.unused
  have hstate : s.stateIn? name = some ⟨i, t⟩ := by simp [Session.stateIn?, h.held]
  cases place with
  | outer | outerEnd =>
    have hstart : t.site = start .polling := hsite
    have hloop : t.site.loop? .polling = some (outer .polling) := by
      rw [hstart]
      rfl
    refine h.advances_head hloop rfl ?_ ?_
    · rw [hstart]
      rfl
    · simp [Session.documented, hstate, hstart, start]
  | inner | innerEnd =>
    have hinner : t.site = .nested .polling .inner := hsite
    have hloop : t.site.loop? .polling = some (inner .polling) := by
      rw [hinner]
      rfl
    refine h.advances_head hloop rfl ?_ ?_
    · rw [hinner]
      rfl
    · simp [Session.documented, hstate, hinner]
  | innerBody =>
    have hpoint : t.site.send? = some (foo .polling) := by
      rw [hsite]
      rfl
    refine h.advances_send hpoint ?_
    simp [Session.documented, hstate, hsite, siteAt, foo]
  | afterInner =>
    have hpoint : t.site.send? = some (bar .polling) := by
      rw [hsite]
      rfl
    refine h.advances_send hpoint ?_
    simp [Session.documented, hstate, hsite, siteAt, bar]
  | done =>
    refine h.advances_finish hlive ?_ ?_
    · rw [hsite]
      rfl
    · simp [Session.documented, hstate, hsite, siteAt]

end Ready

/-! ## The documented driver to the end -/

theorem BoundTable.bound_insert (bounds : BoundTable) (name name' : String) (count : UInt64) :
    (bounds.insert name count).bound name' =
      if name = name' then (BoundTable.empty.insert name count).bound name'
      else bounds.bound name' := by
  unfold BoundTable.bound
  by_cases hname : name = name' <;> simp [hname]

/-- A parameter that was set to a positive number is a bound. -/
theorem BoundTable.exists_bound_insert (bounds : BoundTable) (name : String) {count : UInt64}
    (hcount : count ≠ 0) : ∃ b, (bounds.insert name count).bound name = .ok b :=
  ⟨⟨count, hcount⟩, by simp [BoundTable.bound, Bound.ofCount?, hcount]⟩

namespace Session

theorem after_hasMore (s : Session) (of : String) : s.after [.act (.hasMore of)] = s := by
  show ((SessionM.withState of _).run s).2 = s
  unfold SessionM.withState SessionM.withInstance
  simp only [StateT.run_bind, StateT.run_get, pure_bind]
  split
  · simp only [StateT.run_bind, StateT.run_get, pure_bind]
    split
    · split <;> rfl
    · rfl
  · rfl
  · rfl

theorem after_setParam (s : Session) (name : String) (bound : UInt64) (i : InstanceId) :
    s.after [.act (.setParam name bound i)] =
      { s with world := (s.world.on i (Act.setParam name bound)).2 } := by
  show ((SessionM.withInstance i _).run s).2 = _
  unfold SessionM.withInstance
  simp only [StateT.run_bind, StateT.run_get, pure_bind]
  cases hx : s.world.instance? i with
  | none => rw [World.on_of_none hx]; rfl
  | some x =>
    simp only [SessionM.run_on]
    split <;> rfl

end Session

namespace Ready

variable {i : InstanceId} {r : RecorderId} {name : String} {s : Session} {d : Dealing}
  {x : Instance} {t : Token} {p : Phase} {m : Move} {moves : List Move}

/-- A parameter is set, but not the protocol's own to zero. -/
theorem setParam (h : Ready i r name s d x t p) {name' : String} {count : UInt64} {j : InstanceId}
    (hcount : j = i → name' = param → count ≠ 0) :
    ∃ d' x', Ready i r name (s.after [.act (.setParam name' count j)]) d' x' t p := by
  have hcov : (d.perform (.call j (.setParam name' count))).Covers
      (s.after [.act (.setParam name' count j)]) := by
    have hact : (Call.setParam name' count).act =
        (fun _ => .nothing) <$> Act.setParam name' count := rfl
    rw [Session.after_setParam]
    exact SessionM.covers_call hact h.covers
  have hheld : (s.after [.act (.setParam name' count j)]).vars.get? name =
      some (.state ⟨i, t⟩) := by
    rw [Session.after_setParam]
    exact h.held
  have hhears := h.hears.call j (.setParam name' count)
  by_cases hj : j = i
  · subst hj
    have hon : ((Call.setParam name' count).act.on x).2 =
        { x with bounds := x.bounds.insert name' count } := by
      rw [Call.act, Act.on_map, Act.on_setParam]
    have hgains : (Call.setParam name' count).gains x = [] := by
      simp [Call.gains, Call.act, Act.on_setParam, Except.map, Grant.tokens]
    have hworld := World.instance?_on_self h.world (Call.setParam name' count).act
    rw [hon] at hworld
    refine ⟨_, _, hcov, hhears, hworld, h.running, ?_, hheld, h.unused, ?_⟩
    · rw [Dealing.givenBy_perform_self h.world, hgains, List.append_nil]
      exact h.one.stay rfl (fun _ => rfl) (fun ha => ha) rfl (.refl _)
    · by_cases hname : name' = param
      · subst hname
        exact BoundTable.exists_bound_insert _ _ (hcount rfl rfl)
      · rw [BoundTable.bound_insert, if_neg hname]
        exact h.bound
  · have hworld := (World.instance?_on_of_ne (Ne.symm hj) (Call.setParam name' count).act).trans
      h.world
    refine ⟨_, x, hcov, hhears, hworld, h.running, ?_, hheld, h.unused, h.bound⟩
    rw [(Dealing.perform_of_ne hj _).1]
    exact h.one

/-- Steady moves leave the driver ready. -/
theorem after (h : Ready i r name s d x t p) (hmoves : ∀ m ∈ moves, m.Steady i) :
    ∃ d' x', Ready i r name (s.after moves) d' x' t p := by
  induction moves generalizing s d x with
  | nil => exact ⟨d, x, h⟩
  | cons m moves ih =>
    have hm := hmoves m List.mem_cons_self
    have hrest : ∀ m ∈ moves, m.Steady i := fun m hm => hmoves m (List.mem_cons_of_mem _ hm)
    have hnext : ∃ d' x', Ready i r name (s.after [m]) d' x' t p := by
      cases m with
      | act action =>
        cases action with
        | hasMore of =>
          rw [Session.after_hasMore]
          exact ⟨d, x, h⟩
        | setParam name' count j => exact h.setParam hm
        | _ => cases hm
      | _ => cases hm
    obtain ⟨d', x', h'⟩ := hnext
    exact ih h' hrest

/-- **A driver that is ready can complete the run.** -/
theorem completes (h : Ready i r name s d x t p) : s.Completes i r name := by
  induction hn : p.rank using Nat.strongRecOn generalizing s d x t p with
  | ind n ih =>
    obtain ⟨m, hdoc, hadvances⟩ := h.advances
    cases hadvances with
    | ended hdone hheard hword => exact .ended hdoc hdone hheard hword
    | step hreply hheard hrank hready =>
      refine .step hdoc hreply hheard fun moves hmoves => ?_
      obtain ⟨d', x', h'⟩ := hready.after hmoves
      exact ih _ (hn ▸ hrank) h' rfl

end Ready

/-! ## Any driver -/

namespace Nested

variable {recorders : Nat} {instances : List (BoundTable × Option RecorderId)} {i : InstanceId}
  {r : RecorderId} {moves : List Move}

/-- **A driver that polls reports only the beginning of a complete run**, has at most one unused
state, and ends the protocol only with a complete run. As long as the instance runs and its unused
state is held, the documented driver can go on from there, and comes to the end of a complete run
if the protocol's parameter is positive from then on. -/
theorem conforms_by_polling (halone : Session.ReportsAlone recorders instances i r)
    (h : NestedRun .polling i (.start recorders instances) moves)
    (hclear : .act (.clearEvents r) ∉ moves) :
    let s := (Session.start recorders instances).after moves
    (∀ (name name' : String) (t t' : Token) (x : Instance),
      s.vars.get? name = some (.state ⟨i, t⟩) → s.vars.get? name' = some (.state ⟨i, t'⟩) →
      s.world.instance? i = some x → t.isConsumed x = false → t'.isConsumed x = false → t = t') ∧
    (∃ (b : Bound) (c : Nat → Bound), s.heard r <+: word b.count fun i => (c i).count) ∧
    (∀ (source : Source) (t : Token), s.vars.get? source.name = some (.state ⟨i, t⟩) →
      t.site = .nested .polling .done → s.reply (.act (.finish source)) = .done →
      ∃ (b : Bound) (c : Nat → Bound),
        (s.after [.act (.finish source)]).heard r = word b.count fun i => (c i).count) ∧
    ∀ (name : String) (t : Token) (x : Instance), s.vars.get? name = some (.state ⟨i, t⟩) →
      s.world.instance? i = some x → t.isConsumed x = false → x.aborted = false →
      (∃ b, x.bounds.bound param = .ok b) → s.Completes i r name := by
  intro s
  obtain ⟨bounds, hbounds⟩ := halone.reports
  obtain ⟨es, d, hr, hcov, horders, n, ⟨x, p, hx, -, hp, -⟩, -⟩ := h.oneAtATime (by decide) hbounds
  have hhears := hr.hears halone.hears_start (Session.clear_not_mem horders hclear)
  have hsame : ∀ x', s.world.instance? i = some x' → x' = x := fun x' hx' =>
    Option.some.inj (hx'.symm.trans (hcov.world ▸ hx))
  refine ⟨fun name name' t t' x' hget hget' hx' hunused hunused' => ?_, ?_,
    fun source t hsource hsite hdone => ?_, fun name t x' hget hx' hunused hrun hbound => ?_⟩
  · obtain rfl := hsame x' hx'
    have hguard := hp.unique t (Dealing.mem_givenBy.2 (hcov.mem hget)) t'
      (Dealing.mem_givenBy.2 (hcov.mem hget')) hunused hunused'
    have hlater : (s.after []).vars.get? name' = some (.state ⟨i, t'⟩) := hget'
    have hhandle := Session.eq_of_guard_eq recorders instances moves hget hlater rfl hguard.symm
    exact (congrArg Handle.token hhandle).symm
  · rw [hcov.heard_eq hhears hx, hp.log]
    exact Phase.log_prefix_word hp.valid
  · have ht : t ∈ d.givenBy i := Dealing.mem_givenBy.2 (hcov.mem hsource)
    have hend : t.site.end? = some (.protocol (closesAtEnd .polling)) := by rw [hsite]; rfl
    obtain ⟨v, hv, hheard⟩ := heard_finish hcov hhears hx hsource hend hdone
    obtain ⟨b, c, -, hended⟩ := (hp.ends_finish ht hend).of_ok hv
    refine ⟨b, c, ?_⟩
    rw [hheard, hended.log]
    rfl
  · obtain rfl := hsame x' hx'
    exact Ready.completes ⟨hcov, hhears, hx, hrun, hp, hget, hunused, hbound⟩

/-- In the middle of a run, with an alias of the inner head left over and another bound set. -/
theorem completes_from_body :
    let instances := [(BoundTable.ofList [("k", 2)], some ⟨0⟩)]
    let moves : List Move :=
      [.act (.issue (start .polling) ⟨0⟩ "outer"),
        .act (.enter ⟨"outer", false⟩ none "inner" "inner"), .act (.alias "inner" "copy"),
        .act (.enter ⟨"inner", false⟩ none "body" "body"), .act (.setParam "k" 3 ⟨0⟩)]
    Session.ReportsAlone 1 instances ⟨0⟩ ⟨0⟩ ∧
    NestedRun .polling ⟨0⟩ (.start 1 instances) moves ∧
    ((Session.start 1 instances).after moves).Completes ⟨0⟩ ⟨0⟩ "body" := by
  intro instances moves
  have halone : Session.ReportsAlone 1 instances ⟨0⟩ ⟨0⟩ := Session.reportsAlone_single _
  have hmoves : NestedRun .polling ⟨0⟩ (.start 1 instances) moves :=
    .of_forall (by decide +kernel) (by decide)
  let body : Token := ⟨⟨2⟩, .nested .polling .innerBody, none⟩
  have hheld : ((Session.start 1 instances).after moves).vars.get? "body" =
      some (.state ⟨⟨0⟩, body⟩) := by decide +kernel
  have hany : (((Session.start 1 instances).after moves).world.instance? ⟨0⟩).any (fun x =>
      !body.isConsumed x && !x.aborted && x.bounds.get? param == some 3) = true := by
    decide +kernel
  obtain ⟨x, hx, hready⟩ := (Option.any_eq_true _ _).1 hany
  simp only [Bool.and_eq_true, Bool.not_eq_true', beq_iff_eq] at hready
  obtain ⟨⟨hunused, hrun⟩, hthree⟩ := hready
  have hbound : x.bounds.bound param = .ok ⟨3, by decide⟩ := by
    simp [BoundTable.bound, hthree, Bound.ofCount?]
  have hconforms := conforms_by_polling halone hmoves (by simp [moves])
  exact ⟨halone, hmoves, hconforms.2.2.2 "body" body x hheld hx hunused hrun ⟨_, hbound⟩⟩

end Nested

end LoopProtocol
