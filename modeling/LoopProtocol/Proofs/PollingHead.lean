import LoopProtocol.Proofs.Issued
import LoopProtocol.Proofs.PollingConformance
import LoopProtocol.Proofs.Replay

/-!
# What is legal at a polled loop head

The question whether there is more, the leaving of a loop and the entering of its body make
different comparisons: the first two look at the frame as it is, the last one at the advanced frame.
On an instance that runs no frame is past its last iteration (`Faithful.current_le`), and so the
three agree: a loop without more can be left and not entered, and a loop with more cannot be left.
-/

namespace LoopProtocol

open Act

/-! ## The frames of a running instance -/

/-- On an instance that runs, no frame is past its last iteration, and none wraps when it is
advanced. -/
theorem Faithful.current_le {x : Instance} (h : Faithful x) (ha : x.aborted = false) {f : Frame}
    (hf : f ∈ x.stack.frames) :
    f.current.toNat ≤ f.last.toNat ∧ f.last.toNat + 1 < Bound.limit := by
  obtain ⟨loops, -, htells⟩ := h
  specialize htells ha
  generalize x.stack.frames = frames at htells hf
  induction htells with
  | nil => cases hf
  | @cons l g _ _ hl _ ih =>
    rcases List.mem_cons.1 hf with rfl | hf
    · have hbound := l.bound.toNat_lt
      have := hl.last
      have := hl.current
      have := hl.count_le
      simp only [Bound.limit, UInt64.size]
      omega
    · exact ih hf

/-- The events of every instance of a session are a faithful account of its stack. -/
theorem Session.faithful_after {recorders : Nat}
    {instances : List (BoundTable × Option RecorderId)} {moves : List Move} {i : InstanceId}
    {x : Instance} (hx : ((start recorders instances).after moves).world.instance? i = some x) :
    Faithful x := by
  obtain ⟨es, d, hr, hcov, -⟩ :=
    Session.after_deeds (Dealing.covers_start recorders instances) moves
  have hstart : ∀ j y, (start recorders instances).world.instance? j = some y → Faithful y := by
    intro j y hy
    rw [instance?_start, Option.map_eq_some_iff] at hy
    obtain ⟨p, -, rfl⟩ := hy
    exact faithful_create j p.1 p.2
  exact hr.forall_instances Faithful.invariant hstart i x (hcov.world ▸ hx)

/-! ## The frame of a loop without more -/

/-- A frame in its last iteration. -/
structure Frame.IsLast (f : Frame) : Prop where
  current : f.current = f.last
  advanced : f.advance.current.toNat = f.last.toNat + 1

theorem Frame.isLast_of_hasNext {f : Frame} (hn : f.hasNext = false)
    (hle : f.current.toNat ≤ f.last.toNat) (hlimit : f.last.toNat + 1 < Bound.limit) :
    f.IsLast := by
  have hge := hasNext_eq_false_iff.1 hn
  have hcurrent : f.current.toNat = f.last.toNat := by omega
  refine ⟨UInt64.toNat_inj.1 hcurrent, ?_⟩
  rw [toNat_current_advance hle hlimit, hcurrent]

/-- The last iteration has none after it. -/
theorem Frame.IsLast.canEnter_advance {f : Frame} (h : f.IsLast) : f.advance.canEnter = false := by
  rw [← Bool.not_eq_true, canEnter_iff, h.advanced, last_advance]
  omega

/-- A loop can start exactly when its parameter holds a positive number. -/
theorem BoundTable.exists_bound_iff {t : BoundTable} {param : String} :
    (∃ b, t.bound param = .ok b) ↔ ∃ count, t.get? param = some count ∧ 0 < count := by
  unfold bound
  cases t.get? param with
  | none => simp
  | some count =>
    by_cases hzero : count = 0
    · simp [hzero, Bound.ofCount?]
    · simp [hzero, Bound.ofCount?, UInt64.pos_iff_ne_zero]

/-! ## The two transitions -/

namespace Polling

variable {x : Instance} {shape : LoopShape} {head : Token}

/-- The site to which the leaving of a loop leads from an unused head. -/
theorem site_exit (ha : x.aborted = false) (hunused : head.isConsumed x = false) :
    ((exit shape head).on x).1.map (·.site) =
      match x.stack.onTop? shape.head.id with
      | some (top, _) => if top.hasNext then .error (.prematureExit top) else .ok shape.after
      | none => .error (.missingFrame shape.head.id) := by
  unfold exit
  simp only [on_bind, on_consume, hunused, Bool.false_eq_true, if_false, on_exit, ha]
  cases x.stack.onTop? shape.head.id with
  | none => rfl
  | some p => cases hn : p.1.hasNext <;> simp [hn, on_issue, Except.map]

/-- The site to which the entering of a body leads from an unused head. -/
theorem site_enter (ha : x.aborted = false) (hunused : head.isConsumed x = false) :
    ((enter shape head).on x).1.map (·.site) =
      match x.stack.onTop? shape.head.id with
      | some (top, _) =>
        if top.advance.canEnter then .ok shape.body else .error (.boundsExceeded top.advance)
      | none =>
        if x.stack.contains shape.head.id then
          .error (.engineFault (.buried shape.head.id x.stack))
        else (x.bounds.bound shape.head.param).map fun _ => shape.body := by
  unfold enter
  simp only [on_bind, on_consume, hunused, Bool.false_eq_true, if_false, on_activate, ha]
  cases x.stack.onTop? shape.head.id with
  | some p =>
    cases hf : p.1.advance.canEnter <;>
      simp [hf, on_bind, on_iteration, on_issue, on_abort_fail, Except.map]
  | none =>
    cases x.stack.contains shape.head.id with
    | true => rfl
    | false =>
      cases x.bounds.bound shape.head.param <;>
        simp [on_bind, on_iteration, on_issue, Except.map]

end Polling

/-! ## In a session -/

namespace Session

open SessionM

variable {s : Session} {h : Handle} {x : Instance} {shape : LoopShape}

/-- What a call that gives a state replies. -/
theorem reply_of_gives {m : Move} {source : Source} {a : Act Token} {dest : String}
    (hx : s.world.instance? h.owner = some x)
    (hrun : (SessionM.move m).run s = (on h.owner a >>= fun
      | .ok t => give dest h.owner t
      | .error fault => pure (.fault fault)).run (s.moveOut source)) :
    s.reply m = match (a.on x).1.map (·.site) with
      | .ok site => .state site
      | .error fault => .fault fault := by
  unfold reply
  rw [hrun, run_on, world_moveOut, World.on_eq hx]
  cases (a.on x).1 <;> rfl

theorem reply_exit {source : Source} (dest : String)
    (hget : s.vars.get? source.name = some (.state h)) (hx : s.world.instance? h.owner = some x)
    (hloop : h.token.site.loop? .polling = some shape) (ha : x.aborted = false)
    (hunused : h.token.isConsumed x = false) :
    s.reply (.act (.exit source dest)) =
      match x.stack.onTop? shape.head.id with
      | some (top, _) => if top.hasNext then .fault (.prematureExit top) else .state shape.after
      | none => .fault (.missingFrame shape.head.id) := by
  have hrun : (move (.act (.exit source dest))).run s =
      (on h.owner (Polling.exit shape h.token) >>= fun
        | .ok t => give dest h.owner t
        | .error fault => pure (.fault fault)).run (s.moveOut source) :=
    run_withSource (p := fun site => site.loop? .polling) hget hloop
  rw [reply_of_gives hx hrun, Polling.site_exit ha hunused]
  cases x.stack.onTop? shape.head.id with
  | none => rfl
  | some p => cases hn : p.1.hasNext <;> simp [hn]

theorem reply_enter {source : Source} {surface : Option Surface} (dest after : String)
    (hget : s.vars.get? source.name = some (.state h)) (hx : s.world.instance? h.owner = some x)
    (hhead : enterable? surface h.token.site = some (.polling, shape)) (ha : x.aborted = false)
    (hunused : h.token.isConsumed x = false) :
    s.reply (.act (.enter source surface dest after)) =
      match x.stack.onTop? shape.head.id with
      | some (top, _) =>
        if top.advance.canEnter then .state shape.body else .fault (.boundsExceeded top.advance)
      | none =>
        if x.stack.contains shape.head.id then
          .fault (.engineFault (.buried shape.head.id x.stack))
        else
          match x.bounds.bound shape.head.param with
          | .ok _ => .state shape.body
          | .error fault => .fault fault := by
  have hrun : (move (.act (.enter source surface dest after))).run s =
      (on h.owner (Polling.enter shape h.token) >>= fun
        | .ok t => give dest h.owner t
        | .error fault => pure (.fault fault)).run (s.moveOut source) :=
    run_withSource hget hhead
  rw [reply_of_gives hx hrun, Polling.site_enter ha hunused]
  cases x.stack.onTop? shape.head.id with
  | some p => cases hf : p.1.advance.canEnter <;> simp [hf]
  | none =>
    cases x.stack.contains shape.head.id with
    | true => rfl
    | false => cases x.bounds.bound shape.head.param <;> rfl

theorem reply_hasMore {name : String} (hget : s.vars.get? name = some (.state h))
    (hx : s.world.instance? h.owner = some x) (hloop : h.token.site.loop? .polling = some shape) :
    s.reply (.act (.hasMore name)) = .more (x.hasMore shape.head.id) := by
  simp only [reply, move, perform, withState, withInstance, StateT.run_bind, StateT.run_get,
    pure_bind, hget, hx, hloop]
  rfl

/-- Questions to loop heads change nothing. -/
theorem after_questions {asks : List Move} (hasks : ∀ m ∈ asks, ∃ name, m = .act (.hasMore name)) :
    s.after asks = s := by
  induction asks with
  | nil => rfl
  | cons m asks ih =>
    obtain ⟨name, rfl⟩ := hasks m List.mem_cons_self
    have hsame : s.after (.act (.hasMore name) :: asks) =
        (s.after [.act (.hasMore name)]).after asks := rfl
    rw [hsame, after_hasMore]
    exact ih fun m hm => hasks m (List.mem_cons_of_mem _ hm)

/-- What the three moves at a polled head reply on an instance, when each of them is made first: the
question, the leaving of the loop and the entering of its body. -/
structure LegalAtHead (x : Instance) (shape : LoopShape) (ask leave enter : Reply) : Prop where
  asked : ∃ more, ask = .more more
  left : leave = .state shape.after ↔ ask = .more false
  /-- Without more, the loop is innermost, and the body would be one past the last. -/
  exceeded : ask = .more false → ∃ top past : Frame,
    x.stack.top? = some top ∧ top.id = shape.head.id ∧ enter = .fault (.boundsExceeded past) ∧
    past.id = shape.head.id ∧ past.last = top.last ∧ past.current.toNat = top.last.toNat + 1
  premature : ask = .more true → ∀ top, x.stack.top? = some top → top.id = shape.head.id →
    leave = .fault (.prematureExit top)
  missing : ask = .more true → (∀ top, x.stack.top? = some top → top.id ≠ shape.head.id) →
    leave = .fault (.missingFrame shape.head.id)
  entered : ask = .more true → (enter = .state shape.body ↔
    (∃ top, x.stack.top? = some top ∧ top.id = shape.head.id) ∨
    (∀ f ∈ x.stack.frames, f.id ≠ shape.head.id) ∧
      ∃ count, x.bounds.get? shape.head.param = some count ∧ 0 < count)
  /-- A body that is not entered is refused with a fault. -/
  refused : enter ≠ .state shape.body → ∃ fault, enter = .fault fault

/-- The loop is innermost. -/
theorem LegalAtHead.of_onTop {ask leave enter : Reply} {top : Frame} {below : List Frame}
    (hs : x.stack.frames = top :: below) (hid : top.id = shape.head.id)
    (hle : top.current.toNat ≤ top.last.toNat) (hlimit : top.last.toNat + 1 < Bound.limit)
    (hask : ask = .more top.hasNext)
    (hleave : leave = if top.hasNext then .fault (.prematureExit top) else .state shape.after)
    (henter : enter = if top.advance.canEnter then .state shape.body
      else .fault (.boundsExceeded top.advance)) : LegalAtHead x shape ask leave enter := by
  have htop : x.stack.top? = some top := by rw [FrameStack.top?, hs, List.head?_cons]
  have hcurrent := Frame.toNat_current_advance hle hlimit
  cases hn : top.hasNext with
  | false =>
    have hlast := Frame.isLast_of_hasNext hn hle hlimit
    rw [hn] at hask hleave
    rw [hlast.canEnter_advance] at henter
    subst hask hleave henter
    refine ⟨⟨false, rfl⟩, by simp, fun _ => ⟨top, top.advance, htop, hid, rfl, hid, rfl,
      hlast.advanced⟩, by simp, by simp, by simp, fun _ => ⟨_, rfl⟩⟩
  | true =>
    have hcan : top.advance.canEnter = true := by
      have hlt := Frame.hasNext_iff.1 hn
      rw [Frame.canEnter_iff, hcurrent, Frame.last_advance]
      omega
    rw [hn] at hask hleave
    rw [hcan] at henter
    subst hask hleave henter
    refine ⟨⟨true, rfl⟩, by simp, by simp, fun _ f hf _ => ?_, fun _ hne => ?_, fun _ => ?_,
      fun hne => absurd rfl hne⟩
    · obtain rfl : top = f := Option.some.inj (htop.symm.trans hf)
      rfl
    · exact absurd hid (hne top htop)
    · exact iff_of_true rfl (.inl ⟨top, htop, hid⟩)

/-- The loop is not innermost. -/
theorem LegalAtHead.of_notOnTop {ask leave enter : Reply}
    (ht : x.stack.onTop? shape.head.id = none) (hask : ask = .more true)
    (hleave : leave = .fault (.missingFrame shape.head.id))
    (henter : enter = if x.stack.contains shape.head.id then
        .fault (.engineFault (.buried shape.head.id x.stack))
      else
        match x.bounds.bound shape.head.param with
        | .ok _ => .state shape.body
        | .error fault => .fault fault) : LegalAtHead x shape ask leave enter := by
  have hne : ∀ top, x.stack.top? = some top → top.id ≠ shape.head.id := by
    intro top htop hid
    obtain ⟨below, hs⟩ := List.head?_eq_some_iff.1 htop
    rw [FrameStack.onTop?_eq_some_iff.2 ⟨hs, hid⟩] at ht
    cases ht
  subst hask hleave
  refine ⟨⟨true, rfl⟩, by simp, by simp, fun _ top htop hid => absurd hid (hne top htop),
    fun _ _ => rfl, fun _ => ?_, fun hnot => ?_⟩
  · rw [← FrameStack.contains_eq_false_iff, ← BoundTable.exists_bound_iff, henter]
    cases x.stack.contains shape.head.id with
    | true => simpa using hne
    | false =>
      cases x.bounds.bound shape.head.param with
      | ok b => simp
      | error fault => simpa using hne
  · subst henter
    cases hc : x.stack.contains shape.head.id with
    | true => exact ⟨_, rfl⟩
    | false =>
      cases hb : x.bounds.bound shape.head.param with
      | error fault => exact ⟨fault, rfl⟩
      | ok b => simp [hc, hb] at hnot

variable {recorders : Nat} {instances : List (BoundTable × Option RecorderId)}
  {moves asks : List Move} {surface : Option Surface}

/-- **What is legal at a polled head.** On an instance that runs, a loop can be left exactly when
its head has no more, and then its body cannot be entered; with more it cannot be left, and its body
can be entered if the loop is innermost, or is not running and its parameter holds a positive bound.
Questions in between change nothing. -/
theorem legal_at_head (source : Source) (leaveTo body after : String)
    (hs : s = (start recorders instances).after moves)
    (hget : s.vars.get? source.name = some (.state h))
    (hhead : enterable? surface h.token.site = some (.polling, shape))
    (hx : s.world.instance? h.owner = some x) (ha : x.aborted = false)
    (hunused : h.token.isConsumed x = false)
    (hasks : ∀ m ∈ asks, ∃ name, m = .act (.hasMore name)) :
    s.after asks = s ∧
    LegalAtHead x shape ((s.after asks).reply (.act (.hasMore source.name)))
      ((s.after asks).reply (.act (.exit source leaveTo)))
      ((s.after asks).reply (.act (.enter source surface body after))) := by
  have hloop := (enterable?_eq_some hhead).1
  have hfaithful : Faithful x := by
    subst hs
    exact faithful_after hx
  have hask := reply_hasMore hget hx hloop
  have hleave := reply_exit leaveTo hget hx hloop ha hunused
  have henter := reply_enter body after hget hx hhead ha hunused
  refine ⟨after_questions hasks, ?_⟩
  rw [after_questions hasks]
  unfold Instance.hasMore FrameStack.hasMore at hask
  simp only [ha, Bool.not_false, Bool.true_and] at hask
  cases ht : x.stack.onTop? shape.head.id with
  | some p =>
    obtain ⟨top, below⟩ := p
    obtain ⟨hframes, hid⟩ := FrameStack.onTop?_eq_some_iff.1 ht
    obtain ⟨hle, hlimit⟩ := hfaithful.current_le ha (f := top) (by simp [hframes])
    simp only [ht] at hask hleave henter
    exact .of_onTop hframes hid hle hlimit hask hleave henter
  | none =>
    simp only [ht] at hask hleave henter
    exact .of_notOnTop ht hask hleave henter

/-- In the last iteration of an inner loop, after the bound of both loops was raised. -/
theorem legal_in_inner_loop :
    let instances := [(BoundTable.ofList [("k", 1)], none)]
    let moves : List Move :=
      [.act (.issue (Nested.start .polling) ⟨0⟩ "outer"),
        .act (.enter ⟨"outer", false⟩ none "inner" "inner"),
        .act (.enter ⟨"inner", false⟩ none "body" "body"), .act (.setParam "k" 3 ⟨0⟩),
        .act (.send ⟨"body", false⟩ "foo" "head")]
    let asks : List Move := [.act (.hasMore "head"), .act (.hasMore "outer")]
    let s := (start 0 instances).after moves
    ∃ x, s.world.instance? ⟨0⟩ = some x ∧ x.stack.depth = 2 ∧ s.after asks = s ∧
      LegalAtHead x (Nested.inner .polling) ((s.after asks).reply (.act (.hasMore "head")))
        ((s.after asks).reply (.act (.exit ⟨"head", true⟩ "next")))
        ((s.after asks).reply (.act (.enter ⟨"head", true⟩ none "body" "body"))) := by
  intro instances moves asks s
  let head : Token := ⟨⟨3⟩, .nested .polling .inner, none⟩
  have hget : s.vars.get? "head" = some (.state ⟨⟨0⟩, head⟩) := by decide +kernel
  have hany : (s.world.instance? ⟨0⟩).any (fun x =>
      !x.aborted && !head.isConsumed x && x.stack.depth == 2) = true := by
    decide +kernel
  obtain ⟨x, hx, hready⟩ := (Option.any_eq_true _ _).1 hany
  simp only [Bool.and_eq_true, Bool.not_eq_true', beq_iff_eq] at hready
  obtain ⟨⟨hrun, hunused⟩, hdepth⟩ := hready
  have hhead : enterable? none head.site = some (.polling, Nested.inner .polling) := rfl
  have hs : s = (start 0 instances).after moves := rfl
  have hasks : ∀ m ∈ asks, ∃ name, m = .act (.hasMore name) := by simp [asks]
  clear_value s asks moves head
  exact ⟨x, hx, hdepth,
    legal_at_head ⟨"head", true⟩ "next" "body" "body" hs hget hhead hx hrun hunused hasks⟩

end Session

end LoopProtocol
