import LoopProtocol.Proofs.Linearity

/-!
# What drives a callback loop

After each call of its body a callback loop goes on only with a state that the body returned, and
only if that state is unused. Whose state it is the loop does not ask: a state of another instance
is used up on that instance, and the loop goes on with its own all the same
(`Session.goes_on_by_tail`).
-/

namespace LoopProtocol

open Act

namespace Call

/-- A call that uses no state and does not end an iteration leaves the stack as it is. -/
theorem stack_of_besides {c : Call} (huses : c.uses = none)
    (hadvance : ∀ shape i, c ≠ .advance shape i) (x : Instance) :
    (c.act.on x).2.stack = x.stack := by
  cases c with
  | issue site | fork t => simp [act, on_issue]
  | setParam name bound => simp [act, on_setParam]
  | fail fault => simp [act, on_abort_fail]
  | take q => exact (drained (i := x.id) (c := .take q) trivial x).stack
  | abandon q => exact (drained (i := x.id) (c := .abandon q) trivial x).stack
  | advance shape i => exact absurd rfl (hadvance shape i)
  | _ => cases huses

end Call

namespace Session

open SessionM

variable {s : Session} {m : Move} {h : Handle} {loop : RunningLoop} {outer : List RunningLoop}
  {x y : Instance}

/-- A return without a state that ends an iteration leaves all stacks as they are. -/
theorem stack_of_no_tail (hnone : s.attempt? m = none) {i : InstanceId}
    (hx : s.world.instance? i = some x) :
    ∃ x', (s.after [m]).world.instance? i = some x' ∧ x'.stack = x.stack := by
  refine (besides_move hnone).related (R := fun x y => y.stack = x.stack) (fun _ => rfl)
    (fun h h' => h'.trans h) ?_ hx
  intro c z hc
  refine Call.stack_of_besides hc.isIdle ?_ z
  rintro shape j rfl
  obtain ⟨h, loop, hattempt, -⟩ := hc
  rw [hnone] at hattempt
  cases hattempt

/-- The state that a body returns, when it ends an iteration of the innermost loop. -/
theorem returned_of_attempt (hrunning : s.running = loop :: outer)
    (hm : (∃ name, m = .returnState name) ∨ ∃ fault, m = .returnFault fault) {c : Call}
    (hattempt : s.attempt? m = some (h, c)) :
    ∃ name, m = .returnState name ∧ s.vars.get? name = some (.state h) ∧
      h.token.site = loop.shape.tail ∧ c = .giveBack h.token := by
  obtain ⟨name, hname, hget, hcall⟩ := attempt?_eq_some_iff.1 hattempt
  rcases hm with ⟨name', rfl⟩ | ⟨fault, rfl⟩
  · obtain rfl : name' = name := Option.some.inj hname
    simp only [callOn?, hrunning, List.head?_cons, Option.bind_some] at hcall
    split at hcall
    · next htail => exact ⟨name', rfl, hget, htail, (Option.some.inj hcall).symm⟩
    · cases hcall
  · cases hname

theorem fault?_takeTurn (loop : RunningLoop) (r : Except Fault Callback.Turn) (t : Session) :
    ((takeTurn loop r).run t).1.fault? = match r with
      | .ok _ => none
      | .error e => some e := by
  match r with
  | .ok (.body _) | .ok (.finished _) | .error _ => rfl

variable {name : String}

/-- The body returned a used state: the loop ends with a fault, which aborts the instance of the
state. -/
theorem run_used (hrunning : s.running = loop :: outer)
    (hget : s.vars.get? name = some (.state h)) (htail : h.token.site = loop.shape.tail)
    (hy : s.world.instance? h.owner = some y) (hused : h.token.isConsumed y = true) :
    s.reply (.returnState name) = .fault (.linearityViolation h.token.site.name) ∧
    (s.after [.returnState name]).world = (s.world.on h.owner h.token.consume).2 ∧
    (s.after [.returnState name]).world.instance? h.owner =
      some (y.fail (.linearityViolation h.token.site.name)) := by
  have hrun := run_returnState hrunning hget htail
  have hconsume : h.token.consume.on y = (.error (.linearityViolation h.token.site.name),
      y.fail (.linearityViolation h.token.site.name)) := by
    rw [on_consume, hused]
    rfl
  have hr : (s.world.on h.owner h.token.consume).1 =
      .error (.linearityViolation h.token.site.name) := by
    rw [World.on_eq hy, hconsume]
  rw [run_on, hr] at hrun
  have hworld : (s.after [.returnState name]).world = (s.world.on h.owner h.token.consume).2 := by
    show ((move (.returnState name)).run s).2.world = _
    rw [hrun]
    rfl
  refine ⟨by rw [reply, hrun]; rfl, hworld, ?_⟩
  rw [hworld, World.instance?_on_self hy, hconsume]

/-- The body returned an unused state: it is used up, and the loop goes on. -/
theorem run_unused (hrunning : s.running = loop :: outer)
    (hget : s.vars.get? name = some (.state h)) (htail : h.token.site = loop.shape.tail)
    (hy : s.world.instance? h.owner = some y) (hunused : h.token.isConsumed y = false) :
    let w := (s.world.on h.owner h.token.consume).2
    w.instance? h.owner = some (y.spend h.token) ∧
    (s.reply (.returnState name)).fault? =
      (match (w.on loop.owner (Callback.advance loop.shape)).1 with
        | .ok _ => none
        | .error e => some e) ∧
    (w.on loop.owner (Callback.advance loop.shape)).2.Steps Deed.Releases
      (s.after [.returnState name]).world := by
  intro w
  have hrun := run_returnState hrunning hget htail
  have hconsume : h.token.consume.on y = (.ok (), y.spend h.token) := by
    rw [on_consume, hunused]
    rfl
  have hr : (s.world.on h.owner h.token.consume).1 = .ok () := by rw [World.on_eq hy, hconsume]
  rw [run_on, hr] at hrun
  refine ⟨by rw [World.instance?_on_self hy, hconsume], ?_, ?_⟩
  · rw [reply, hrun]
    exact fault?_takeTurn loop _ _
  · show (w.on loop.owner (Callback.advance loop.shape)).2.Steps Deed.Releases
      ((move (.returnState name)).run s).2.world
    rw [hrun]
    exact (only_takeTurn loop _).steps rfl

variable {recorders : Nat} {instances : List (BoundTable × Option RecorderId)} {moves : List Move}

/-- **A callback loop goes on only by an unused state that its body returned.** If the state is one
of another instance, then either it was used before: the loop fails, and its own instance is as it
was. Or it was not: it is used up, and the loop goes on as it does with a state of its own; what
happens to other instances besides is that sequences are given up when variables take new states. -/
theorem goes_on_by_tail (hs : s = (start recorders instances).after moves)
    (hrunning : s.running = loop :: outer)
    (hm : (∃ name, m = .returnState name) ∨ ∃ fault, m = .returnFault fault)
    (hx : s.world.instance? loop.owner = some x) :
    ∃ x', (s.after [m]).world.instance? loop.owner = some x' ∧
      (x'.stack ≠ x.stack → ∃ h y, s.attempt? m = some (h, .giveBack h.token) ∧
        s.world.instance? h.owner = some y ∧ h.token.isConsumed y = false) ∧
      ∀ h y, s.attempt? m = some (h, .giveBack h.token) → h.owner ≠ loop.owner →
        s.world.instance? h.owner = some y →
        (h.token.isConsumed y = true →
          s.reply m = .fault (.linearityViolation h.token.site.name) ∧ x' = x ∧
          (s.after [m]).world.instance? h.owner =
            some (y.fail (.linearityViolation h.token.site.name))) ∧
        (h.token.isConsumed y = false → ∃ w : World,
          w.instance? h.owner = some (y.spend h.token) ∧
          w.instance? loop.owner = some ((Callback.advance loop.shape).on x).2 ∧
          w.Steps Deed.Releases (s.after [m]).world ∧
          (s.reply m).fault? = match ((Callback.advance loop.shape).on x).1 with
            | .ok _ => none
            | .error e => some e) := by
  cases hattempt : s.attempt? m with
  | none =>
    obtain ⟨x', hx', hstack⟩ := stack_of_no_tail hattempt hx
    exact ⟨x', hx', fun hne => absurd hstack hne, fun h y h' => by cases h'⟩
  | some p =>
    obtain ⟨h, c⟩ := p
    obtain ⟨name, rfl, hget, htail, rfl⟩ := returned_of_attempt hrunning hm hattempt
    have hissued : s.Issued := hs ▸ issued_after recorders instances moves
    obtain ⟨y, hy, -⟩ := hissued.vars name h hget
    cases hused : h.token.isConsumed y with
    | true =>
      obtain ⟨hreply, hworld, hother⟩ := run_used hrunning hget htail hy hused
      by_cases howner : h.owner = loop.owner
      · rw [howner] at hother hy
        obtain rfl : y = x := Option.some.inj (hy.symm.trans hx)
        exact ⟨_, hother, fun hne => absurd (y.stack_fail _) hne,
          fun h' y' h'' hne => by cases h''; exact absurd howner hne⟩
      · refine ⟨x, ?_, fun hne => absurd rfl hne, fun h' y' h'' hne hy' => ?_⟩
        · rw [hworld, World.instance?_on_of_ne (Ne.symm howner), hx]
        · cases h''
          obtain rfl : y = y' := Option.some.inj (hy.symm.trans hy')
          exact ⟨fun _ => ⟨hreply, rfl, hother⟩, fun hnot => by simp [hused] at hnot⟩
    | false =>
      obtain ⟨hother, hreply, hreleases⟩ := run_unused hrunning hget htail hy hused
      obtain ⟨x₁, hx₁⟩ := World.exists_on hx h.owner h.token.consume
      have hadvanced := World.instance?_on_self hx₁ (Callback.advance loop.shape)
      obtain ⟨x', hx', -⟩ := hreleases.related (R := fun _ _ => True) (fun _ => trivial)
        (fun _ _ => trivial) (fun _ _ _ => trivial) hadvanced
      refine ⟨x', hx', fun _ => ⟨h, y, rfl, hy, hused⟩, fun h' y' h'' hne hy' => ?_⟩
      cases h''
      obtain rfl : y = y' := Option.some.inj (hy.symm.trans hy')
      rw [World.instance?_on_of_ne (Ne.symm hne), hx] at hx₁
      cases hx₁
      refine ⟨fun hnot => by simp [hused] at hnot, fun _ => ⟨_, ?_, hadvanced, hreleases, ?_⟩⟩
      · rw [World.instance?_on_of_ne hne, hother]
      · rw [hreply, World.on_eq (by rwa [World.instance?_on_of_ne (Ne.symm hne)])]

/-- A session in which the body of an instance's loop runs the loop of another instance, at the end
of an iteration of its own. -/
def twoLoops : Session :=
  (start 1 [(BoundTable.ofList [("k", 1)], some ⟨0⟩), (BoundTable.ofList [("k", 1)], none)]).after
    [.act (.issue (Nested.start .callback) ⟨1⟩ "b"), .foreach ⟨"b", false⟩ "bd",
      .foreach ⟨"it", false⟩ "a", .act (.send ⟨"it", false⟩ "foo" "e"), .returnState "e",
      .act (.send ⟨"a", false⟩ "bar" "oe"), .act (.alias "oe" "x"),
      .act (.issue (Nested.start .callback) ⟨0⟩ "h"), .foreach ⟨"h", false⟩ "ad"]

/-- The state is used up on its own instance, and the other instance's loop goes on. -/
theorem goes_on_in_two_loops :
    ∃ x y h x', twoLoops.world.instance? ⟨0⟩ = some x ∧ twoLoops.world.instance? ⟨1⟩ = some y ∧
      twoLoops.attempt? (.returnState "x") = some (h, .giveBack h.token) ∧ h.owner = ⟨1⟩ ∧
      (twoLoops.after [.returnState "x"]).world.instance? ⟨0⟩ = some x' ∧
      ∃ w : World, w.instance? ⟨1⟩ = some (y.spend h.token) ∧
        w.Steps Deed.Releases (twoLoops.after [.returnState "x"]).world := by
  let h : Handle := ⟨⟨1⟩, ⟨⟨5⟩, .nested .callback .outerEnd, none⟩⟩
  have hattempt : twoLoops.attempt? (.returnState "x") = some (h, .giveBack h.token) := by rfl
  have hany : ((twoLoops.world.instance? ⟨0⟩).isSome &&
      (twoLoops.world.instance? ⟨1⟩).any fun y => !h.token.isConsumed y) = true := by
    decide +kernel
  rw [Bool.and_eq_true, Option.isSome_iff_exists, Option.any_eq_true] at hany
  obtain ⟨⟨x, hx⟩, y, hy, hunused⟩ := hany
  let loop : RunningLoop := ⟨⟨0⟩, Nested.outer .callback, "ad"⟩
  have hrunning : twoLoops.running = loop :: [⟨⟨1⟩, Nested.outer .callback, "bd"⟩] := by
    decide +kernel
  obtain ⟨x', hx', -, hforeign⟩ := goes_on_by_tail rfl hrunning (.inl ⟨"x", rfl⟩) hx
  obtain ⟨w, hw, -, hreleases, -⟩ :=
    (hforeign h y hattempt (by decide) hy).2 (by simpa using hunused)
  exact ⟨x, y, h, x', hx, hy, hattempt, rfl, hx', w, hw, hreleases⟩

/-- The loop of the one instance accepts the state of the other and is over, without a fault. -/
theorem accepts_tail_of_other :
    twoLoops.running.map (·.owner) = [⟨0⟩, ⟨1⟩] ∧
    (twoLoops.stateIn? "x").map (·.owner) = some ⟨1⟩ ∧
    (twoLoops.world.instance? ⟨0⟩).map (·.stack.frames) = some [⟨Nested.outerId, 0, 0⟩] ∧
    twoLoops.reply (.returnState "x") = .state (.nested .callback .done) ∧
    ((twoLoops.after [.returnState "x"]).world.instance? ⟨0⟩).map (·.stack.frames) = some [] ∧
    ((twoLoops.after [.returnState "x"]).stateIn? "oe").map (fun h => (h.owner, h.token.isConsumed
      <$> (twoLoops.after [.returnState "x"]).world.instance? h.owner)) =
      some (⟨1⟩, some true) :=
  ⟨by decide +kernel, by decide +kernel, by decide +kernel, rfl, by decide +kernel,
    by decide +kernel⟩

end Session

end LoopProtocol
