import LoopProtocol.Proofs.Frozen

/-!
# Linearity

A protocol state is used at most once, through whichever of its handles. The handles of one state
are those with its guard on its instance: an alias has it, and so has a state that was stored, taken
from a sequence or given to a body. The first attempt of a transition uses the guard up, whatever
comes of it, and every later one is refused before it changes anything.
-/

namespace LoopProtocol

open Act

/-! ## What a refusal can change -/

/-- `y` is `x`, but for bodies that have left their sequences, and an abort. -/
structure Instance.Drained (x y : Instance) : Prop where
  stack : y.stack = x.stack
  bounds : y.bounds = x.bounds
  events : y.events = x.events
  guards : y.guards = x.guards
  queue : ∀ q, (y.handOff q).queue <:+ (x.handOff q).queue

namespace Instance.Drained

variable {x y z : Instance} {q : SequenceId} {p : HandOff Token}

theorem refl (x : Instance) : x.Drained x := ⟨rfl, rfl, rfl, rfl, fun _ => List.suffix_rfl⟩

theorem trans (h : x.Drained y) (h' : y.Drained z) : x.Drained z where
  stack := h'.stack.trans h.stack
  bounds := h'.bounds.trans h.bounds
  events := h'.events.trans h.events
  guards := h'.guards.trans h.guards
  queue q := (h'.queue q).trans (h.queue q)

theorem fail (h : x.Drained y) (e : Fault) : x.Drained (y.fail e) where
  stack := (Instance.stack_fail y e).trans h.stack
  bounds := (Instance.bounds_fail y e).trans h.bounds
  events := (Instance.events_fail y e).trans h.events
  guards := (Instance.guards_fail y e).trans h.guards
  queue q := by
    have hsame : (y.fail e).handOff q = y.handOff q := by rw [handOff, sequences_fail, handOff]
    rw [hsame]
    exact h.queue q

theorem setHandOff (h : x.Drained y) (hp : p.queue <:+ (y.handOff q).queue) :
    x.Drained (y.setHandOff q p) :=
  ⟨h.stack, h.bounds, h.events, h.guards, fun q' => (queue_setHandOff hp q').trans (h.queue q')⟩

theorem withLines (h : x.Drained y) (lines : Array LogLine) : x.Drained { y with lines } :=
  ⟨h.stack, h.bounds, h.events, h.guards, h.queue⟩

theorem take (q : SequenceId) : (Iterator.take? q).Keeps x.Drained := by
  intro y h
  refine ends_take? (fun _ => h) (fun t hq => ?_) fun t u rest hq => ?_
  · exact h.setHandOff (HandOff.queue_suffix_of_take hq)
  · exact (h.setHandOff (HandOff.queue_suffix_of_take hq)).withLines _

theorem abandon (q : SequenceId) : (Iterator.abandon q).Keeps x.Drained := by
  intro y h
  have hleft : x.Drained (y.setHandOff q (y.handOff q).abandon) := h.setHandOff List.nil_suffix
  exact ends_abandon hleft hleft.fail

end Instance.Drained

theorem Call.drained {i : InstanceId} {c : Call} (hc : (Deed.call i c).Drains) (x : Instance) :
    x.Drained (c.act.on x).2 := by
  cases c with
  | take q => exact ((Instance.Drained.take q).map _).on (.refl x)
  | abandon q => exact ((Instance.Drained.abandon q).map _).on (.refl x)
  | _ => exact hc.elim

namespace World

variable {w w' : World} {i : InstanceId} {x : Instance}

/-- An action that reports nothing. -/
theorem recorders_on {α : Type} {a : Act α}
    (ha : ∀ x, w.instance? i = some x → (a.on x).2.events = x.events) :
    (w.on i a).2.recorders = w.recorders := by
  cases hx : w.instance? i with
  | none => rw [on_of_none hx]
  | some x =>
    have hnone : (a.on x).2.events.extract x.events.size (a.on x).2.events.size = #[] := by
      rw [ha x hx]
      simp
    rw [on_eq hx]
    simp only [publish, hnone]
    cases (a.on x).2.recorder with
    | none => rfl
    | some r => exact Recorders.hear_nothing w.recorders r

theorem Steps.recorders_of_drains (h : w.Steps Deed.Drains w') : w'.recorders = w.recorders := by
  induction h with
  | refl => rfl
  | @cons w w' e he _ ih =>
    cases e with
    | clear r => exact he.elim
    | call i c => exact ih.trans (recorders_on fun x _ => (c.drained he x).events)

end World

/-! ## The guards of other states -/

/-- The guard reads the same. -/
def Guards.Same (id : GuardId) (g g' : Guards) : Prop :=
  id.index < g.spent.size → id.index < g'.spent.size ∧ g'.isConsumed id = g.isConsumed id

theorem Guards.Same.trans {id : GuardId} {g g' g'' : Guards} (h : Guards.Same id g g')
    (h' : Guards.Same id g' g'') : Guards.Same id g g'' := by
  intro hlt
  obtain ⟨hlt', heq⟩ := h hlt
  obtain ⟨hlt'', heq'⟩ := h' hlt'
  exact ⟨hlt'', heq'.trans heq⟩

/-- A call leaves the guards of the states that it does not use. -/
theorem Call.guards_same {c : Call} {id : GuardId} (hc : ∀ t, c.uses = some t → t.guard ≠ id)
    (x : Instance) : Guards.Same id x.guards (c.act.on x).2.guards := by
  intro hlt
  have hstable := Guards.stable_isConsumed id (x.guards.isConsumed id)
  exact (hstable.invariant.keeps hc).on ⟨hlt, rfl⟩

/-! ## Attempts on used states -/

namespace Session

open SessionM

/-- The move is refused because the state of the handle was used. -/
structure Refuses (s : Session) (m : Move) (h : Handle) : Prop where
  fault : (s.reply m).fault? = some (.linearityViolation h.token.site.name)
  recorders : (s.after [m]).world.recorders = s.world.recorders
  instances : ∀ i x, s.world.instance? i = some x →
    ∃ y, (s.after [m]).world.instance? i = some y ∧ x.Drained y
  aborted : (s.after [m]).world.Aborted h.owner

/-- The state of the handle was used, and no transition of it is possible any more. A handle with
its guard is a handle of the same state. -/
structure UsedUp (s : Session) (h : Handle) : Prop where
  used : ∃ x, s.world.instance? h.owner = some x ∧ h.token.isConsumed x = true
  refuses : ∀ m h' c, s.attempt? m = some (h', c) → h'.owner = h.owner →
    h'.token.guard = h.token.guard → h' = h ∧ s.Refuses m h

variable {s : Session} {m : Move} {h : Handle} {c : Call} {i : InstanceId} {x : Instance}

/-- **A used state is refused.** -/
theorem refuses_of_used (hs : s.Issued) (hattempt : s.attempt? m = some (h, c))
    (hx : s.world.instance? h.owner = some x) (hused : h.token.isConsumed x = true) :
    s.Refuses m h := by
  have huses : c.uses = some h.token := uses_of_attempt? hattempt
  have hcall := Call.on_used huses hused
  have herror : (s.world.on h.owner c.act).1 = .error (.linearityViolation h.token.site.name) := by
    rw [World.on_eq hx, hcall]
  obtain ⟨hfault, hdrained⟩ := (opens_attempt hattempt).refused _ herror
  refine ⟨hfault, ?_, fun i y hy => ?_, aborted_of_refused hs hattempt herror⟩
  · refine hdrained.recorders_of_drains.trans (World.recorders_on fun y hy => ?_)
    obtain rfl : x = y := Option.some.inj (hx.symm.trans hy)
    rw [hcall]
    exact Instance.events_fail x _
  · -- the refused call changes its own instance only, and that only by an abort
    obtain ⟨z, hz, hyz⟩ : ∃ z, (s.world.on h.owner c.act).2.instance? i = some z ∧ y.Drained z := by
      by_cases howner : i = h.owner
      · subst howner
        obtain rfl : x = y := Option.some.inj (hx.symm.trans hy)
        refine ⟨_, World.instance?_on_self hx c.act, ?_⟩
        rw [hcall]
        exact (Instance.Drained.refl x).fail _
      · exact ⟨y, (World.instance?_on_of_ne howner c.act).trans hy, .refl y⟩
    obtain ⟨z', hz', hzz'⟩ := hdrained.related Instance.Drained.refl Instance.Drained.trans
      (fun _ x hc => Call.drained hc x) hz
    exact ⟨z', hz', hyz.trans hzz'⟩

theorem UsedUp.of_used (hs : s.Issued)
    (hsame : ∀ name h', s.vars.get? name = some (.state h') → h'.owner = h.owner →
      h'.token.guard = h.token.guard → h' = h)
    (hx : s.world.instance? h.owner = some x) (hused : h.token.isConsumed x = true) :
    s.UsedUp h := by
  refine ⟨⟨x, hx, hused⟩, fun m h' c hattempt howner hguard => ?_⟩
  obtain ⟨name, -, hget, -⟩ := attempt?_eq_some_iff.1 hattempt
  obtain rfl := hsame name h' hget howner hguard
  exact ⟨rfl, refuses_of_used hs hattempt hx hused⟩

/-- **An attempt uses its state up**, whatever comes of it. -/
theorem used_after_attempt (hs : s.Issued) (hattempt : s.attempt? m = some (h, c)) :
    ∃ y, (s.after [m]).world.instance? h.owner = some y ∧
      h.token.guard.index < y.guards.spent.size ∧ h.token.isConsumed y = true := by
  obtain ⟨name, -, hget, -⟩ := attempt?_eq_some_iff.1 hattempt
  obtain ⟨x, hx, hlt⟩ := hs.vars name h hget
  have hused := Call.isConsumed_on (uses_of_attempt? hattempt) hlt
  have hlt' := Nat.lt_of_lt_of_le hlt (c.guards_le x).size
  obtain ⟨y, hy, hle⟩ := (opens_attempt hattempt).idle.related
    (R := fun x y => x.guards.Le y.guards) (fun x => .refl x.guards) Guards.Le.trans
    (fun c x _ => c.guards_le x) (World.instance?_on_self hx c.act)
  exact ⟨y, hy, Nat.lt_of_lt_of_le hlt' hle.size, hle.used _ hlt' hused⟩

/-- **A used state stays used.** -/
theorem still_used (hx : s.world.instance? h.owner = some x)
    (hlt : h.token.guard.index < x.guards.spent.size) (hused : h.token.isConsumed x = true)
    (moves : List Move) :
    ∃ y, (s.after moves).world.instance? h.owner = some y ∧ h.token.isConsumed y = true := by
  obtain ⟨y, hy, hle⟩ := related_after (R := fun x y => x.guards.Le y.guards)
    (fun x => .refl x.guards) Guards.Le.trans (fun c x => c.guards_le x) hx moves
  exact ⟨y, hy, hle.used h.token.guard hlt hused⟩

/-- **No move touches the guard of a state that it is not attempted on.** -/
theorem guards_same (hx : s.world.instance? i = some x) {id : GuardId}
    (hother : ∀ h c, s.attempt? m = some (h, c) → h.owner = i → h.token.guard ≠ id) :
    ∃ y, (s.after [m]).world.instance? i = some y ∧ Guards.Same id x.guards y.guards := by
  have hidle : ∀ {w w' : World} {x : Instance}, w.Steps Deed.IsIdle w' → w.instance? i = some x →
      ∃ y, w'.instance? i = some y ∧ Guards.Same id x.guards y.guards := by
    intro w w' x hsteps hx
    refine hsteps.related (R := fun x y => Guards.Same id x.guards y.guards)
      (fun _ hlt => ⟨hlt, rfl⟩) Guards.Same.trans (fun c x hc => c.guards_same ?_ x) hx
    intro t ht
    have hnone : c.uses = none := hc
    rw [hnone] at ht
    cases ht
  cases hattempt : s.attempt? m with
  | none => exact hidle (idle_move hattempt) hx
  | some p =>
    have hopens := opens_attempt (h := p.1) (c := p.2) hattempt
    by_cases howner : i = p.1.owner
    · have hne := hother p.1 p.2 hattempt howner.symm
      have huses := uses_of_attempt? (h := p.1) (c := p.2) hattempt
      have hcall : Guards.Same id x.guards (p.2.act.on x).2.guards := by
        refine p.2.guards_same (fun t ht => ?_) x
        rw [huses] at ht
        cases ht
        exact hne
      obtain ⟨y, hy, hsame⟩ := hidle hopens.idle
        (by rw [← howner]; exact World.instance?_on_self hx p.2.act)
      exact ⟨y, hy, hcall.trans hsame⟩
    · exact hidle hopens.idle ((World.instance?_on_of_ne howner p.2.act).trans hx)

/-! ## Along a session -/

/-- What is known of the states of a session, and of all that it can still do. -/
structure Linear (s : Session) : Prop where
  /-- After an attempt no transition of the state is possible, through whichever handle and whatever
  was done in between. -/
  once : ∀ m h c, s.attempt? m = some (h, c) → ∀ moves, ((s.after [m]).after moves).UsedUp h
  /-- A use is never taken back. -/
  final : ∀ name h x, s.vars.get? name = some (.state h) → s.world.instance? h.owner = some x →
    h.token.isConsumed x = true → ∀ moves, (s.after moves).UsedUp h
  /-- A move uses no state but the one that it is attempted on. -/
  others : ∀ m name h x, s.vars.get? name = some (.state h) →
    s.world.instance? h.owner = some x →
    (∀ h' c, s.attempt? m = some (h', c) → h'.owner = h.owner → h'.token.guard ≠ h.token.guard) →
    ∃ y, (s.after [m]).world.instance? h.owner = some y ∧
      h.token.isConsumed y = h.token.isConsumed x
  /-- Every handle shows whether the state was used through any of them. -/
  shown : ∀ name h, s.vars.get? name = some (.state h) → ∃ x info,
    s.world.instance? h.owner = some x ∧ s.reply (.act (.info name)) = .info info ∧
      info.isConsumed = x.guards.isConsumed h.token.guard

theorem reply_info {name : String} (hget : s.vars.get? name = some (.state h))
    (hx : s.world.instance? h.owner = some x) :
    s.reply (.act (.info name)) = .info (stateInfo h x) := by
  simp only [reply, move, perform, withState, withInstance, StateT.run_bind, StateT.run_get,
    pure_bind, hget, hx]
  rfl

/-- A state that was used stays used up. -/
theorem usedUp_after {recorders : Nat} {instances : List (BoundTable × Option RecorderId)}
    {moves moves' : List Move} {name : String}
    (hget : ((start recorders instances).after moves).vars.get? name = some (.state h))
    (hx : (((start recorders instances).after moves).after moves').world.instance? h.owner =
      some x) (hused : h.token.isConsumed x = true) :
    (((start recorders instances).after moves).after moves').UsedUp h := by
  have hissued : (((start recorders instances).after moves).after moves').Issued := by
    rw [← after_append]
    exact issued_after recorders instances (moves ++ moves')
  refine UsedUp.of_used hissued (fun name' h' hget' howner hguard => ?_) hx hused
  exact eq_of_guard_eq recorders instances moves hget hget' howner hguard

/-- **Every state is used at most once**, through all its handles together. -/
theorem linear_after (recorders : Nat) (instances : List (BoundTable × Option RecorderId))
    (moves : List Move) : ((start recorders instances).after moves).Linear := by
  have hs : ((start recorders instances).after moves).Issued :=
    issued_after recorders instances moves
  refine ⟨fun m h c hattempt moves' => ?_, fun name h x hget hx hused moves' => ?_,
    fun m name h x hget hx hother => ?_, fun name h hget => ?_⟩
  · obtain ⟨name, -, hget, -⟩ := attempt?_eq_some_iff.1 hattempt
    obtain ⟨x, hx, hlt, hused⟩ := used_after_attempt hs hattempt
    obtain ⟨y, hy, hused'⟩ := still_used hx hlt hused moves'
    rw [← after_append] at hy ⊢
    exact usedUp_after hget hy hused'
  · obtain ⟨x', hx', hlt⟩ := hs.vars name h hget
    obtain rfl : x = x' := Option.some.inj (hx.symm.trans hx')
    obtain ⟨y, hy, hused'⟩ := still_used hx hlt hused moves'
    exact usedUp_after hget hy hused'
  · obtain ⟨x', hx', hlt⟩ := hs.vars name h hget
    obtain rfl : x = x' := Option.some.inj (hx.symm.trans hx')
    obtain ⟨y, hy, hsame⟩ := guards_same hx hother
    exact ⟨y, hy, (hsame hlt).2⟩
  · obtain ⟨x, hx, -⟩ := hs.vars name h hget
    exact ⟨x, stateInfo h x, hx, reply_info hget hx, rfl⟩

end Session

end LoopProtocol
