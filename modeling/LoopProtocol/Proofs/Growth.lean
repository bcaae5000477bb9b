import LoopProtocol.Proofs.Invariant

/-!
# What no call undoes

An instance only grows: its events and log lines are never taken back, an abort is final, and so is
the use of a state. Such a property is kept by every single change that an action makes (`Stable`),
and so by every call.
-/

namespace LoopProtocol

/-- A property that no change to an instance can break, but the use of a state of which `T` does
not hold. -/
structure Stable (P : Instance → Prop) (T : Token → Prop := fun _ => True) : Prop where
  line : ∀ x l, P x → P { x with lines := x.lines.push l }
  event : ∀ x e, P x → P { x with events := x.events.push e }
  stack : ∀ x s, P x → P { x with stack := s }
  abort : ∀ x, P x → P { x with aborted := true }
  issue : ∀ x, P x → P { x with guards := x.guards.issue }
  spend : ∀ x t, T t → P x → P { x with guards := x.guards.spend t.guard }
  sequences : ∀ x hs, P x → P { x with sequences := hs }
  bounds : ∀ x b, P x → P { x with bounds := b }

namespace Stable

open Act

variable {P : Instance → Prop} {T : Token → Prop} (h : Stable P T)
include h

theorem fail {x : Instance} (hx : P x) (e : Fault) : P (x.fail e) := by
  unfold Instance.fail
  split
  · exact hx
  · exact h.line _ _ (h.abort x hx)

theorem handOff {x : Instance} (hx : P x) (s : SequenceId) (p : HandOff Token) :
    P (x.setHandOff s p) :=
  h.sequences x (x.sequences.setIfInBounds s.index p) hx

/-- **A property that no change can break is an invariant**, also between two basic actions. -/
theorem invariant : Invariant P (fun _ => P) T where
  fail := h.fail
  failAhead := h.fail
  consume t ht x hx := ends_consume (h.fail hx) fun _ =>
    h.line _ (.consumed t.site.name t.site.role) (h.spend x t ht hx)
  issue site feed x hx := ends_issue (h.issue x hx)
  setParam name bound x hx := ends_setParam (h.bounds x _ hx)
  accept label x hx := ends_accept (h.event _ _ (h.line x (.accepted label) hx))
  ensureClosed id x hx := ends_ensureClosed (h.fail hx) fun _ _ => hx
  terminate x hx := ends_terminate (h.fail hx) fun _ _ => h.event _ _ (h.line x .terminated hx)
  activate {x} head _ hx := by
    refine ends_activate (h.fail hx) ?_ ?_
    · intro top below _ _ _
      exact h.line _ _ (h.stack x ⟨top.advance :: below⟩ hx)
    · intro b _ _ _
      have hpushed := h.stack x (x.stack.push head.id b) hx
      exact h.event _ _ (h.line _ (.activated head.id b.count) hpushed)
  complete {x} id hx := by
    refine ends_complete (h.fail hx) ?_
    intro top below _ _ _
    exact h.line _ _ (h.stack x ⟨top.advance :: below⟩ hx)
  iteration {f x} hx _ := ends_iteration (h.event _ _ (h.line x (.entered f) hx))
  exitAhead {_ x} id hx _ := ends_exit (h.fail hx) fun top below _ _ _ _ =>
    h.event _ _ (h.line _ (.exited top) (h.stack x ⟨below⟩ hx))
  exit id x hx := ends_exit (h.fail hx) fun top below _ _ _ _ =>
    h.event _ _ (h.line _ (.exited top) (h.stack x ⟨below⟩ hx))
  openAhead {_ x} id hx := ends_openSequence (h.sequences x _ hx)
  deliver {f x} s body hx _ := by
    have hentered := h.event _ (.iteration f.id f.current) (h.line x (.entered f) hx)
    have hissued := h.issue _ hentered
    refine Ends.bind (ends_iteration (Ends.bind (ends_issue ?_)))
    exact ends_handOver (h.fail hissued) fun _ line _ => h.line _ line (h.handOff hissued s _)
  close s x hx := ends_closeSequence (h.line _ _ (h.handOff hx s _))
  take s x hx := by
    refine ends_take? (fun _ => hx) (fun _ _ => h.handOff hx s _) ?_
    intro t u rest _
    exact h.line _ (.handedOver s.loop) (h.handOff hx s _)
  abandon s x hx := ends_abandon (h.handOff hx s _) (h.fail (h.handOff hx s _))

end Stable

/-- `y` is what `x` has become: it is the same instance, and nothing reported is taken back. -/
structure Instance.Grown (x y : Instance) : Prop where
  id : y.id = x.id
  recorder : y.recorder = x.recorder
  events : ∃ es, y.events = x.events ++ es
  aborted : x.aborted = true → y.aborted = true

namespace Instance.Grown

variable {x y z : Instance}

theorem refl (x : Instance) : x.Grown x := ⟨rfl, rfl, ⟨#[], by simp⟩, fun h => h⟩

theorem trans (h : x.Grown y) (h' : y.Grown z) : x.Grown z := by
  obtain ⟨es, hes⟩ := h.events
  obtain ⟨fs, hfs⟩ := h'.events
  refine ⟨h'.id.trans h.id, h'.recorder.trans h.recorder, ⟨es ++ fs, ?_⟩, h'.aborted ∘ h.aborted⟩
  rw [hfs, hes, Array.append_assoc]

theorem stable (x : Instance) : Stable x.Grown where
  line _ _ h := ⟨h.id, h.recorder, h.events, h.aborted⟩
  event y e h := by
    obtain ⟨es, hes⟩ := h.events
    exact ⟨h.id, h.recorder, ⟨es.push e, by rw [hes, Array.push_append]⟩, h.aborted⟩
  stack _ _ h := ⟨h.id, h.recorder, h.events, h.aborted⟩
  abort _ h := ⟨h.id, h.recorder, h.events, fun _ => rfl⟩
  issue _ h := ⟨h.id, h.recorder, h.events, h.aborted⟩
  spend _ _ _ h := ⟨h.id, h.recorder, h.events, h.aborted⟩
  sequences _ _ h := ⟨h.id, h.recorder, h.events, h.aborted⟩
  bounds _ _ h := ⟨h.id, h.recorder, h.events, h.aborted⟩

end Instance.Grown

/-- What a call makes of an instance. -/
theorem Call.grown (c : Call) (x : Instance) : x.Grown (c.act.on x).2 :=
  ((Instance.Grown.stable x).invariant.call c).on (.refl x)

/-! ## Guards -/

/-- What becomes of guards: more are issued, and none lets somebody past again. -/
structure Guards.Le (g g' : Guards) : Prop where
  size : g.spent.size ≤ g'.spent.size
  used : ∀ id : GuardId, id.index < g.spent.size → g.isConsumed id = true → g'.isConsumed id = true

namespace Guards

variable {g g' g'' : Guards} {id : GuardId}

theorem Le.refl (g : Guards) : g.Le g := ⟨Nat.le_refl _, fun _ _ h => h⟩

theorem Le.trans (h : g.Le g') (h' : g'.Le g'') : g.Le g'' where
  size := Nat.le_trans h.size h'.size
  used id hlt hused := h'.used id (Nat.lt_of_lt_of_le hlt h.size) (h.used id hlt hused)

theorem ne_next (h : id.index < g.spent.size) : id ≠ g.next := by
  rintro rfl
  exact Nat.lt_irrefl _ h

theorem index_next_lt (g : Guards) : g.next.index < g.issue.spent.size := by
  simp [next, issue]

theorem le_issue (g : Guards) : g.Le g.issue where
  size := by simp [issue]
  used id hlt hused := by rw [isConsumed_issue_of_ne (ne_next hlt), hused]

theorem le_spend (g : Guards) (id : GuardId) : g.Le (g.spend id) where
  size := by simp [spend]
  used id' _ hused := by rw [isConsumed_spend, hused, Bool.or_true]

theorem stable_le (g : Guards) : Stable fun y => g.Le y.guards where
  line _ _ h := h
  event _ _ h := h
  stack _ _ h := h
  abort _ h := h
  issue x h := h.trans x.guards.le_issue
  spend x t _ h := h.trans (x.guards.le_spend t.guard)
  sequences _ _ h := h
  bounds _ _ h := h

/-- The use of other states does not change an issued guard. -/
theorem stable_isConsumed (id : GuardId) (used : Bool) :
    Stable (fun y => id.index < y.guards.spent.size ∧ y.guards.isConsumed id = used)
      fun t => t.guard ≠ id where
  line _ _ h := h
  event _ _ h := h
  stack _ _ h := h
  abort _ h := h
  issue x h := by
    refine ⟨Nat.lt_of_lt_of_le h.1 x.guards.le_issue.size, ?_⟩
    rw [isConsumed_issue_of_ne (ne_next h.1), h.2]
  spend x t ht h := by
    refine ⟨Nat.lt_of_lt_of_le h.1 (x.guards.le_spend t.guard).size, ?_⟩
    rw [isConsumed_spend, decide_eq_false ht, h.2, Bool.false_or]
  sequences _ _ h := h
  bounds _ _ h := h

end Guards

theorem Call.guards_le (c : Call) (x : Instance) : x.guards.Le (c.act.on x).2.guards :=
  ((Guards.stable_le x.guards).invariant.call c).on (.refl _)

/-- **A used state is refused before all else.** -/
theorem Call.on_used {c : Call} {t : Token} {x : Instance} (hc : c.uses = some t)
    (hused : t.isConsumed x = true) :
    c.act.on x =
      (.error (.linearityViolation t.site.name), x.fail (.linearityViolation t.site.name)) := by
  obtain ⟨f, hact, -⟩ := (Guards.stable_le x.guards).invariant.consumesFirst hc
  rw [hact, Act.on_bind, Act.on_consume, if_pos hused]

theorem Call.unused_of_ok {c : Call} {t : Token} {x : Instance} {grant : Grant}
    (hc : c.uses = some t) (hok : (c.act.on x).1 = .ok grant) : t.isConsumed x = false := by
  cases hused : t.isConsumed x with
  | false => rfl
  | true => simp [on_used hc hused] at hok

/-- **A call uses its state up**, also when it fails. -/
theorem Call.isConsumed_on {c : Call} {t : Token} {x : Instance} (hc : c.uses = some t)
    (ht : t.guard.index < x.guards.spent.size) : t.isConsumed (c.act.on x).2 = true := by
  cases hused : t.isConsumed x with
  | true => exact (c.guards_le x).used t.guard ht hused
  | false =>
    have hsize := (x.guards.le_spend t.guard).size
    have hspent : (x.guards.spend t.guard).isConsumed t.guard = true := by
      simp [Guards.isConsumed_spend]
    -- after the use no action of the call gives the guard back
    obtain ⟨f, hact, hkeeps⟩ :=
      (Guards.stable_le (x.guards.spend t.guard)).invariant.consumesFirst hc
    rw [hact, Act.on_bind, Act.on_consume, hused]
    have hle : (x.guards.spend t.guard).Le ((f ()).on _).2.guards :=
      (hkeeps ()).on (x := { x with
        guards := x.guards.spend t.guard
        lines := x.lines.push (.consumed t.site.name t.site.role) }) (.refl _)
    exact hle.used t.guard (Nat.lt_of_lt_of_le ht hsize) hspent

end LoopProtocol
