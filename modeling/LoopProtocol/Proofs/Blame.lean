import LoopProtocol.Proofs.Draining
import LoopProtocol.Proofs.PollingConformance

/-!
# What a transition can fail with

On an instance of the nested protocol that runs, a transition fails only if its driver misused the
protocol, and in fewer ways than the engine knows. By polling a head can be entered once too often,
left too early, or left before it was entered. By iteration a state can be used before the loop in
front of it is over, and a consumer can leave. Through callbacks none of this can happen. What
remains on every surface is that a state is used twice or that a parameter holds no bound.
-/

namespace LoopProtocol

open Act Nested

/-- The faults that a transition of an instance that runs can answer on a surface. -/
def Surface.canFault (surface : Surface) : Fault → Bool
  | .linearityViolation _ | .invalidBound _ _ | .unknownParameter _ => true
  | .boundsExceeded _ | .missingFrame _ => surface = .polling
  | .prematureExit _ => surface ≠ .callback
  | .handOffClosed _ => surface = .iterator
  | .stackUnderflow | .engineFault _ => false

/-- Each of them is a misuse. -/
theorem Surface.isUsage_of_canFault {surface : Surface} {e : Fault}
    (h : surface.canFault e = true) : e.isUsage = true := by
  cases e <;> first | rfl | cases h

/-- What a call on an instance of the nested protocol that runs failed with, and whose fault that
is. A parameter without a number is missed only by the outer loop. A body is refused only by a
sequence that was opened and whose consumer left. Where no sequence is involved, the protocol can
be ended at its last state, except twice. -/
structure Blame (surface : Surface) (x : Instance) (c : Call) (e : Fault) : Prop where
  listed : surface.canFault e = true
  unknown : ∀ name, e = .unknownParameter name → c.enters? = some (outer surface).head
  refused : ∀ id, e = .handOffClosed id → ∃ t q body, c = .endIteration t q body ∧ q.loop = id ∧
    q.index < x.sequences.size ∧ (x.handOff q).abandoned = true
  last : surface ≠ .iterator → ∀ t closes, c = .finish t closes →
    e = .linearityViolation t.site.name

/-! ## Loops that run have a bound -/

/-- The parameter of the protocol holds a number as long as a loop runs. -/
def Instance.Bounded (x : Instance) : Prop :=
  x.stack.frames ≠ [] → (x.bounds.get? param).isSome

theorem Instance.Bounded.fail {x : Instance} (h : x.Bounded) (e : Fault) : (x.fail e).Bounded := by
  simpa [Bounded] using h

/-- **No number is ever taken away.** -/
theorem bounded_invariant :
    Invariant Instance.Bounded (fun _ x => (x.bounds.get? param).isSome) (fun _ => True)
      Instance.Bounded fun head => head.param = param where
  fail h := h.fail
  failAhead h _ := fun _ => by simpa using h
  consume _ _ _ h := ends_consume h.fail fun _ => h
  issue _ _ _ h := ends_issue h
  setParam name bound x h := ends_setParam fun hne => by
    rw [BoundTable.get?_insert]
    split
    · rfl
    · exact h hne
  accept _ _ h := ends_accept h
  ensureClosed _ _ h := ends_ensureClosed h.fail fun _ _ => h
  terminate _ h := ends_terminate h.fail fun _ _ => h
  activate {x} head hhead h := by
    refine ends_activate h.fail (fun top below _ hs _ => h (by simp [hs])) fun b _ _ hb => ?_
    rw [hhead, BoundTable.bound] at hb
    cases hget : x.bounds.get? param with
    | none => simp [hget] at hb
    | some count => rfl
  complete _ h := ends_complete h.fail fun _ _ _ hs _ => h (by simp [hs])
  iteration h _ := ends_iteration fun _ => h
  exitAhead _ h _ := ends_exit (fun _ _ => by simpa using h) fun _ _ _ _ _ _ _ => h
  exit _ _ h := ends_exit h.fail fun _ _ _ hs _ _ _ => h (by simp [hs])
  openAhead _ h := ends_openSequence h
  deliver _ _ h _ := Ends.bind (ends_iteration (Ends.bind (ends_issue
    (ends_handOver (fun _ _ => by simpa using h) fun _ _ _ _ => h))))
  close _ _ h := ends_closeSequence h
  take _ _ h := ends_take? (fun _ => h) (fun _ _ => h) fun _ _ _ _ => h
  abandon _ _ h := ends_abandon h (Instance.Bounded.fail (by exact h))

/-! ## The heads of the protocol -/

/-- A head is entered with one of its states. -/
theorem Call.Legal.exists_head {c : Call} {given : List Token} {begun : List LoopShape}
    {head : LoopHead} (h : c.Legal given begun) (hc : c.enters? = some head) :
    ∃ (t : Token) (via : Surface) (shape : LoopShape), c.uses = some t ∧ t ∈ given ∧
      t.site.loop? via = some shape ∧ shape.head = head := by
  cases c with
  | enter shape t => exact ⟨t, .polling, shape, rfl, h.1, h.2, Option.some.inj hc⟩
  | iterate shape t => exact ⟨t, .iterator, shape, rfl, h.1, h.2, Option.some.inj hc⟩
  | begin shape t => exact ⟨t, .callback, shape, rfl, h.1, h.2, Option.some.inj hc⟩
  | _ => cases hc

namespace Nested

variable {surface via : Surface} {place : Place} {shape : LoopShape}

theorem exists_siteAt (surface : Surface) (place : Place) :
    ∃ place', siteAt surface place = .nested surface place' := by
  cases place
  case innerEnd => exact ⟨_, rfl⟩
  case outerEnd => exact ⟨_, rfl⟩
  all_goals exact ⟨_, rfl⟩

/-- A place of the protocol has a loop of its own surface alone. -/
theorem loop?_nested (h : (Site.nested surface place).loop? via = some shape) :
    via = surface ∧ (shape = outer surface ∨ shape = inner surface) := by
  cases place <;> simp only [Site.loop?, reduceCtorEq, Option.ite_none_right_eq_some,
    Option.some.injEq] at h
  · exact ⟨h.1.symm, .inl h.2.symm⟩
  · exact ⟨h.1.symm, .inr h.2.symm⟩

theorem param_head (h : shape = outer surface ∨ shape = inner surface) :
    shape.head.param = param := by
  rcases h with rfl | rfl <;> rfl

end Nested

variable {surface : Surface} {given : List Token} {begun : List LoopShape} {p : Phase}
  {x : Instance} {c : Call} {t : Token} {e : Fault} {shape : LoopShape}

/-- A loop was entered that has no bound. -/
theorem Blame.of_unbounded (hbounded : x.Bounded) (hc : c.enters? = some shape.head)
    (hshape : shape = outer surface ∨ shape = inner surface)
    (hinner : shape = inner surface → x.stack.frames ≠ [])
    (hb : x.bounds.bound shape.head.param = .error e) : Blame surface x c e := by
  rw [param_head hshape, BoundTable.bound] at hb
  have hlast : surface ≠ .iterator → ∀ t closes, c = .finish t closes →
      e = .linearityViolation t.site.name := by
    rintro - t closes rfl
    cases hc
  cases hget : x.bounds.get? param with
  | none =>
    obtain rfl : Fault.unknownParameter param = e := by simpa [hget] using hb
    refine ⟨rfl, fun _ _ => ?_, by simp, hlast⟩
    rcases hshape with rfl | rfl
    · exact hc
    · have hsome := hbounded (hinner rfl)
      rw [hget] at hsome
      cases hsome
  | some count =>
    simp only [hget] at hb
    split at hb
    · cases hb
      exact ⟨rfl, by simp, by simp, hlast⟩
    · cases hb

/-! ## By iteration -/

namespace Nested

theorem Phase.frames_ne_nil {p : Phase} (h : p.Fits .inner ∨ p.Fits .innerEnd) :
    p.frames ≠ [] := by
  cases p <;> simp [Fits, frames] at h ⊢

namespace Streams

variable {active : List SequenceId} {q : SequenceId} {body : Site}

/-- Where an iteration ends, its loop is on top. -/
theorem exists_top (hp : InPhase given p x) (hrun : x.aborted = false) (ht : t ∈ given)
    (hunused : t.isConsumed x = false) (hend : t.site.end? = some (.iteration body))
    (hfeed : t.feed = some q) : ∃ top, x.stack.onTop? q.loop = some top := by
  obtain ⟨place, hat⟩ := hp.placed t (.inl ht)
  have hfits := hp.fits t place (.inl ht) hat (InPhase.usable_of_running hrun hunused)
  have hloop := hat.feed
  rw [hfeed, Option.map_some] at hloop
  have hturns : ∃ body, p.Turns place q.loop body := by
    rw [hat.site] at hend
    cases place <;> cases hend
    · obtain hs : q.loop = innerId := Option.some.inj hloop
      exact ⟨_, hs ▸ Phase.turns_inner hp.valid hfits⟩
    · obtain hs : q.loop = outerId := Option.some.inj hloop
      exact ⟨_, hs ▸ Phase.turns_outer hp.valid hfits⟩
  obtain ⟨_, b, k, below, hframes, -⟩ := hturns
  exact ⟨_, FrameStack.onTop?_eq_some_iff.2 ⟨(hp.frames hrun).trans hframes, rfl⟩⟩

/-- **What a transition can fail with by iteration.** -/
theorem blame (h : Streams given active x) (hp : InPhase given p x) (hrun : x.aborted = false)
    (hbounded : x.Bounded) (hlegal : c.Legal given []) (huses : c.uses = some t)
    (he : (c.act.on x).1 = .error e) : Blame .iterator x c e := by
  have hsite : ∀ t ∈ given, ∃ place, t.site = .nested .iterator place := fun t ht =>
    (hp.placed t (.inl ht)).imp fun _ hat => hat.site
  have hpolled : ∀ t ∈ given, ∀ shape, t.site.loop? .polling ≠ some shape := by
    intro t ht shape hloop
    obtain ⟨place, hplace⟩ := hsite t ht
    rw [hplace] at hloop
    cases (loop?_nested hloop).1
  have hlisted : Surface.iterator ≠ .iterator → ∀ t closes, c = .finish t closes →
      e = .linearityViolation t.site.name := fun h => absurd rfl h
  cases Call.fails_of_error he with
  | used => exact ⟨rfl, by simp, by simp, hlisted⟩
  | aborted ha => simp [hrun] at ha
  | own => cases huses
  | obstacle hunused _ hobstacle =>
    cases hobstacle with
    | buried hc _ hburied =>
      obtain ⟨t, via, shape, huses, ht, hloop, rfl⟩ := hlegal.exists_head hc
      obtain ⟨place, hplace⟩ := hsite t ht
      obtain ⟨rfl, -⟩ := loop?_nested (hplace ▸ hloop)
      have hnone := (h.at_head hp hrun ht (hunused t huses) hloop).1
      simp [hnone] at hburied
    | unbounded hc _ hb =>
      obtain ⟨t, via, shape, huses, ht, hloop, rfl⟩ := hlegal.exists_head hc
      obtain ⟨place, hat⟩ := hp.placed t (.inl ht)
      rw [hat.site] at hloop
      obtain ⟨rfl, hshape⟩ := loop?_nested hloop
      refine .of_unbounded hbounded hc hshape (fun hinner => ?_) hb
      subst hinner
      have hfits := hp.fits t place (.inl ht) hat (InPhase.usable_of_running hrun (hunused t huses))
      rw [hp.frames hrun]
      obtain rfl : place = .inner := by cases place <;> simp [Site.loop?, inner, outer] at hloop ⊢
      exact Phase.frames_ne_nil (.inl hfits)
    | exhausted => exact absurd hlegal.2 (hpolled _ hlegal.1 _)
    | early => exact absurd hlegal.2 (hpolled _ hlegal.1 _)
    | notOnTop hc htop =>
      cases c with
      | exit shape t => exact absurd hlegal.2 (hpolled _ hlegal.1 _)
      | endIteration t q body =>
        cases hc
        obtain ⟨ht, hend, hfeed⟩ := hlegal
        obtain ⟨top, hsome⟩ := exists_top hp hrun ht (hunused t rfl) hend hfeed
        simp [hsome] at htop
      | advance shape j => cases huses
      | _ => cases hc
    | unclosed => exact ⟨rfl, by simp, by simp, hlisted⟩
    | unfinished => exact ⟨rfl, by simp, by simp, hlisted⟩
    | @refused t q body _ _ _ _ hclosed =>
      obtain ⟨ht, -, hfeed⟩ := hlegal
      have hactive := h.feeds t q (.inl ht) (hunused t rfl) hfeed
      have hlt := h.bounded q hactive
      have hopen : (x.handOff q).closed = false :=
        (h.closed q hlt).2 (List.mem_map_of_mem hactive)
      rw [HandOff.isClosed, hopen, Bool.false_or] at hclosed
      refine ⟨rfl, by simp, fun id hid => ⟨t, q, body, rfl, ?_, hlt, hclosed⟩, hlisted⟩
      exact Fault.handOffClosed.inj hid

end Streams

/-! ## By polling and through callbacks -/

namespace OneState

/-- **What a transition can fail with by polling or through callbacks.** -/
theorem blame (h : OneState surface given p x) (hsurface : surface ≠ .iterator)
    (hrun : x.aborted = false) (hbounded : x.Bounded) (hlegal : c.Legal given begun)
    (huse : ∀ t u, c = .use t u → u = .consume) (huses : c.uses = some t)
    (he : (c.act.on x).1 = .error e) : Blame surface x c e := by
  have hsite : ∀ t ∈ given, ∃ place, t.site = .nested surface place := by
    intro t ht
    obtain ⟨place, hplace⟩ := h.placed t ht
    rw [hplace]
    exact exists_siteAt surface place
  have hpolled : ∀ t ∈ given, ∀ shape, t.site.loop? .polling = some shape →
      surface = .polling := by
    intro t ht shape hloop
    obtain ⟨place, hplace⟩ := hsite t ht
    rw [hplace] at hloop
    exact (loop?_nested hloop).1.symm
  have hunclosed : c.closes? = none := by
    cases c with
    | use t u => cases huse t u rfl; rfl
    | send t point =>
      obtain ⟨place, hplace⟩ := h.placed t hlegal.1
      rcases send?_siteAt (hplace ▸ hlegal.2) with ⟨-, rfl⟩ | ⟨-, rfl⟩
      · rfl
      · exact if_neg hsurface
    | finish t closes =>
      obtain ⟨place, hplace⟩ := h.placed t hlegal.1
      obtain ⟨-, hclose⟩ := end?_siteAt hsurface (hplace ▸ hlegal.2)
      exact EndPoint.protocol.inj hclose
    | _ => rfl
  have hended : ∀ t q body, c ≠ .endIteration t q body := by
    rintro t q body rfl
    obtain ⟨place, hplace⟩ := h.placed t hlegal.1
    cases (end?_siteAt hsurface (hplace ▸ hlegal.2.1)).2
  cases Call.fails_of_error he with
  | used hc =>
    refine ⟨rfl, by simp, by simp, fun _ t closes hfinish => ?_⟩
    subst hfinish
    rw [Option.some.inj hc]
  | aborted ha => simp [hrun] at ha
  | own => cases huses
  | obstacle hunused _ hobstacle =>
    cases hobstacle with
    | buried hc htop hburied =>
      obtain ⟨t, via, shape, huses, ht, hloop, rfl⟩ := hlegal.exists_head hc
      obtain ⟨place, hplace⟩ := hsite t ht
      obtain ⟨rfl, -⟩ := loop?_nested (hplace ▸ hloop)
      have hnone := h.contains_eq_false hrun ht (hunused t huses) hloop htop
      simp [hnone] at hburied
    | unbounded hc _ hb =>
      obtain ⟨t, via, shape, huses, ht, hloop, rfl⟩ := hlegal.exists_head hc
      obtain ⟨place, hplace, hlive⟩ := h.live t ht (hunused t huses)
      have hfits := Phase.fits_of_live hlive
      rw [hplace] at hloop
      obtain rfl := surface_eq_of_loop? hloop
      refine .of_unbounded hbounded hc ?_ (fun hinner => ?_) hb
      · rcases loop?_siteAt hloop with ⟨rfl, -⟩ | ⟨rfl, -⟩ <;> simp
      · rw [h.frames hrun]
        rcases loop?_siteAt hloop with ⟨rfl, -⟩ | ⟨-, rfl | rfl⟩
        · have hid : outerId = innerId := congrArg (·.head.id) hinner
          exact absurd hid (by decide)
        · exact Phase.frames_ne_nil (.inl hfits)
        · exact Phase.frames_ne_nil (.inr hfits)
    | exhausted =>
      obtain rfl := hpolled _ hlegal.1 _ hlegal.2
      exact ⟨rfl, by simp, by simp, by simp⟩
    | early =>
      obtain rfl := hpolled _ hlegal.1 _ hlegal.2
      exact ⟨rfl, by simp, by simp, by simp⟩
    | notOnTop hc =>
      cases c with
      | exit shape t =>
        obtain rfl := hpolled _ hlegal.1 _ hlegal.2
        exact ⟨rfl, by simp, by simp, by simp⟩
      | endIteration t q body => exact absurd rfl (hended t q body)
      | advance shape j => cases huses
      | _ => cases hc
    | unclosed hc => simp [hunclosed] at hc
    | unfinished hc htop =>
      cases c with
      | use t u => cases huse t u rfl; cases hc
      | finish t closes =>
        -- at the last state no loop runs
        obtain ⟨place, hplace, hlive⟩ := h.live t hlegal.1 (hunused t rfl)
        obtain ⟨rfl, -⟩ := end?_siteAt hsurface (hplace ▸ hlegal.2)
        have hframes : x.stack.frames = [] := by
          rw [h.frames hrun]
          cases p <;> cases hlive
          rfl
        simp [FrameStack.top?, hframes] at htop
      | _ => cases hc
    | refused => exact absurd rfl (hended _ _ _)

end OneState

end Nested

end LoopProtocol
