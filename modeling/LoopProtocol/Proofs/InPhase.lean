import LoopProtocol.Proofs.Call
import LoopProtocol.Proofs.Phase
import LoopProtocol.Proofs.Turn

/-!
# Instances in a phase

The sequence of a loop and the state after the loop exist at the same time, so a driver can use the
states of the nested protocol in any order. `InPhase given p x` says what keeps the events in order
all the same: every state that the driver has or will take from a sequence, and that the engine
would still accept, is at a place that fits the phase, and no two of them are at one place. An
aborted instance accepts nothing but the message of an inner body.

Whatever the driver does, its instance stays in its phase or steps to the next one.
-/

namespace LoopProtocol

/-! ## Guards and sequences -/

namespace Guards

variable {g : Guards} {id : GuardId} {n : Nat}

@[simp] theorem size_spend : (g.spend id).spent.size = g.spent.size := by simp [spend]

theorem size_repeat_issue (n : Nat) (g : Guards) :
    (n.repeat issue g).spent.size = g.spent.size + n := by
  induction n with
  | zero => rfl
  | succ n ih => simp [Nat.repeat, issue, ih, Nat.add_assoc]

theorem isConsumed_repeat_issue (h : id.index < g.spent.size) :
    (n.repeat issue g).isConsumed id = g.isConsumed id := by
  induction n with
  | zero => rfl
  | succ n ih =>
    rw [Nat.repeat, isConsumed_issue_of_ne, ih]
    rintro rfl
    simp only [next, size_repeat_issue] at h
    omega

end Guards

/-- The state is in one of the sequences, on its way to the driver. -/
def Queued (sequences : Array (HandOff Token)) (t : Token) : Prop :=
  ∃ h ∈ sequences, t ∈ h.queue

section Queued

variable {sequences : Array (HandOff Token)} {p : HandOff Token} {t : Token} {k : Nat}

theorem queued_handOff {x : Instance} {s : SequenceId} (h : t ∈ (x.handOff s).queue) :
    Queued x.sequences t := by
  unfold Instance.handOff at h
  rw [Array.getD_eq_getD_getElem?] at h
  cases hs : x.sequences[s.index]? with
  | none => simp [hs, HandOff.gone] at h
  | some p => exact ⟨p, Array.mem_of_getElem? hs, by simpa [hs] using h⟩

theorem Queued.of_set (h : Queued (sequences.setIfInBounds k p) t) :
    t ∈ p.queue ∨ Queued sequences t := by
  obtain ⟨q, hq, ht⟩ := h
  rcases Array.mem_or_eq_of_mem_setIfInBounds hq with hq | rfl
  · exact .inr ⟨q, hq, ht⟩
  · exact .inl ht

/-- A passage that gets nothing new. -/
theorem Queued.of_setHandOff {x : Instance} {s : SequenceId} (hsub : p.queue ⊆ (x.handOff s).queue)
    (h : Queued (x.setHandOff s p).sequences t) : Queued x.sequences t := by
  rcases Queued.of_set h with hq | hq
  · exact queued_handOff (hsub hq)
  · exact hq

theorem Queued.of_push (h : Queued (sequences.push .fresh) t) : Queued sequences t := by
  obtain ⟨q, hq, ht⟩ := h
  rcases Array.mem_push.1 hq with hq | rfl
  · exact ⟨q, hq, ht⟩
  · cases ht

end Queued

namespace Nested

/-! ## States of the protocol -/

/-- The loop whose sequence a state at the place feeds. -/
def feeds : Place → Option LoopId
  | .outer | .done => none
  | .inner | .afterInner | .outerEnd => some outerId
  | .innerBody | .innerEnd => some innerId

/-- The state is at a place of the nested protocol on the iterator surface. -/
structure IsAt (t : Token) (place : Place) : Prop where
  site : t.site = .nested .iterator place
  feed : t.feed.map (·.loop) = feeds place

/-- The engine would let the driver use the state. -/
structure Usable (x : Instance) (place : Place) (t : Token) : Prop where
  unused : t.isConsumed x = false
  aborted : x.aborted = true → place = .innerBody

/-- The driver has the state, or can take it from a sequence. -/
def Known (given : List Token) (x : Instance) (t : Token) : Prop := t ∈ given ∨ Queued x.sequences t

/-- One of the states that were given at these places, in this order, with the next guards. -/
def IsNew (x : Instance) (new : List Place) (t : Token) : Prop :=
  ∃ k place, new[k]? = some place ∧ IsAt t place ∧ t.guard.index = x.guards.spent.size + k

/-- From `x` to `y` the driver was given states at these places, and what was used or aborted is
so still. -/
structure Grants (given : List Token) (x : Instance) (new : List Place) (given' : List Token)
    (y : Instance) : Prop where
  aborted : x.aborted = true → y.aborted = true
  size : y.guards.spent.size = x.guards.spent.size + new.length
  unused : ∀ id : GuardId, id.index < x.guards.spent.size →
    y.guards.isConsumed id = false → x.guards.isConsumed id = false
  known : ∀ t, Known given' y t → Known given x t ∨ IsNew x new t

/-- All that the instance reported, has on its stack and gave is as the phase says. -/
structure InPhase (given : List Token) (p : Phase) (x : Instance) : Prop where
  valid : p.Valid
  log : x.events.toList = p.log
  frames : x.aborted = false → x.stack.frames = p.frames
  placed : ∀ t, Known given x t → ∃ place, IsAt t place
  issued : ∀ t, Known given x t → t.guard.index < x.guards.spent.size
  fits : ∀ t place, Known given x t → IsAt t place → Usable x place t → p.Fits place
  unique : ∀ t t' place, Known given x t → Known given x t' → IsAt t place → IsAt t' place →
    Usable x place t → Usable x place t' → t.guard = t'.guard

variable {given given' : List Token} {p p' : Phase} {x y : Instance} {t t' : Token}
  {place place' used : Place} {new : List Place}

theorem IsAt.place_eq (h : IsAt t place) (h' : IsAt t place') : place = place' := by
  have hsite := h.site.symm.trans h'.site
  simpa using hsite

theorem IsNew.mem (h : IsNew x new t) (hat : IsAt t place) : place ∈ new := by
  obtain ⟨k, place', hk, hat', -⟩ := h
  rw [hat.place_eq hat']
  exact List.mem_of_getElem? hk

/-- At different places different states are given. -/
theorem IsNew.guard_eq (h : IsNew x new t) (h' : IsNew x new t') (hnodup : new.Nodup)
    (hat : IsAt t place) (hat' : IsAt t' place) : t.guard = t'.guard := by
  obtain ⟨k, q, hk, hq, hindex⟩ := h
  obtain ⟨k', q', hk', hq', hindex'⟩ := h'
  obtain rfl := hq.place_eq hat
  obtain rfl := hq'.place_eq hat'
  obtain ⟨hlt, -⟩ := List.getElem?_eq_some_iff.1 hk
  have hkk : k = k' := (List.getElem?_inj hlt hnodup).1 (hk.trans hk'.symm)
  have hindices : t.guard.index = t'.guard.index := by omega
  exact congrArg GuardId.mk hindices

theorem IsNew.index_lt (h : IsNew x new t) :
    t.guard.index < x.guards.spent.size + new.length := by
  obtain ⟨k, _, hk, -, hindex⟩ := h
  obtain ⟨hlt, -⟩ := List.getElem?_eq_some_iff.1 hk
  omega

theorem Grants.usable (h : Grants given x new given' y) (hlt : t.guard.index < x.guards.spent.size)
    (hu : Usable y place t) : Usable x place t where
  unused := h.unused t.guard hlt hu.unused
  aborted ha := hu.aborted (h.aborted ha)

/-- **How an instance comes to a phase.** The states that were usable still fit, unless they are
used by now, and the new ones are at places at which none was usable. -/
theorem InPhase.become (h : InPhase given p x) (hgrants : Grants given x new given' y)
    (hvalid : p'.Valid) (hlog : y.events.toList = p'.log)
    (hframes : y.aborted = false → y.stack.frames = p'.frames)
    (hkeep : ∀ t place, Known given x t → IsAt t place → Usable x place t →
      t.isConsumed y = false → p'.Fits place)
    (hnew : ∀ place ∈ new, p'.Fits place ∧ ¬p.Fits place) (hnodup : new.Nodup) :
    InPhase given' p' y := by
  have hbefore : ∀ t place, Known given x t → Usable y place t → Usable x place t :=
    fun t _ ht => hgrants.usable (h.issued t ht)
  -- a new state is at a place at which no state of before was usable
  have hapart : ∀ t t' place, Known given x t → IsNew x new t' → IsAt t place → IsAt t' place →
      ¬Usable y place t := by
    intro t t' place ht hn hat hat' hu
    have hfits := h.fits t place ht hat (hbefore t place ht hu)
    exact (hnew place (hn.mem hat')).2 hfits
  refine ⟨hvalid, hlog, hframes, ?_, ?_, ?_, ?_⟩
  · intro t ht
    rcases hgrants.known t ht with ht | ⟨-, place, -, hat, -⟩
    · exact h.placed t ht
    · exact ⟨place, hat⟩
  · intro t ht
    rw [hgrants.size]
    rcases hgrants.known t ht with ht | hn
    · exact Nat.lt_add_right _ (h.issued t ht)
    · exact hn.index_lt
  · intro t place ht hat hu
    rcases hgrants.known t ht with ht | hn
    · exact hkeep t place ht hat (hbefore t place ht hu) hu.unused
    · exact (hnew place (hn.mem hat)).1
  · intro t t' place ht ht' hat hat' hu hu'
    rcases hgrants.known t ht with ht | hn <;> rcases hgrants.known t' ht' with ht' | hn'
    · exact h.unique t t' place ht ht' hat hat' (hbefore t place ht hu) (hbefore t' place ht' hu')
    · exact absurd hu (hapart t t' place ht hn' hat hat')
    · exact absurd hu' (hapart t' t place ht' hn hat' hat)
    · exact hn.guard_eq hn' hnodup hat hat'

/-- What reports nothing and gives nothing leaves the phase. -/
theorem InPhase.stay (h : InPhase given p x) (hgrants : Grants given x [] given' y)
    (hlog : y.events = x.events) (hframes : y.stack = x.stack) : InPhase given' p y := by
  refine h.become hgrants h.valid ?_ ?_ ?_ ?_ List.nodup_nil
  · rw [hlog, h.log]
  · intro ha
    have hrun : x.aborted = false := by
      cases hx : x.aborted with
      | false => rfl
      | true => rw [hgrants.aborted hx] at ha; cases ha
    rw [hframes, h.frames hrun]
  · intro t place ht hat hu _
    exact h.fits t place ht hat hu
  · intro place hmem
    cases hmem

theorem InPhase.fail (h : InPhase given p x) (e : Fault) : InPhase given p (x.fail e) := by
  have hgrants : Grants given x [] given (x.fail e) := by
    refine ⟨fun _ => Instance.aborted_fail x e, by simp, by simp, fun t ht => .inl ?_⟩
    simpa [Known] using ht
  exact h.stay hgrants (Instance.events_fail x e) (Instance.stack_fail x e)

theorem isConsumed_spend_eq_false {g : Guards} {id id' : GuardId}
    (h : (g.spend id).isConsumed id' = false) : id' ≠ id ∧ g.isConsumed id' = false := by
  rw [Guards.isConsumed_spend] at h
  simp only [Bool.or_eq_false_iff, decide_eq_false_iff_not] at h
  exact ⟨Ne.symm h.1, h.2⟩

/-- A state was used in vain. -/
theorem InPhase.spend (h : InPhase given p x) (t : Token) : InPhase given p (x.spend t) := by
  have hgrants : Grants given x [] given (x.spend t) :=
    ⟨fun ha => ha, Guards.size_spend, fun _ _ hid => (isConsumed_spend_eq_false hid).2,
      fun _ ht => .inl ht⟩
  exact h.stay hgrants rfl rfl

/-- **The use of a state takes an instance from one phase to the next.** -/
theorem InPhase.step {frames : List Frame} {w : List Event} (h : InPhase given p x)
    (ht : Known given x t) (hat : IsAt t used) (hu : Usable x used t)
    (hleads : p.Leads used new frames w p') (hlog : y.events.toList = x.events.toList ++ w)
    (hframes : y.aborted = false → y.stack.frames = frames)
    (haborted : x.aborted = true → y.aborted = true)
    (hguards : y.guards = new.length.repeat Guards.issue (x.guards.spend t.guard))
    (hknown : ∀ t, Known given' y t → Known given x t ∨ IsNew x new t) : InPhase given' p' y := by
  have hunused : ∀ id : GuardId, id.index < x.guards.spent.size →
      y.guards.isConsumed id = false → id ≠ t.guard ∧ x.guards.isConsumed id = false := by
    intro id hlt hid
    rw [hguards, Guards.isConsumed_repeat_issue (by simpa using hlt)] at hid
    exact isConsumed_spend_eq_false hid
  have hsize : y.guards.spent.size = x.guards.spent.size + new.length := by
    rw [hguards, Guards.size_repeat_issue, Guards.size_spend]
  have hgrants : Grants given x new given' y :=
    ⟨haborted, hsize, fun id hlt hid => (hunused id hlt hid).2, hknown⟩
  refine h.become hgrants hleads.valid ?_ ?_ ?_ ?_ hleads.step.nodup
  · rw [hlog, h.log, hleads.log]
  · intro ha
    rw [hframes ha, hleads.frames]
  · intro t' place ht' hat' hu' hc
    have hfits := h.fits t' place ht' hat' hu'
    refine hleads.step.keep ?_ hfits
    -- the only usable state at the place is the one that was used
    rintro rfl
    have hsame := h.unique t' t place ht' ht hat' hat hu' hu
    exact (hunused t'.guard (h.issued t' ht') hc).1 hsame
  · intro place hmem
    exact ⟨hleads.step.fits hmem, hleads.step.fresh hmem⟩

/-- A state that was given last is new, and nothing else is. -/
theorem known_issue (hseq : y.sequences = x.sequences) (hat : IsAt t' place)
    (hindex : t'.guard.index = x.guards.spent.size) (t : Token)
    (ht : Known (given ++ [t']) y t) : Known given x t ∨ IsNew x [place] t := by
  rcases ht with ht | ht
  · rcases List.mem_append.1 ht with ht | ht
    · exact .inl (.inl ht)
    · obtain rfl := List.mem_singleton.1 ht
      exact .inr ⟨0, place, rfl, hat, hindex⟩
  · rw [hseq] at ht
    exact .inl (.inr ht)

/-- The first state is given out. -/
theorem InPhase.issue (h : InPhase given .idle x) :
    InPhase (given ++ [⟨x.guards.next, start .iterator, none⟩]) .start
      { x with guards := x.guards.issue } := by
  have hgrants : Grants given x [.outer] (given ++ [⟨x.guards.next, start .iterator, none⟩])
      { x with guards := x.guards.issue } := by
    refine ⟨fun ha => ha, by simp [Guards.issue], fun id hlt hid => ?_,
      known_issue rfl ⟨rfl, rfl⟩ rfl⟩
    exact (Guards.isConsumed_repeat_issue (n := 1) hlt).symm.trans hid
  refine h.become hgrants trivial h.log h.frames ?_ ?_ (by simp)
  · intro t place ht hat hu _
    exact absurd (h.fits t place ht hat hu) Phase.not_fits_idle
  · intro place hmem
    obtain rfl := List.mem_singleton.1 hmem
    exact ⟨trivial, Phase.not_fits_idle⟩

end Nested

end LoopProtocol
