import LoopProtocol.Proofs.ActLogic

/-!
# What a part of a run leaves alone

A part of a run works with one state that it was given and with the states and sequences that come
up on the way. `x.Spares g y` says that all else that `x` had is the same in `y`, and
`x.Yields t t' y` that from the state `t` the run has come to the state `t'`.
-/

namespace LoopProtocol

/-- Guards and sequences in which all is as before, but for the guard `g` and what is new. -/
structure Untouched (g : GuardId) (guards : Guards) (sequences : Array (HandOff Token))
    (guards' : Guards) (sequences' : Array (HandOff Token)) : Prop where
  guards_le : guards.spent.size ≤ guards'.spent.size
  sequences_le : sequences.size ≤ sequences'.size
  guard : ∀ k < guards.spent.size, k ≠ g.index → guards'.spent[k]? = guards.spent[k]?
  sequence : ∀ k < sequences.size, sequences'[k]? = sequences[k]?

theorem GuardId.index_ne {g g' : GuardId} (h : g ≠ g') : g.index ≠ g'.index := by
  cases g
  cases g'
  simpa using h

/-- A state that was not used was issued. -/
theorem Token.index_lt {t : Token} {x : Instance} (h : t.isConsumed x = false) :
    t.guard.index < x.guards.spent.size := by
  refine Nat.lt_of_not_le fun hle => ?_
  simp [Token.isConsumed, Guards.isConsumed, hle] at h

/-- Another state that is issued leaves it unused. -/
theorem Token.isConsumed_issue {t : Token} {x : Instance} (h : t.isConsumed x = false) :
    t.guard ≠ x.guards.next ∧ x.guards.issue.isConsumed t.guard = false := by
  have hne : t.guard ≠ x.guards.next := fun e => by
    have hlt := Token.index_lt h
    rw [e] at hlt
    exact Nat.lt_irrefl _ hlt
  exact ⟨hne, (Guards.isConsumed_issue_of_ne hne).trans h⟩

namespace Instance

/-- Of what `x` had, only the guard `g` may be different in `y`. -/
abbrev Spares (x : Instance) (g : GuardId) (y : Instance) : Prop :=
  Untouched g x.guards x.sequences y.guards y.sequences

namespace Spares

variable {x y z : Instance} {g g' : GuardId} {t : Token}

theorem refl (x : Instance) (g : GuardId) : x.Spares g x :=
  ⟨Nat.le_refl _, Nat.le_refl _, fun _ _ _ => rfl, fun _ _ => rfl⟩

/-- One part after another, where the second works on the same guard or on a new one. -/
theorem trans (h : x.Spares g y) (h' : y.Spares g' z)
    (hg : g' = g ∨ x.guards.spent.size ≤ g'.index) : x.Spares g z where
  guards_le := Nat.le_trans h.guards_le h'.guards_le
  sequences_le := Nat.le_trans h.sequences_le h'.sequences_le
  guard k hk hne := by
    have hne' : k ≠ g'.index := by
      rcases hg with rfl | hg
      · exact hne
      · omega
    exact (h'.guard k (Nat.lt_of_lt_of_le hk h.guards_le) hne').trans (h.guard k hk hne)
  sequence k hk :=
    (h'.sequence k (Nat.lt_of_lt_of_le hk h.sequences_le)).trans (h.sequence k hk)

theorem spend (x : Instance) (t : Token) : x.Spares t.guard (x.spend t) where
  guards_le := by simp [Instance.spend, Guards.spend]
  sequences_le := Nat.le_refl _
  guard k _ hne := by
    simp only [Instance.spend, Guards.spend]
    exact Array.getElem?_setIfInBounds_ne (Ne.symm hne)
  sequence _ _ := rfl

theorem issue (h : x.Spares g y) : Untouched g x.guards x.sequences y.guards.issue y.sequences where
  guards_le := by
    have := h.guards_le
    simp only [Guards.issue, Array.size_push]
    omega
  sequences_le := h.sequences_le
  guard k hk hne := by
    have := h.guards_le
    simp only [Guards.issue]
    rw [Array.getElem?_push_lt (by omega), ← h.guard k hk hne, Array.getElem?_eq_getElem]
  sequence := h.sequence

theorem openSequence (h : x.Spares g y) (p : HandOff Token) :
    Untouched g x.guards x.sequences y.guards (y.sequences.push p) where
  guards_le := h.guards_le
  sequences_le := by
    have := h.sequences_le
    simp only [Array.size_push]
    omega
  guard := h.guard
  sequence k hk := by
    have := h.sequences_le
    rw [Array.getElem?_push_lt (by omega), ← h.sequence k hk, Array.getElem?_eq_getElem]

/-- A sequence that was opened since can change. -/
theorem setHandOff (h : x.Spares g y) {s : SequenceId} (hs : x.sequences.size ≤ s.index)
    (p : HandOff Token) : x.Spares g (y.setHandOff s p) where
  guards_le := h.guards_le
  sequences_le := by simpa [Instance.setHandOff] using h.sequences_le
  guard := h.guard
  sequence k hk := by
    simp only [Instance.setHandOff]
    rw [Array.getElem?_setIfInBounds_ne (by omega)]
    exact h.sequence k hk

theorem isConsumed (h : x.Spares g y) (ht : t.isConsumed x = false) (hg : t.guard ≠ g) :
    t.isConsumed y = false := by
  have hlt := Token.index_lt ht
  have hsame := h.guard _ hlt (GuardId.index_ne hg)
  simp only [Token.isConsumed, Guards.isConsumed, Array.getD_eq_getD_getElem?] at ht ⊢
  rw [hsame, ht]

theorem handOff (h : x.Spares g y) {s : SequenceId} (hs : s.index < x.sequences.size) :
    y.handOff s = x.handOff s := by
  simp only [Instance.handOff, Array.getD_eq_getD_getElem?]
  rw [h.sequence _ hs]

end Spares

/-- With the state `t` used, or kept, the run has come from `x` to `y` and holds the unused state
`t'`. -/
structure Yields (x : Instance) (t t' : Token) (y : Instance) : Prop where
  unused : t'.isConsumed y = false
  origin : t'.guard = t.guard ∨ x.guards.spent.size ≤ t'.guard.index
  spares : x.Spares t.guard y

namespace Yields

variable {x y z : Instance} {t t' t'' : Token}

theorem trans (h : x.Yields t t' y) (h' : y.Yields t' t'' z) : x.Yields t t'' z where
  unused := h'.unused
  origin := by
    rcases h'.origin with e | hle
    · rw [e]
      exact h.origin
    · exact .inr (Nat.le_trans h.spares.guards_le hle)
  spares := h.spares.trans h'.spares h.origin

/-- Another state of the run is still unused. -/
theorem other (h : x.Yields t t' y) {u : Token} (hu : u.isConsumed x = false)
    (hne : u.guard ≠ t.guard) : u.isConsumed y = false ∧ u.guard ≠ t'.guard := by
  refine ⟨h.spares.isConsumed hu hne, fun e => ?_⟩
  rcases h.origin with e' | hle
  · exact hne (e.trans e')
  · rw [← e] at hle
    exact Nat.not_lt.2 hle (Token.index_lt hu)

/-- The state that is issued after all else. -/
theorem of_issue (h : x.Spares t.guard y) (site : Site) (feed : Option SequenceId)
    (hguards : z.guards = y.guards.issue) (hsequences : z.sequences = y.sequences) :
    x.Yields t ⟨y.guards.next, site, feed⟩ z where
  unused := by
    show z.guards.isConsumed y.guards.next = false
    rw [hguards]
    exact Guards.isConsumed_issue_next y.guards
  origin := .inr h.guards_le
  spares := by
    show Untouched _ _ _ z.guards z.sequences
    rw [hguards, hsequences]
    exact h.issue

end Yields

/-- From `x` a run that has not failed has come to `y`, with these frames on the stack and these
events more. -/
structure Reaches (x : Instance) (frames : List Frame) (w : List Event) (y : Instance) : Prop where
  running : y.aborted = false
  frames : y.stack.frames = frames
  events : y.events.toList = x.events.toList ++ w

namespace Reaches

variable {x y z : Instance} {frames frames' : List Frame} {w w' : List Event}

theorem refl (h : x.aborted = false) : x.Reaches x.stack.frames [] x := ⟨h, rfl, by simp⟩

theorem trans (h : x.Reaches frames w y) (h' : y.Reaches frames' w' z) :
    x.Reaches frames' (w ++ w') z :=
  ⟨h'.running, h'.frames, by rw [h'.events, h.events, List.append_assoc]⟩

theorem stack (h : x.Reaches frames w y) : y.stack = ⟨frames⟩ :=
  FrameStack.eq_of_frames h.frames

end Reaches

end Instance

end LoopProtocol
