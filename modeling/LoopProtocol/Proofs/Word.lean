import LoopProtocol.Event
import LoopProtocol.Bound
import LoopProtocol.Site

/-!
# Words of events

The events of a loop that runs undisturbed: its start with its bound, each iteration followed by
the events of the body in that iteration, and its end.
-/

namespace LoopProtocol.Event

variable (id : LoopId) (log : Nat → List Event)

/-- The events of the first `n` iterations, of which the one with index `i` has the body `log i`. -/
def turns (n : Nat) : List Event :=
  (List.range n).flatMap fun i => .iteration id (UInt64.ofNat i) :: log i

@[simp] theorem turns_zero : turns id log 0 = [] := rfl

theorem turns_succ (n : Nat) :
    turns id log (n + 1) = turns id log n ++ .iteration id (UInt64.ofNat n) :: log n := by
  simp [turns, List.range_succ]

/-- The events of a whole loop. -/
def loop (count : UInt64) : List Event :=
  .activated id count :: turns id log count.toNat ++ [.exited id]

variable {id log}

/-- The events of an iteration depend only on the bodies up to it. -/
theorem turns_congr {log' : Nat → List Event} {n : Nat} (h : ∀ i < n, log i = log' i) :
    turns id log n = turns id log' n := by
  induction n with
  | zero => rfl
  | succ n ih =>
    rw [turns_succ, turns_succ, ih fun i hi => h i (Nat.lt_succ_of_lt hi), h n (Nat.lt_succ_self n)]

theorem turns_prefix_turns {m n : Nat} (h : m ≤ n) : turns id log m <+: turns id log n := by
  induction h with
  | refl => exact List.prefix_rfl
  | step _ ih =>
    rw [turns_succ]
    exact ih.trans (List.prefix_append _ _)

/-- Some iterations, and the next one as far as its body has come. -/
theorem turns_append_prefix {i n : Nat} {w : List Event} (hi : i < n) (hw : w <+: log i) :
    turns id log i ++ .iteration id (UInt64.ofNat i) :: w <+: turns id log n := by
  refine List.IsPrefix.trans ?_ (turns_prefix_turns (Nat.succ_le_of_lt hi))
  rw [turns_succ, List.prefix_append_right_inj, List.cons_prefix_cons]
  exact ⟨rfl, hw⟩

theorem activated_turns_prefix_loop {count : UInt64} {w : List Event}
    (hw : w <+: turns id log count.toNat) : .activated id count :: w <+: loop id log count := by
  unfold loop
  rw [List.cons_append, List.cons_prefix_cons]
  exact ⟨rfl, hw.trans (List.prefix_append _ _)⟩

theorem terminated_not_mem_loop (h : ∀ i, .terminated ∉ log i) (count : UInt64) :
    .terminated ∉ loop id log count := by
  simp [loop, turns, h]

end LoopProtocol.Event

namespace LoopProtocol.Nested

/-- The events of an outer body, with the number of iterations of its inner loop. -/
def bodyWord (count : UInt64) : List Event :=
  Event.loop innerId (fun _ => [.sent "foo"]) count ++ [.sent "bar"]

/-- The events of a complete run, with the number of iterations of the outer loop and, for each of
these, of the inner loop. -/
def word (outer : UInt64) (inner : Nat → UInt64) : List Event :=
  Event.loop outerId (fun i => bodyWord (inner i)) outer ++ [.terminated]

/-- Only a complete run has the end among its events. -/
theorem eq_word_of_terminated {outer : UInt64} {inner : Nat → UInt64} {w : List Event}
    (h : w <+: word outer inner) (hend : .terminated ∈ w) : w = word outer inner := by
  have hbody : ∀ i, .terminated ∉ bodyWord (inner i) := fun i => by
    have hinner : .terminated ∉ Event.loop innerId (fun _ => [.sent "foo"]) (inner i) :=
      Event.terminated_not_mem_loop (by simp) (inner i)
    simpa [bodyWord] using hinner
  rcases List.prefix_concat_iff.1 h with heq | hstart
  · exact heq
  · exact absurd (hstart.subset hend) (Event.terminated_not_mem_loop hbody outer)

end LoopProtocol.Nested
