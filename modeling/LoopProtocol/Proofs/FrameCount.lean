import LoopProtocol.Proofs.ActLogic

/-!
# Counting iterations

The index of a frame is a 64-bit word that is advanced without a check. As long as a frame is
advanced only while its index is one of the loop's iterations, it counts like a natural number.
-/

namespace LoopProtocol

theorem Bound.toNat_count_pos (b : Bound) : 0 < b.count.toNat := by
  have h := b.count_ne_zero
  rw [Ne, ← UInt64.toNat_inj] at h
  simpa [Nat.pos_iff_ne_zero] using h

namespace Frame

theorem canEnter_iff {f : Frame} : f.canEnter = true ↔ f.current.toNat ≤ f.last.toNat := by
  simp [canEnter, UInt64.le_iff_toNat_le]

theorem hasNext_iff {f : Frame} : f.hasNext = true ↔ f.current.toNat < f.last.toNat := by
  simp [hasNext, UInt64.lt_iff_toNat_lt]

theorem hasNext_eq_false_iff {f : Frame} : f.hasNext = false ↔ f.last.toNat ≤ f.current.toNat := by
  rw [← Bool.not_eq_true, hasNext_iff, Nat.not_lt]

/-- A new frame is one short of the loop's bound, which is positive. -/
theorem toNat_last_start (id : LoopId) (b : Bound) :
    (start id b).last.toNat + 1 = b.count.toNat := by
  have h := b.toNat_count_pos
  have hle : (1 : UInt64) ≤ b.count := by rw [UInt64.le_iff_toNat_le]; exact h
  rw [start, UInt64.toNat_sub_of_le _ _ hle]
  exact Nat.sub_add_cancel h

/-- Any index but the largest word is advanced by one. -/
theorem toNat_current_advance_of_lt {f : Frame} (h : f.current.toNat + 1 < Bound.limit) :
    f.advance.current.toNat = f.current.toNat + 1 := by
  rw [advance, UInt64.toNat_add]
  exact Nat.mod_eq_of_lt h

/-- The index of an iteration does not wrap when it is advanced, whatever the 64-bit bound. -/
theorem toNat_current_advance {f : Frame} (h : f.current.toNat ≤ f.last.toNat)
    (hlimit : f.last.toNat + 1 < Bound.limit) :
    f.advance.current.toNat = f.current.toNat + 1 :=
  toNat_current_advance_of_lt (by omega)

/-- A frame with a next iteration can be advanced to it. -/
theorem canEnter_advance {f : Frame} (h : f.hasNext = true) : f.advance.canEnter = true := by
  have hlast : f.last.toNat < Bound.limit := f.last.toNat_lt
  rw [hasNext_iff] at h
  rw [canEnter_iff, last_advance, toNat_current_advance_of_lt (by omega)]
  exact h

end Frame

end LoopProtocol
