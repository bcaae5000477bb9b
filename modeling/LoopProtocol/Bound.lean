/-!
# Loop bounds

A bound is the number of times a loop runs its body: a positive 64-bit count.
-/

namespace LoopProtocol

/-- A positive number of iterations. -/
structure Bound where
  count : UInt64
  count_ne_zero : count ≠ 0
deriving DecidableEq

namespace Bound

/-- What every bound stays below. -/
def limit : Nat := UInt64.size

/-- The bound of a raw count; a count of zero is none. -/
def ofCount? (count : UInt64) : Option Bound :=
  if h : count = 0 then none else some ⟨count, h⟩

/-- Bounds are ordered by their counts. -/
instance : Ord Bound where
  compare a b := compare a.count b.count

theorem count_lt_limit (b : Bound) : b.count.toNat < limit := b.count.toNat_lt

theorem ofCount?_zero : ofCount? 0 = none := rfl

@[simp] theorem ofCount?_eq_some_iff {count : UInt64} {b : Bound} :
    ofCount? count = some b ↔ b.count = count := by
  obtain ⟨c, hc⟩ := b
  simp only [ofCount?]
  split
  · simp_all
  · simp [eq_comm]

theorem ofCount?_count (b : Bound) : ofCount? b.count = some b := by simp

end Bound

end LoopProtocol
