import LoopProtocol.Fault

/-!
# Usage guards

A protocol state may be used once, whatever number of handles there are to it. The handles of one
state share a guard, which lets the first user past and nobody after.
-/

namespace LoopProtocol

/-- The position of a guard among the guards of an instance. -/
structure GuardId where
  index : Nat
deriving DecidableEq

/-- For every guard that was issued, whether it has let somebody past. -/
structure Guards where
  spent : Array Bool

namespace Guards

/-- No guard. -/
def empty : Guards := ⟨#[]⟩

/-- The guard that is issued next. -/
def next (g : Guards) : GuardId := ⟨g.spent.size⟩

/-- Issues a guard. -/
def issue (g : Guards) : Guards := ⟨g.spent.push false⟩

/-- Whether a guard lets nobody past any more. One that was never issued lets nobody past. -/
def isConsumed (g : Guards) (id : GuardId) : Bool := g.spent.getD id.index true

/-- A guard lets nobody past from now on. -/
def spend (g : Guards) (id : GuardId) : Guards := ⟨g.spent.setIfInBounds id.index true⟩

/-- Passes a guard that protects the named point, if it has let nobody past yet. -/
def consume (g : Guards) (id : GuardId) (point : String) : Except Fault Guards :=
  if g.isConsumed id then .error (.linearityViolation point) else .ok (g.spend id)

theorem isConsumed_next (g : Guards) : g.isConsumed g.next = true := by
  simp [isConsumed, next]

theorem isConsumed_issue_next (g : Guards) : g.issue.isConsumed g.next = false := by
  simp [isConsumed, issue, next]

theorem isConsumed_issue_of_ne {g : Guards} {id : GuardId} (h : id ≠ g.next) :
    g.issue.isConsumed id = g.isConsumed id := by
  have hne : id.index ≠ g.spent.size := fun e => h (by cases id; simp_all [next])
  simp only [isConsumed, issue, Array.getD_eq_getD_getElem?, Array.getElem?_push]
  simp [hne]

theorem isConsumed_spend (g : Guards) (id id' : GuardId) :
    (g.spend id).isConsumed id' = (decide (id = id') || g.isConsumed id') := by
  cases id; cases id'
  simp only [isConsumed, spend, Array.getD_eq_getD_getElem?, Array.getElem?_setIfInBounds]
  split <;> rename_i h
  · subst h
    split <;> simp_all
  · simp [h]

end Guards

end LoopProtocol
