/-!
# Hand-offs

A hand-off passes values from producers to one consumer through a single slot. A producer that
finds the slot taken waits until the consumer has made room. The producers' side can be closed,
after which nothing more is accepted but what was accepted can still be taken; and the consumer can
leave, after which nothing arrives any more.
-/

namespace LoopProtocol

/-- A one-slot passage for values. The first of the queue is in the slot; those behind it belong to
producers that wait, in the order in which they came. -/
structure HandOff (α : Type) where
  queue : List α
  closed : Bool
  abandoned : Bool
deriving DecidableEq

/-- What becomes of an offered value. -/
inductive Offer where
  /-- It is in the slot. -/
  | delivered
  /-- Its producer waits for the slot. -/
  | waiting
  /-- It was not accepted. -/
  | refused
deriving DecidableEq

namespace HandOff

variable {α : Type}

/-- A passage that nothing has gone through yet. -/
def fresh : HandOff α := ⟨[], false, false⟩

/-- A passage that nothing can go through any more. -/
def gone : HandOff α := ⟨[], true, true⟩

/-- Whether a value offered now would be refused. -/
def isClosed (h : HandOff α) : Bool := h.closed || h.abandoned

/-- The values whose producers wait. -/
def waiting (h : HandOff α) : List α := h.queue.tail

/-- Offers a value to the consumer. -/
def offer (h : HandOff α) (x : α) : Offer × HandOff α :=
  if h.isClosed then (.refused, h)
  else
    (if h.queue.isEmpty then .delivered else .waiting, { h with queue := h.queue ++ [x] })

/-- Takes the value in the slot; the first producer that waits, if any, then fills the slot. -/
def take? (h : HandOff α) : Option (α × HandOff α) :=
  match h.queue with
  | x :: rest => some (x, { h with queue := rest })
  | [] => none

/-- Closes the producers' side. -/
def close (h : HandOff α) : HandOff α := { h with closed := true }

/-- The consumer leaves, and what was on its way to it is lost. -/
def abandon (h : HandOff α) : HandOff α := { h with queue := [], abandoned := true }

/-- A passage that is not closed takes every value, behind those that came before. -/
theorem queue_offer {h : HandOff α} (hopen : h.isClosed = false) (x : α) :
    (h.offer x).2.queue = h.queue ++ [x] := by
  simp [offer, hopen]

theorem offer_of_isClosed {h : HandOff α} (hclosed : h.isClosed = true) (x : α) :
    h.offer x = (.refused, h) := by
  simp [offer, hclosed]

/-- What is taken is the oldest value. -/
theorem take?_eq_some_iff {h h' : HandOff α} {x : α} :
    h.take? = some (x, h') ↔ h.queue = x :: h'.queue ∧ h' = { h with queue := h'.queue } := by
  obtain ⟨q, c, a⟩ := h
  obtain ⟨q', c', a'⟩ := h'
  cases q with
  | nil => simp [take?]
  | cons y rest =>
    simp only [take?, Option.some.injEq, Prod.mk.injEq, HandOff.mk.injEq, List.cons.injEq]
    grind

end HandOff

end LoopProtocol
