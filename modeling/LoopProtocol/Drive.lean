import LoopProtocol.Transition.Polling
import LoopProtocol.Transition.Iterator
import LoopProtocol.Transition.Callback

/-!
# Drivers

A driver runs a protocol on one instance: it holds states, decides which transition comes next and
may keep values of its own meanwhile. This module has the three ways to drive a loop: `repeatWhile`
around a polled head, `drain` for a sequence of bodies, and `foreach` with the body as a function.

A loop can run forever only if its driver changes the loop's own frame from within, so each of
the three takes a number of rounds after which it gives up, and `Bound.limit` is more than any
honest loop needs.
-/

namespace LoopProtocol

/-- Why a driver stops before its end. -/
inductive Halt where
  | fault (fault : Fault)
  /-- It would wait or run forever. -/
  | stalled
deriving DecidableEq

/-- A driver with values of its own of type `σ`. -/
abbrev Drive (σ : Type) := ExceptT Halt (StateT σ (StateM Instance))

namespace Drive

variable {σ α : Type}

/-- Acts on the instance; a fault of the action stops the driver. -/
def act (a : Act α) : Drive σ α :=
  ExceptT.mk do
    match ← (liftM a.run : StateT σ (StateM Instance) (Except Fault α)) with
    | .ok v => pure (.ok v)
    | .error fault => pure (.error (.fault fault))

/-- Whether the head of a loop may enter its body. -/
def hasMore (id : LoopId) : Drive σ Bool := act (Act.look (·.hasMore id))

/-- Runs `body` on the state again and again while `more` holds. -/
def repeatWhile (more : Drive σ Bool) (body : α → Drive σ α) : Nat → α → Drive σ α
  | 0, _ => throw .stalled
  | n + 1, a => do
    if ← more then repeatWhile more body n (← body a) else pure a

/-- Runs `body` on each state that the sequence delivers, until it is closed. -/
def drain (s : SequenceId) (body : Token → Drive σ Unit) : Nat → Drive σ Unit
  | 0 => throw .stalled
  | n + 1 => do
    match ← act (Iterator.take? s) with
    | some token =>
      body token
      drain s body n
    | none =>
      let isClosed ← act (Act.look fun x => (x.handOff s).isClosed)
      if isClosed then pure () else throw .stalled

/-- Runs the body of a callback loop; a fault in it aborts the instance. -/
def callBody (body : Token → Drive σ Token) (entry : Token) : Drive σ Token :=
  tryCatch (body entry) fun
    | .fault fault => act (Act.abort fault)
    | .stalled => throw .stalled

/-- Goes on with a callback loop. -/
def foreachFrom (shape : LoopShape) (body : Token → Drive σ Token) :
    Nat → Callback.Turn → Drive σ Token
  | _, .finished after => pure after
  | 0, .body _ => throw .stalled
  | n + 1, .body entry => do
    let tail ← callBody body entry
    act tail.consume
    foreachFrom shape body n (← act (Callback.advance shape))

/-- Runs a callback loop: `body` leads from the first state of an iteration to its last, and the
answer is the state after the loop. -/
def foreach (shape : LoopShape) (head : Token) (body : Token → Drive σ Token) :
    Drive σ Token := do
  foreachFrom shape body Bound.limit (← act (Callback.begin shape head))

end Drive

end LoopProtocol
