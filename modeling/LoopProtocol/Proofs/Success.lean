import LoopProtocol.Proofs.FrameCount

/-!
# When the actions of a loop succeed

On an instance that is not aborted, with an unused state and the loop where it belongs, the actions
of a loop cannot fail. The frame of a loop in its iteration `i` is `Frame.iterating id b i`, and
whether it has a next iteration is a comparison of natural numbers.
-/

namespace LoopProtocol

namespace Frame

variable {id : LoopId} {b : Bound} {i : Nat}

/-- The frame of a loop with a bound in its iteration of the given index. -/
def iterating (id : LoopId) (b : Bound) (i : Nat) : Frame := ⟨id, UInt64.ofNat i, b.count - 1⟩

@[simp] theorem id_iterating : (iterating id b i).id = id := rfl

theorem iterating_zero : iterating id b 0 = start id b := rfl

@[simp] theorem advance_iterating : (iterating id b i).advance = iterating id b (i + 1) := by
  simp [iterating, advance]

theorem toNat_current_iterating (h : i ≤ b.count.toNat) :
    (iterating id b i).current.toNat = i := by
  have hlt := b.count.toNat_lt
  simp only [iterating, UInt64.toNat_ofNat']
  exact Nat.mod_eq_of_lt (by omega)

theorem canEnter_iterating (h : i ≤ b.count.toNat) :
    (iterating id b i).canEnter = decide (i < b.count.toNat) := by
  have hlast := toNat_last_start id b
  rw [Bool.eq_iff_iff, canEnter_iff, toNat_current_iterating h, decide_eq_true_eq]
  show i ≤ (start id b).last.toNat ↔ _
  omega

theorem hasNext_iterating (h : i ≤ b.count.toNat) :
    (iterating id b i).hasNext = decide (i + 1 < b.count.toNat) := by
  have hlast := toNat_last_start id b
  rw [Bool.eq_iff_iff, hasNext_iff, toNat_current_iterating h, decide_eq_true_eq]
  show i < (start id b).last.toNat ↔ _
  omega

end Frame

namespace Act

variable {x : Instance} {id : LoopId} {param : String} {E : Fault → Instance → Prop}

theorem ends_consume_unused {t : Token} {Q : Unit → Instance → Prop} (h : t.isConsumed x = false)
    (hQ : Q () (x.spend t)) : t.consume.Ends x Q E :=
  ends_of_ok ((on_consume t x).trans (if_neg (by simp [h]))) hQ

theorem ends_activate_new {b : Bound} {Q : Frame → Instance → Prop} (ha : x.aborted = false)
    (hc : x.stack.contains id = false) (hb : x.bounds.bound param = .ok b)
    (hQ : Q (Frame.iterating id b 0) { x with
      stack := x.stack.push id b
      lines := x.lines.push (.activated id b.count)
      events := x.events.push (.activated id b.count) }) :
    (activate id param).Ends x Q E := by
  refine ends_of_ok ?_ hQ
  simp [on_activate, ha, FrameStack.onTop?_of_contains_eq_false hc, hc, hb, Frame.iterating_zero]

/-- A loop whose parameter holds no positive bound does not start, and the instance is aborted. -/
theorem ends_activate_unbounded {e : Fault} {Q : Frame → Instance → Prop} (ha : x.aborted = false)
    (hc : x.stack.contains id = false) (hb : x.bounds.bound param = .error e)
    (hE : E e (x.fail e)) : (activate id param).Ends x Q E := by
  refine ends_of_error ?_ hE
  simp [on_activate, ha, FrameStack.onTop?_of_contains_eq_false hc, hc, hb]

variable {top : Frame} {below : List Frame}

theorem ends_activate_top {Q : Frame → Instance → Prop} (ha : x.aborted = false)
    (hs : x.stack.frames = top :: below)
    (hid : top.id = id) (hQ : Q top.advance { x with
      stack := ⟨top.advance :: below⟩
      lines := x.lines.push (.reentered top.advance) }) :
    (activate id param).Ends x Q E := by
  subst hid
  refine ends_of_ok ?_ hQ
  simp [on_activate, ha, FrameStack.onTop?_cons hs]

theorem ends_complete_top {Q : Frame → Instance → Prop} (ha : x.aborted = false)
    (hs : x.stack.frames = top :: below)
    (hid : top.id = id) (hQ : Q top.advance { x with
      stack := ⟨top.advance :: below⟩
      lines := x.lines.push (.completed top.advance) }) :
    (complete id).Ends x Q E := by
  subst hid
  refine ends_of_ok ?_ hQ
  simp [on_complete, ha, FrameStack.onTop?_cons hs]

theorem ends_exit_top {Q : Unit → Instance → Prop} (ha : x.aborted = false)
    (hs : x.stack.frames = top :: below) (hid : top.id = id) (hn : top.hasNext = false)
    (hQ : Q () { x with
      stack := ⟨below⟩
      lines := x.lines.push (.exited top)
      events := x.events.push (.exited id) }) :
    (exit id).Ends x Q E := by
  subst hid
  refine ends_of_ok ?_ hQ
  simp [on_exit, ha, FrameStack.onTop?_cons hs, hn]

theorem ends_ensureClosed_ok {Q : Unit → Instance → Prop} (ha : x.aborted = false)
    (hc : x.stack.contains id = false) (hQ : Q () x) : (ensureClosed id).Ends x Q E := by
  refine ends_of_ok ?_ hQ
  have hfind : x.stack.find? id = none := by simpa [FrameStack.contains] using hc
  simp [on_ensureClosed, ha, hfind]

theorem ends_terminate_ok {Q : Unit → Instance → Prop} (ha : x.aborted = false)
    (hs : x.stack.frames = [])
    (hQ : Q () { x with
      lines := x.lines.push .terminated
      events := x.events.push .terminated }) : terminate.Ends x Q E := by
  refine ends_of_ok ?_ hQ
  simp [on_terminate, ha, FrameStack.top?, hs]

/-- An empty slot takes the body at once. -/
theorem ends_handOver_empty {s : SequenceId} {body : Token}
    {Q : Iterator.Progress → Instance → Prop} (hs : x.handOff s = .fresh)
    (hQ : Q .delivered { x.setHandOff s ⟨[body], false, false⟩ with
      lines := x.lines.push (.handedOver s.loop) }) :
    (Iterator.handOver s body).Ends x Q E := by
  refine ends_of_ok ?_ hQ
  simp [on_handOver, hs, HandOff.fresh, HandOff.isClosed, HandOff.offer]

end Act

end LoopProtocol
