import LoopProtocol.Drive
import LoopProtocol.Proofs.ActLogic

/-!
# A program logic for drivers

`d.Ends s x Q E` says how the driver `d` ends, with the values `s` of its own and on the instance
`x`: with an answer as `Q` has it, or stopped by a fault as `E` has it. A driver that ends does not
stall, so the three ways to drive a loop come with rules that count the rounds.
-/

namespace LoopProtocol.Drive

variable {σ α β : Type} {s : σ} {x : Instance}

/-- Runs a driver: its answer, its own values after, and the instance after. -/
def on (d : Drive σ α) (s : σ) (x : Instance) : (Except Halt α × σ) × Instance :=
  (d.run.run s).run x

/-- How the driver ends, with values of its own on an instance. -/
def Ends (d : Drive σ α) (s : σ) (x : Instance) (Q : α → σ → Instance → Prop)
    (E : Fault → σ → Instance → Prop) : Prop :=
  match d.on s x with
  | ((.ok v, t), y) => Q v t y
  | ((.error (.fault e), t), y) => E e t y
  | ((.error .stalled, _), _) => False

theorem on_bind (d : Drive σ α) (f : α → Drive σ β) (s : σ) (x : Instance) :
    (d >>= f).on s x =
      match d.on s x with
      | ((.ok v, t), y) => (f v).on t y
      | ((.error e, t), y) => ((.error e, t), y) := by
  simp only [on, ExceptT.run_bind, StateT.run_bind]
  cases h : (d.run.run s).run x with
  | mk p y =>
    obtain ⟨r, t⟩ := p
    cases r <;> rfl

theorem on_act (a : Act α) (s : σ) (x : Instance) :
    (act a).on s x =
      match a.on x with
      | (.ok v, y) => ((.ok v, s), y)
      | (.error e, y) => ((.error (.fault e), s), y) := by
  unfold act on Act.on
  simp only [ExceptT.run_mk, StateT.run_bind, StateT.run_monadLift]
  cases h : a.run.run x with
  | mk r y => cases r <;> simp <;> rfl

theorem on_tryCatch (d : Drive σ α) (f : Halt → Drive σ α) (s : σ) (x : Instance) :
    (tryCatch d f).on s x =
      match d.on s x with
      | ((.ok v, t), y) => ((.ok v, t), y)
      | ((.error e, t), y) => (f e).on t y := by
  simp only [on, tryCatch, tryCatchThe, MonadExceptOf.tryCatch, ExceptT.tryCatch, ExceptT.run_mk,
    StateT.run_bind]
  cases h : (d.run.run s).run x with
  | mk p y =>
    obtain ⟨r, t⟩ := p
    have h' : StateT.run (StateT.run d s) x = ((r, t), y) := h
    rw [h']
    cases r <;> rfl

variable {Q Q' : α → σ → Instance → Prop} {R : β → σ → Instance → Prop}
  {E E' : Fault → σ → Instance → Prop}

theorem Ends.mono {d : Drive σ α} (h : d.Ends s x Q E) (hQ : ∀ v t y, Q v t y → Q' v t y)
    (hE : ∀ e t y, E e t y → E' e t y) : d.Ends s x Q' E' := by
  unfold Ends at h ⊢
  split at h
  · exact hQ _ _ _ h
  · exact hE _ _ _ h
  · exact h

/-- A driver that cannot fail succeeds. -/
theorem Ends.exists_ok {d : Drive σ α} (h : d.Ends s x Q fun _ _ _ => False) :
    ∃ v t y, d.on s x = ((.ok v, t), y) ∧ Q v t y := by
  unfold Ends at h
  split at h
  · next v t y heq => exact ⟨v, t, y, heq, h⟩
  · cases h
  · cases h

theorem ends_pure {v : α} (hQ : Q v s x) : (pure v : Drive σ α).Ends s x Q E := hQ

theorem Ends.bind {d : Drive σ α} {f : α → Drive σ β}
    (h : d.Ends s x (fun v t y => (f v).Ends t y R E) E) : (d >>= f).Ends s x R E := by
  unfold Ends at h ⊢
  rw [on_bind]
  cases hd : d.on s x with
  | mk p y =>
    obtain ⟨r, t⟩ := p
    cases r with
    | ok v => simpa [hd, Ends] using h
    | error e => cases e <;> rw [hd] at h <;> exact h

/-- One driver after another, with what holds in between. -/
theorem Ends.andThen {d : Drive σ α} {f : α → Drive σ β} (h : d.Ends s x Q E)
    (hf : ∀ v t y, Q v t y → (f v).Ends t y R E) : (d >>= f).Ends s x R E :=
  (h.mono hf fun _ _ _ he => he).bind

/-- An answer that is not looked at. -/
theorem Ends.discard {d : Drive σ α} {Q : Unit → σ → Instance → Prop}
    (h : d.Ends s x (fun _ => Q ()) E) : (discard d).Ends s x Q E := by
  have heq : (Functor.discard d : Drive σ Unit) = d >>= fun _ => pure () := map_eq_pure_bind _ d
  rw [heq]
  exact h.bind

theorem ends_act {a : Act α} (h : a.Ends x (fun v y => Q v s y) (fun e y => E e s y)) :
    (act a).Ends s x Q E := by
  unfold Ends
  unfold Act.Ends at h
  rw [on_act]
  cases ha : a.on x with
  | mk r y => cases r <;> simpa [ha] using h

theorem ends_get {Q : σ → σ → Instance → Prop} (hQ : Q s s x) :
    (get : Drive σ σ).Ends s x Q E := hQ

theorem ends_set {t : σ} {Q : PUnit → σ → Instance → Prop} (hQ : Q ⟨⟩ t x) :
    (set t : Drive σ PUnit).Ends s x Q E := hQ

theorem ends_hasMore {id : LoopId} {Q : Bool → σ → Instance → Prop} (hQ : Q (x.hasMore id) s x) :
    (hasMore id).Ends s x Q E :=
  ends_act (Act.ends_look hQ)

/-! ## Loops -/

/-- A polled loop, with an invariant for the number of rounds that are over: it has a round more as
long as there were fewer than `n`. -/
theorem ends_repeatWhile {id : LoopId} {body : α → Drive σ α} {n : Nat}
    (I : Nat → α → σ → Instance → Prop)
    (hmore : ∀ i ≤ n, ∀ a t y, I i a t y → y.hasMore id = decide (i < n))
    (hbody : ∀ i < n, ∀ a t y, I i a t y → (body a).Ends t y (I (i + 1)) E)
    (hQ : ∀ a t y, I n a t y → Q a t y) :
    ∀ (fuel : Nat) (i : Nat) (a : α) (t : σ) (y : Instance), i ≤ n → n - i < fuel → I i a t y →
      (repeatWhile (hasMore id) body fuel a).Ends t y Q E := by
  intro fuel
  induction fuel with
  | zero => intro i a t y _ hf _; omega
  | succ fuel ih =>
    intro i a t y hi hf h
    refine Ends.bind (ends_hasMore ?_)
    rw [hmore i hi a t y h]
    by_cases hlt : i < n
    · simp only [hlt, decide_true, if_true]
      exact (hbody i hlt a t y h).andThen fun a' t' y' h' =>
        ih (i + 1) a' t' y' hlt (by omega) h'
    · obtain rfl : i = n := by omega
      simp only [hlt, decide_false, Bool.false_eq_true, if_false]
      exact ends_pure (hQ a t y h)

/-- The drain of a sequence that has one body at a time, and is closed after `n` of them. -/
theorem ends_drain {q : SequenceId} {body : Token → Drive σ Unit} {n : Nat}
    {Q : Unit → σ → Instance → Prop} (I : Nat → σ → Instance → Prop)
    (hbody : ∀ i < n, ∀ t y, I i t y → ∃ entry, (y.handOff q).queue = [entry] ∧
      (body entry).Ends t (y.setHandOff q { y.handOff q with queue := [] })
        (fun _ => I (i + 1)) E)
    (hend : ∀ t y, I n t y → (y.handOff q).queue = [] ∧ (y.handOff q).isClosed = true ∧ Q () t y) :
    ∀ (fuel : Nat) (i : Nat) (t : σ) (y : Instance), i ≤ n → n - i < fuel → I i t y →
      (drain q body fuel).Ends t y Q E := by
  intro fuel
  induction fuel with
  | zero => intro i t y _ hf _; omega
  | succ fuel ih =>
    intro i t y hi hf h
    refine Ends.bind (ends_act ?_)
    by_cases hlt : i < n
    · obtain ⟨entry, hqueue, hrun⟩ := hbody i hlt t y h
      refine Act.ends_take? (by simp [hqueue]) (fun entry' he => ?_) (by simp [hqueue])
      obtain rfl : entry = entry' := by simpa [hqueue] using he
      exact hrun.andThen fun _ t' y' h' => ih (i + 1) t' y' hlt (by omega) h'
    · obtain rfl : i = n := by omega
      obtain ⟨hqueue, hclosed, hQ⟩ := hend t y h
      refine Act.ends_take? (fun _ => ?_) (by simp [hqueue]) (by simp [hqueue])
      refine Ends.bind (ends_act (Act.ends_look ?_))
      simp only [hclosed, if_true]
      exact ends_pure hQ

/-- The body of a callback loop. Its fault aborts the instance, which changes nothing when the
instance is aborted already. -/
theorem ends_callBody {body : Token → Drive σ Token} {entry : Token}
    {Q : Token → σ → Instance → Prop} (h : (body entry).Ends s x Q E)
    (hE : ∀ e t y, E e t y → y.aborted = true) : (callBody body entry).Ends s x Q E := by
  unfold callBody Ends
  unfold Ends at h
  rw [on_tryCatch]
  cases hd : (body entry).on s x with
  | mk p y =>
    obtain ⟨r, t⟩ := p
    rw [hd] at h
    cases r with
    | ok v => exact h
    | error e =>
      cases e with
      | fault e =>
        have hfail : y.fail e = y := Instance.fail_of_aborted e (hE e t y h)
        simpa [on_act, Act.on_abort_fail, hfail] using h
      | stalled => exact h

/-- A callback loop that calls its body `n` times. -/
theorem ends_foreachFrom {shape : LoopShape} {body : Token → Drive σ Token} {n : Nat}
    {Q : Token → σ → Instance → Prop} (I : Nat → Token → σ → Instance → Prop)
    (hbody : ∀ i < n, ∀ entry t y, I i entry t y →
      (callBody body entry).Ends t y
        (fun tail t' z => tail.consume.Ends z
          (fun _ z => (Callback.advance shape).Ends z
            (fun turn z =>
              (∃ entry', turn = .body entry' ∧ i + 1 < n ∧ I (i + 1) entry' t' z) ∨
              (∃ after, turn = .finished after ∧ Q after t' z))
            fun e z => E e t' z)
          fun e z => E e t' z) E) :
    ∀ (fuel : Nat) (i : Nat) (entry : Token) (t : σ) (y : Instance), i < n → n - i ≤ fuel →
      I i entry t y → (foreachFrom shape body fuel (.body entry)).Ends t y Q E := by
  intro fuel
  induction fuel with
  | zero => intro i entry t y hi hf _; omega
  | succ fuel ih =>
    intro i entry t y hi hf h
    refine (hbody i hi entry t y h).andThen fun tail t' z hz => ?_
    refine Ends.bind (ends_act (hz.mono (fun _ z hz => ?_) fun _ _ he => he))
    refine Ends.bind (ends_act (hz.mono (fun turn z hz => ?_) fun _ _ he => he))
    rcases hz with ⟨entry', rfl, hlt, h'⟩ | ⟨after, rfl, hQ⟩
    · exact ih (i + 1) entry' t' z hlt (by omega) h'
    · unfold foreachFrom
      exact ends_pure hQ

end LoopProtocol.Drive
