import LoopProtocol.Proofs.Dealing

/-!
# Steps of one kind

Most deeds of a session are beside the point of a given property: states are issued, parameters are
set, bodies are taken from sequences. `World.Steps kind` says that one world came from another by
deeds of a kind, and a relation between instances that all calls of the kind keep holds between the
instances of the two worlds.
-/

namespace LoopProtocol

/-- A deed that uses no state. -/
def Deed.IsIdle : Deed → Prop
  | .call _ c => c.uses = none
  | .clear _ => True

/-- A deed that takes a body from a sequence, or gives a sequence up. -/
def Deed.Drains : Deed → Prop
  | .call _ (.take _) | .call _ (.abandon _) => True
  | _ => False

/-- A deed that gives a sequence up. -/
def Deed.Releases : Deed → Prop
  | .call _ (.abandon _) => True
  | _ => False

theorem Deed.Releases.drains {e : Deed} (h : e.Releases) : e.Drains := by
  cases e with
  | clear r => exact h.elim
  | call i c => cases c <;> trivial

theorem Deed.drains_of_take {e : Deed} {i : InstanceId} {q : SequenceId}
    (h : e = .call i (.take q) ∨ e.Releases) : e.Drains := by
  rcases h with rfl | h
  · trivial
  · exact h.drains

theorem Deed.Drains.isIdle {e : Deed} (h : e.Drains) : e.IsIdle := by
  cases e with
  | clear r => trivial
  | call i c => cases c <;> first | rfl | exact h.elim

namespace World

/-- Does a deed. -/
def perform (w : World) : Deed → World
  | .call i c => (w.on i c.act).2
  | .clear r => { w with recorders := w.recorders.clear r }

/-- Deeds of one kind, one after another. -/
inductive Steps (kind : Deed → Prop) : World → World → Prop where
  | refl (w : World) : Steps kind w w
  | cons {w w' : World} {e : Deed} : kind e → Steps kind (w.perform e) w' → Steps kind w w'

namespace Steps

variable {kind kind' : Deed → Prop} {w w' w'' : World} {i : InstanceId} {x : Instance}

theorem trans (h : w.Steps kind w') (h' : w'.Steps kind w'') : w.Steps kind w'' := by
  induction h with
  | refl => exact h'
  | cons he _ ih => exact .cons he (ih h')

theorem mono (h : w.Steps kind w') (hkind : ∀ e, kind e → kind' e) : w.Steps kind' w' := by
  induction h with
  | refl w => exact .refl w
  | cons he _ ih => exact .cons (hkind _ he) ih

/-- **What every call of the kind keeps, all steps keep.** -/
theorem related {R : Instance → Instance → Prop} (hrefl : ∀ x, R x x)
    (htrans : ∀ {x y z}, R x y → R y z → R x z)
    (hcall : ∀ c x, kind (.call i c) → R x (c.act.on x).2) (h : w.Steps kind w')
    (hx : w.instance? i = some x) : ∃ y, w'.instance? i = some y ∧ R x y := by
  induction h generalizing x with
  | refl => exact ⟨x, hx, hrefl x⟩
  | @cons w w' e he _ ih =>
    cases e with
    | clear r => exact ih hx
    | call j c =>
      by_cases hij : i = j
      · subst hij
        obtain ⟨y, hy, hxy⟩ := ih (instance?_on_self hx c.act)
        exact ⟨y, hy, htrans (hcall c x he) hxy⟩
      · exact ih ((instance?_on_of_ne hij c.act).trans hx)

end Steps

end World

/-! ## The steps of a session -/

namespace SessionM

variable {α β : Type} {kind : Deed → Prop}

/-- All that the steps do to the world are deeds of one kind. -/
def Only (kind : Deed → Prop) (a : SessionM α) : Prop :=
  ∀ s : Session, s.world.Steps kind (a.run s).2.world

theorem Only.mono {kind' : Deed → Prop} {a : SessionM α} (h : a.Only kind)
    (hkind : ∀ e, kind e → kind' e) : a.Only kind' := fun s => (h s).mono hkind

/-- Steps on a session with that world. -/
theorem Only.steps {a : SessionM α} (h : a.Only kind) {s : Session} {w : World}
    (hs : s.world = w) : w.Steps kind (a.run s).2.world := hs ▸ h s

theorem only_pure (v : α) : (pure v : SessionM α).Only kind := fun s => .refl s.world

theorem Only.bind {a : SessionM α} {f : α → SessionM β} (h : a.Only kind)
    (hf : ∀ v, (f v).Only kind) : (a >>= f).Only kind := fun s => (h s).trans (hf _ _)

theorem Only.map {a : SessionM α} (h : a.Only kind) (g : α → β) : (g <$> a).Only kind := h

theorem only_get {f : Session → SessionM α} (h : ∀ s, (f s).Only kind) :
    (get >>= f).Only kind := fun s => h s s

theorem only_modify {f : Session → Session} (h : ∀ s, (f s).world = s.world) :
    (modify f : SessionM Unit).Only kind := fun s => by
  show s.world.Steps kind (f s).world
  rw [h]
  exact .refl s.world

theorem only_on {i : InstanceId} (c : Call) {a : Act α} {g : α → Grant} (hact : c.act = g <$> a)
    (hc : kind (.call i c)) : (on i a).Only kind := fun s => by
  refine .cons hc ?_
  show (s.world.on i c.act).2.Steps kind (s.world.on i a).2
  rw [hact, World.on_map]
  exact .refl _

theorem only_remove (name : String) : (remove name).Only kind := fun s => .refl s.world

theorem only_release (held : Option Holding) : (release held).Only Deed.Releases := by
  match held with
  | none | some (.state _) => exact only_pure ()
  | some (.sequence owner q) =>
    have h : (on owner (Iterator.abandon q)).Only Deed.Releases := only_on (.abandon q) rfl trivial
    exact h.map _

theorem only_store (name : String) (h : Holding) : (store name h).Only Deed.Releases := by
  refine (only_remove name).bind fun before => ?_
  refine (only_modify ?_).bind fun _ => only_release before
  exact fun _ => rfl

theorem only_give (dest : String) (owner : InstanceId) (t : Token) :
    (give dest owner t).Only Deed.Releases :=
  (only_store dest _).bind fun _ => only_pure _

theorem only_take (owner : InstanceId) (q : SequenceId) (dest : String) :
    (take owner q dest).Only fun e => e = .call owner (.take q) ∨ e.Releases := by
  refine (only_on (.take q) rfl (.inl rfl)).bind fun r => ?_
  match r with
  | .ok (some t) => exact ((only_store dest _).mono fun _ => .inr).bind fun _ => only_pure _
  | .ok none =>
    refine only_get fun s => ?_
    dsimp only
    split <;> exact only_pure _
  | .error _ => exact only_pure _

theorem only_answer (reply : Reply) (r : Except Fault α) : (answer reply r).Only kind := by
  cases r <;> exact only_pure _

theorem only_takeTurn (loop : RunningLoop) (r : Except Fault Callback.Turn) :
    (takeTurn loop r).Only Deed.Releases := by
  match r with
  | .ok (.body entry) =>
    refine (only_modify ?_).bind fun _ => (only_store bodyVariable _).bind fun _ => only_pure _
    exact fun _ => rfl
  | .ok (.finished t) => exact only_give loop.dest loop.owner t
  | .error fault => exact only_pure _

end SessionM

end LoopProtocol
