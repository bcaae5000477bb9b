import LoopProtocol.Proofs.Call

/-!
# Sessions as dealings

A session is more than its instances: it has variables, running callback loops and replies. What
happens to an instance depends on none of that, only on the calls made on it. This module takes a
session apart into its `Deed`s, calls on instances and clearings of recorders; that each move is a
list of legal deeds is shown after it (`obeys_move`).

A `Dealing` remembers every state that the driver was ever given, as if no variable were ever
overwritten. So a deed is legal when its state was given at some time, and whatever holds after all
legal deeds holds after all moves.
-/

namespace LoopProtocol

/-- What a session does to a world. -/
inductive Deed where
  | call (i : InstanceId) (c : Call)
  | clear (r : RecorderId)

/-- A world, and all that its driver was given. -/
structure Dealing where
  world : World
  given : List Handle
  /-- The callback loops that began. -/
  begun : List (InstanceId × LoopShape)
  /-- The state that the last deed took back from the body of a callback loop. -/
  due : Option Handle

namespace Dealing

/-- The states that an instance gave. -/
def givenBy (d : Dealing) (i : InstanceId) : List Token :=
  (d.given.filter (·.owner = i)).map (·.token)

/-- The shapes of the callback loops that began on an instance. -/
def begunOn (d : Dealing) (i : InstanceId) : List LoopShape :=
  (d.begun.filter (·.1 = i)).map (·.2)

@[simp] theorem mem_givenBy {d : Dealing} {i : InstanceId} {t : Token} :
    t ∈ d.givenBy i ↔ ⟨i, t⟩ ∈ d.given := by
  simp only [givenBy, List.mem_map, List.mem_filter, decide_eq_true_eq]
  constructor
  · rintro ⟨⟨_, _⟩, ⟨h, rfl⟩, rfl⟩
    exact h
  · exact fun h => ⟨_, ⟨h, rfl⟩, rfl⟩

@[simp] theorem mem_begunOn {d : Dealing} {i : InstanceId} {shape : LoopShape} :
    shape ∈ d.begunOn i ↔ (i, shape) ∈ d.begun := by
  simp only [begunOn, List.mem_map, List.mem_filter, decide_eq_true_eq]
  constructor
  · rintro ⟨⟨_, _⟩, ⟨h, rfl⟩, rfl⟩
    exact h
  · exact fun h => ⟨_, ⟨h, rfl⟩, rfl⟩

/-- The states that a call on a world gives. -/
def gains (d : Dealing) (i : InstanceId) (c : Call) : List Token :=
  match (d.world.on i c.act).1 with
  | .ok grant => grant.tokens
  | .error _ => []

/-- Whether a call took a state back, and which. -/
def takesBack (d : Dealing) (i : InstanceId) : Call → Option Handle
  | .giveBack t =>
    match (d.world.on i t.consume).1 with
    | .ok _ => some ⟨i, t⟩
    | .error _ => none
  | _ => none

/-- Does a deed. -/
def perform (d : Dealing) : Deed → Dealing
  | .call i c => {
      world := (d.world.on i c.act).2
      given := d.given ++ (d.gains i c).map (⟨i, ·⟩)
      begun := d.begun ++ c.begins.map (i, ·)
      due := d.takesBack i c }
  | .clear r => { d with
      world := { d.world with recorders := d.world.recorders.clear r }
      due := none }

/-- A deed that the driver can do. A callback loop goes on only after it took back a state that
ends an iteration of its body. -/
def Legal (d : Dealing) : Deed → Prop
  | .call i c =>
    c.Legal (d.givenBy i) (d.begunOn i) ∧ ∀ shape j, c = .advance shape j →
      ∃ t : Token, d.due = some ⟨j, t⟩ ∧ t.site = shape.tail
  | .clear _ => True

/-- Legal deeds one after another. -/
inductive Runs : Dealing → List Deed → Dealing → Prop where
  | nil (d : Dealing) : Runs d [] d
  | cons {d d' : Dealing} {e : Deed} {es : List Deed} : d.Legal e → Runs (d.perform e) es d' →
      Runs d (e :: es) d'

theorem Runs.append {d d' d'' : Dealing} {es fs : List Deed} (h : Runs d es d')
    (h' : Runs d' fs d'') : Runs d (es ++ fs) d'' := by
  induction h with
  | nil => exact h'
  | cons he _ ih => exact .cons he (ih h')

/-- What deeds keep that the driver may do, of which so many of a kind are still to come. -/
theorem Runs.counted {d d' : Dealing} {es : List Deed} {n : Nat} {F : Nat → Dealing → Prop}
    {Admits : Deed → Prop} {p : Deed → Bool} (h : Runs d es d') (hd : F n d)
    (hadmits : ∀ e ∈ es, Admits e) (hcount : es.countP p ≤ n)
    (hperform : ∀ {n d e}, F n d → d.Legal e → Admits e → [e].countP p ≤ n →
      F (n - [e].countP p) (d.perform e)) : ∃ n, F n d' := by
  induction h generalizing n with
  | nil => exact ⟨n, hd⟩
  | @cons d d' e es hlegal _ ih =>
    have hsplit : (e :: es).countP p = [e].countP p + es.countP p :=
      (List.countP_append : ([e] ++ es).countP _ = _)
    have hnext := hperform hd hlegal (hadmits e List.mem_cons_self) (by omega)
    exact ih hnext (fun e he => hadmits e (List.mem_cons_of_mem _ he)) (by omega)

/-- Nothing that was given is forgotten. -/
structure Extends (d' d : Dealing) : Prop where
  given : d.given ⊆ d'.given
  begun : d.begun ⊆ d'.begun

theorem Extends.refl (d : Dealing) : d.Extends d := ⟨List.Subset.refl _, List.Subset.refl _⟩

theorem Extends.trans {d d' d'' : Dealing} (h : d''.Extends d') (h' : d'.Extends d) :
    d''.Extends d :=
  ⟨List.Subset.trans h'.given h.given, List.Subset.trans h'.begun h.begun⟩

theorem extends_perform (d : Dealing) (e : Deed) : (d.perform e).Extends d := by
  cases e with
  | call i c => exact ⟨List.subset_append_left _ _, List.subset_append_left _ _⟩
  | clear r => exact ⟨List.Subset.refl _, List.Subset.refl _⟩

theorem Runs.extends {d d' : Dealing} {es : List Deed} (h : Runs d es d') : d'.Extends d := by
  induction h with
  | nil d => exact .refl d
  | cons _ _ ih => exact ih.trans (extends_perform _ _)

variable {d : Dealing} {i j : InstanceId} {x : Instance}

theorem gains_eq (hx : d.world.instance? i = some x) (c : Call) : d.gains i c = c.gains x := by
  rw [gains, World.on_eq hx]
  rfl

theorem givenBy_perform_self (hx : d.world.instance? i = some x) (c : Call) :
    (d.perform (.call i c)).givenBy i = d.givenBy i ++ c.gains x := by
  simp [givenBy, perform, gains_eq hx, List.filter_map, Function.comp_def]

theorem perform_of_ne (h : j ≠ i) (c : Call) :
    (d.perform (.call j c)).givenBy i = d.givenBy i ∧
      (d.perform (.call j c)).begunOn i = d.begunOn i := by
  simp [givenBy, begunOn, perform, List.filter_map, Function.comp_def, h]

end Dealing

/-! ## Which deeds a move consists of -/

/-- A deed that a session does only when its driver orders exactly that. A callback loop goes on by
itself, but for a state of another instance only if the driver returned one. -/
def Deed.isOrder : Deed → Bool
  | .clear _ | .call _ (.issue _) | .call _ (.fork _) | .call _ (.setParam _ _)
  | .call _ (.use _ _) => true
  | .call i (.advance _ j) => i ≠ j
  | _ => false

/-- The move that orders a deed, in the session in which it is made. -/
def Move.Orders (s : Session) : Move → Deed → Prop
  | .act (.clearEvents r), .clear r' => r = r'
  | .act (.issue site i _), .call i' (.issue site') => i = i' ∧ site = site'
  | .act (.fork _ _), .call _ (.fork _) => True
  | .act (.setParam name bound i), .call i' (.setParam name' bound') =>
    i = i' ∧ name = name' ∧ bound = bound'
  | .act (.use of u), .call i (.use t u') =>
    u = u' ∧ s.vars.get? of = some (.state ⟨i, t⟩)
  | .returnState name, .call i (.advance shape j) =>
    ∃ (loop : RunningLoop) (outer : List RunningLoop) (t : Token),
      s.running = loop :: outer ∧ loop.owner = i ∧ loop.shape = shape ∧
        s.vars.get? name = some (.state ⟨j, t⟩)
  | _, _ => False

namespace Move.Orders

variable {s : Session} {m : Move} {i j : InstanceId}

theorem clear {r : RecorderId} (h : m.Orders s (.clear r)) : m = .act (.clearEvents r) := by
  cases m with
  | act action =>
    cases action with
    | clearEvents r' =>
      obtain rfl : r' = r := h
      rfl
    | _ => cases h
  | _ => cases h

theorem issue {site : Site} (h : m.Orders s (.call i (.issue site))) :
    ∃ dest, m = .act (.issue site i dest) := by
  cases m with
  | act action =>
    cases action with
    | issue site' j dest =>
      obtain ⟨rfl, rfl⟩ := h
      exact ⟨dest, rfl⟩
    | _ => cases h
  | _ => cases h

theorem use {t : Token} {u : Use} (h : m.Orders s (.call i (.use t u))) :
    ∃ of, m = .act (.use of u) ∧ s.vars.get? of = some (.state ⟨i, t⟩) := by
  cases m with
  | act action =>
    cases action with
    | use of u' =>
      obtain ⟨rfl, hget⟩ := h
      exact ⟨of, rfl, hget⟩
    | _ => cases h
  | _ => cases h

theorem advance {shape : LoopShape} (h : m.Orders s (.call i (.advance shape j))) :
    ∃ (name : String) (loop : RunningLoop) (outer : List RunningLoop) (t : Token),
      m = .returnState name ∧ s.running = loop :: outer ∧ loop.owner = i ∧
        s.vars.get? name = some (.state ⟨j, t⟩) := by
  cases m with
  | returnState name =>
    obtain ⟨loop, outer, t, hrunning, howner, -, hget⟩ := h
    exact ⟨name, loop, outer, t, rfl, hrunning, howner, hget⟩
  | act action => cases action <;> cases h
  | _ => cases h

end Move.Orders

/-- The session has only what the dealing remembers. -/
structure Dealing.Covers (d : Dealing) (s : Session) : Prop where
  world : d.world = s.world
  vars : ∀ name h, (name, .state h) ∈ s.vars → h ∈ d.given
  running : ∀ loop ∈ s.running, (loop.owner, loop.shape) ∈ d.begun ∧
    ∃ site : Site, site.loop? .callback = some loop.shape

theorem Dealing.Covers.mem {d : Dealing} {s : Session} (h : d.Covers s) {name : String}
    {g : Handle} (hget : s.vars.get? name = some (.state g)) : g ∈ d.given := by
  obtain ⟨l₁, l₂, hvars, -⟩ := List.lookup_eq_some_iff.1 hget
  exact h.vars name g (by rw [hvars]; simp)

theorem Dealing.Covers.erase {d : Dealing} {s : Session} (h : d.Covers s) (name : String) :
    d.Covers { s with vars := Variables.erase s.vars name } :=
  ⟨h.world, fun name' g hg => h.vars name' g (List.mem_filter.1 hg).1, h.running⟩

theorem Dealing.Covers.insert {d : Dealing} {s : Session} (h : d.Covers s) {name : String}
    {held : Holding} (hmem : ∀ g, held = .state g → g ∈ d.given) :
    d.Covers { s with vars := Variables.insert s.vars name held } := by
  refine ⟨h.world, fun name' g hg => ?_, h.running⟩
  rcases List.mem_cons.1 hg with hg | hg
  · obtain ⟨-, rfl⟩ := Prod.mk.inj hg
    exact hmem g rfl
  · exact h.vars name' g (List.mem_filter.1 hg).1

namespace SessionM

variable {α β : Type} {s : Session} {d : Dealing}

/-- Run on `s`, with all that it has remembered in `d`, the steps are deeds that no order is needed
for, and `Q` holds of the answer and of what is remembered then. -/
def Deals (a : SessionM α) (s : Session) (d : Dealing) (Q : α → Dealing → Prop) : Prop :=
  ∃ es d', d.Runs es d' ∧ (∀ e ∈ es, e.isOrder = false) ∧ d'.Covers (a.run s).2 ∧ Q (a.run s).1 d'

variable {Q Q' : α → Dealing → Prop} {R : β → Dealing → Prop}

theorem deals_pure {v : α} (hs : d.Covers s) (hQ : Q v d) : (pure v : SessionM α).Deals s d Q :=
  ⟨[], d, .nil d, by simp, hs, hQ⟩

theorem Deals.mono {a : SessionM α} (h : a.Deals s d Q)
    (hQ : ∀ v d', d'.Extends d → Q v d' → Q' v d') : a.Deals s d Q' := by
  obtain ⟨es, d', hr, he, hs, hq⟩ := h
  exact ⟨es, d', hr, he, hs, hQ _ _ hr.extends hq⟩

theorem Deals.andThen {a : SessionM α} {f : α → SessionM β} (h : a.Deals s d Q)
    (hf : ∀ v s' d', d'.Covers s' → d'.Extends d → Q v d' → (f v).Deals s' d' R) :
    (a >>= f).Deals s d R := by
  obtain ⟨es, d', hr, he, hs, hq⟩ := h
  obtain ⟨fs, d'', hr', he', hs', hq'⟩ := hf _ _ d' hs hr.extends hq
  refine ⟨es ++ fs, d'', hr.append hr', ?_, hs', hq'⟩
  intro e hmem
  rcases List.mem_append.1 hmem with hmem | hmem
  · exact he e hmem
  · exact he' e hmem

theorem Deals.map {a : SessionM α} {g : α → β} (h : a.Deals s d fun v => R (g v)) :
    (g <$> a).Deals s d R := h

/-- An action, and what is done with its answer. -/
theorem run_on (s : Session) (i : InstanceId) (a : Act α) (f : Except Fault α → SessionM β) :
    (on i a >>= f).run s =
      (f (s.world.on i a).1).run { s with world := (s.world.on i a).2 } := rfl

theorem run_answer (s : Session) (i : InstanceId) (a : Act α) (reply : Reply) :
    (on i a >>= answer reply).run s =
      ((match (s.world.on i a).1 with | .ok _ => reply | .error e => .fault e),
        { s with world := (s.world.on i a).2 }) := by
  rw [run_on]
  cases (s.world.on i a).1 <;> rfl

theorem run_store (s : Session) (name : String) (h : Holding) :
    (store name h).run s = (release (s.vars.get? name)).run
      { s with vars := Variables.insert (Variables.erase s.vars name) name h } := rfl

/-- What a call's answer gives is remembered. -/
theorem mem_given_perform {i : InstanceId} {c : Call} {a : Act α} {g : α → Grant}
    (hact : c.act = g <$> a) {v : α} (hv : (d.world.on i a).1 = .ok v) {t : Token}
    (ht : t ∈ (g v).tokens) : ⟨i, t⟩ ∈ (d.perform (.call i c)).given := by
  have hgains : d.gains i c = (g v).tokens := by
    simp [Dealing.gains, hact, World.on_map, hv, Except.map]
  simp [Dealing.perform, hgains, ht]

theorem covers_call {i : InstanceId} {c : Call} {a : Act α} {g : α → Grant}
    (hact : c.act = g <$> a) (hs : d.Covers s) :
    (d.perform (.call i c)).Covers ((on i a).run s).2 where
  world := by
    show (d.world.on i c.act).2 = (s.world.on i a).2
    rw [hact, World.on_map, hs.world]
  vars name h hmem := (Dealing.extends_perform d (.call i c)).given (hs.vars name h hmem)
  running loop hmem :=
    ⟨(Dealing.extends_perform d (.call i c)).begun (hs.running loop hmem).1,
      (hs.running loop hmem).2⟩

theorem deals_on {i : InstanceId} (c : Call) {a : Act α} {g : α → Grant} (hact : c.act = g <$> a)
    (hs : d.Covers s) (hc : d.Legal (.call i c)) (hord : (Deed.call i c).isOrder = false)
    {Q : Except Fault α → Dealing → Prop}
    (hQ : Q (d.world.on i a).1 (d.perform (.call i c))) : (on i a).Deals s d Q := by
  refine ⟨[.call i c], _, .cons hc (.nil _), by simpa using hord, covers_call hact hs, ?_⟩
  rw [hs.world] at hQ
  exact hQ

theorem deals_get {f : Session → SessionM α} (h : (f s).Deals s d Q) : (get >>= f).Deals s d Q := h

theorem deals_modify {f : Session → Session} {Q : Unit → Dealing → Prop} (hs : d.Covers (f s))
    (hQ : Q () d) : (modify f : SessionM Unit).Deals s d Q :=
  ⟨[], d, .nil d, by simp, hs, hQ⟩

/-- Steps of which only the deeds matter, not the answer. -/
abbrev Serves (a : SessionM α) (s : Session) (d : Dealing) : Prop := a.Deals s d fun _ _ => True

/-! ## The steps that all actions are made of -/

theorem deals_remove (hs : d.Covers s) (name : String) :
    (remove name).Deals s d fun held d' => ∀ h, held = some (.state h) → h ∈ d'.given := by
  refine ⟨[], d, .nil d, by simp, hs.erase name, fun h hh => ?_⟩
  exact hs.mem hh

theorem serves_release (hs : d.Covers s) (held : Option Holding) : (release held).Serves s d := by
  match held with
  | none | some (.state _) => exact deals_pure hs trivial
  | some (.sequence owner q) =>
    have h := deals_on (.abandon q) rfl hs (i := owner) ⟨trivial, by simp⟩ rfl
      (Q := fun _ _ => True) trivial
    exact h.andThen fun _ _ _ hs' _ _ => deals_pure hs' trivial

theorem serves_store (hs : d.Covers s) {name : String} {h : Holding}
    (hmem : ∀ g, h = .state g → g ∈ d.given) : (store name h).Serves s d := by
  refine (deals_remove hs name).andThen fun before s' d' hs' hext _ => ?_
  have hcov : d'.Covers { s' with vars := Variables.insert s'.vars name h } :=
    hs'.insert fun g hg => hext.given (hmem g hg)
  exact (deals_modify (Q := fun _ _ => True) hcov trivial).andThen fun _ _ _ hs'' _ _ =>
    serves_release hs'' before

theorem serves_give (hs : d.Covers s) {dest : String} {owner : InstanceId} {t : Token}
    (hmem : ⟨owner, t⟩ ∈ d.given) : (give dest owner t).Serves s d :=
  (serves_store hs fun g hg => by cases hg; exact hmem).andThen fun _ _ _ hs' _ _ =>
    deals_pure hs' trivial

theorem serves_withState (hs : d.Covers s) {name : String} {f : Handle → SessionM Reply}
    (hf : ∀ h ∈ d.given, (f h).Serves s d) : (withState name f).Serves s d := by
  refine deals_get ?_
  split
  · next h heq => exact hf h (hs.mem heq)
  · exact deals_pure hs trivial
  · exact deals_pure hs trivial

theorem serves_withSequence (hs : d.Covers s) {name : String}
    {f : InstanceId → SequenceId → SessionM Reply} (hf : ∀ i q, (f i q).Serves s d) :
    (withSequence name f).Serves s d := by
  refine deals_get ?_
  split
  · exact hf _ _
  · exact deals_pure hs trivial
  · exact deals_pure hs trivial

theorem serves_withInstance (hs : d.Covers s) {i : InstanceId} {f : Instance → SessionM Reply}
    (hf : ∀ x, (f x).Serves s d) : (withInstance i f).Serves s d := by
  refine deals_get ?_
  split
  · exact hf _
  · exact deals_pure hs trivial

theorem serves_withSource (hs : d.Covers s) {source : Source} {possible : Site → Option α}
    {f : Handle → α → SessionM Reply}
    (hf : ∀ h a s' d', d'.Covers s' → h ∈ d'.given → possible h.token.site = some a →
      (f h a).Serves s' d') : (withSource source possible f).Serves s d := by
  refine serves_withState hs fun h hmem => ?_
  split
  · next a ha =>
    cases source.keep
    · have hremove : (discard (remove source.name)).Serves s d :=
        ((deals_remove hs source.name).mono fun _ _ _ _ => trivial).map
      refine hremove.andThen fun _ s' d' hs' hext _ => ?_
      exact hf h a s' d' hs' (hext.given hmem) ha
    · exact hf h a s d hs hmem ha
  · exact deals_pure hs trivial

end SessionM

end LoopProtocol
