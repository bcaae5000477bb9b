import LoopProtocol.Proofs.LoopRule

/-!
# Loop programs

A program sends messages and runs loops, one after another and inside each other. A driver is free
to choose a surface for every loop of it. Its word is defined by recursion on the program alone, so
`Program.on_run` says that the choice cannot be seen: not in the events, not on the stack.
-/

namespace LoopProtocol

/-- A program of messages and loops. -/
inductive Program where
  | done
  | send (label : String) (rest : Program)
  /-- Runs `body` as often as the head's parameter says, then goes on with `rest`. -/
  | foreach (head : LoopHead) (body rest : Program)

/-- Which surface runs a loop. The address of a loop says, from the outside in, whether it is inside
the loop that comes next or behind the statement that comes next. -/
abbrev Surfaces := List Bool → Surface

namespace Surfaces

/-- The surface of the loop that comes next. -/
def here (c : Surfaces) : Surface := c []

/-- The choice for the body of the loop that comes next. -/
def inside (c : Surfaces) : Surfaces := fun address => c (true :: address)

/-- The choice for what is behind the statement that comes next. -/
def behind (c : Surfaces) : Surfaces := fun address => c (false :: address)

end Surfaces

namespace Program

/-- The loops of a program. -/
def ids : Program → List LoopId
  | done => []
  | send _ rest => rest.ids
  | foreach head body rest => head.id :: (body.ids ++ rest.ids)

/-- The parameters of its loops. -/
def params : Program → List String
  | done => []
  | send _ rest => rest.params
  | foreach head body rest => head.param :: (body.params ++ rest.params)

/-- No loop occurs inside itself. -/
def Proper : Program → Prop
  | done => True
  | send _ rest => rest.Proper
  | foreach head body rest => head.id ∉ body.ids ∧ body.Proper ∧ rest.Proper

/-- The events of a program, with a table that gives its parameters their numbers. -/
def word (bounds : BoundTable) : Program → List Event
  | done => []
  | send label rest => .sent label :: rest.word bounds
  | foreach head body rest =>
    Event.loop head.id (fun _ => body.word bounds) ((bounds.get? head.param).getD 0) ++
      rest.word bounds

open Drive

variable {σ : Type}

/-- The shape of the loop around a free head. -/
def shape (head : LoopHead) : Surface → LoopShape
  | .iterator => ⟨head, .item, .item, .step⟩
  | .polling | .callback => ⟨head, .step, .step, .step⟩

/-- The state at which an iteration of a free loop ends: a new head on the polling surface, and else
the state at which it began. -/
def last (head : LoopHead) (entry : Token) : Surface → Drive σ Token
  | .polling => act (Act.issue (.free head) none)
  | .iterator | .callback => pure entry

/-- Sends a message on a state of its own. -/
def say (label : String) : Drive σ Unit := do
  let state ← act (Act.issue .step none)
  act (state.send label)

/-- Runs a loop through a surface, at a free head of its own. -/
def repeatBody (surface : Surface) (head : LoopHead) (body : Drive σ Unit) : Drive σ Unit := do
  let first ← act (Act.issue (.free head) none)
  discard <| loop surface (shape head surface) first fun entry => do
    body
    last head entry surface

/-- Runs a program. Every message and every loop gets a new state, and every loop is run through the
surface that is chosen for it. -/
def run : Program → Surfaces → Drive σ Unit
  | done, _ => pure ()
  | send label rest, c => do
    say label
    rest.run c.behind
  | foreach head body rest, c => do
    repeatBody c.here head (body.run c.inside)
    rest.run c.behind

/-- What a free head offers through each surface. -/
theorem loop?_free (head : LoopHead) (surface : Surface) :
    (Site.free head).loop? surface = some (shape head surface) := by
  cases surface <;> rfl

@[simp] theorem head_shape (head : LoopHead) (surface : Surface) :
    (shape head surface).head = head := by
  cases surface <;> rfl

/-! ## What a program does -/

/-- Between `x` and `y` events were reported, and all else that `x` had is as before. -/
structure Adds (x : Instance) (w : List Event) (y : Instance) : Prop where
  reaches : x.Reaches x.stack.frames w y
  bounds : y.bounds = x.bounds
  spares : ∀ g, x.Spares g y

section Run

variable {x y z : Instance} {s : σ} {w w' : List Event} {E : Fault → σ → Instance → Prop}

theorem Adds.refl (h : x.aborted = false) : Adds x [] x := ⟨.refl h, rfl, .refl x⟩

theorem Adds.trans (h : Adds x w y) (h' : Adds y w' z) : Adds x (w ++ w') z where
  reaches := by
    have hreaches := h.reaches.trans h'.reaches
    rwa [h.reaches.frames] at hreaches
  bounds := h'.bounds.trans h.bounds
  spares g := (h.spares g).trans (h'.spares g) (.inl rfl)

theorem Adds.contains (h : Adds x w y) (id : LoopId) :
    y.stack.contains id = x.stack.contains id := by
  simp [FrameStack.contains, FrameStack.find?, h.reaches.frames]

/-- A part of a run that works with a state of its own. -/
theorem spares_of_issue
    (h : Instance.Spares { x with guards := x.guards.issue } x.guards.next y) (g : GuardId) :
    x.Spares g y :=
  Instance.Spares.trans (y := { x with guards := x.guards.issue })
    (Instance.Spares.refl x g).issue h (.inr (Nat.le_refl _))

theorem ends_say (label : String) (hrun : x.aborted = false) :
    (say label).Ends s x (fun _ t y => t = s ∧ Adds x [.sent label] y) E := by
  refine Ends.bind (ends_act (Act.ends_issue (ends_act ?_)))
  refine Act.Ends.bind (Act.ends_consume_unused (Guards.isConsumed_issue_next x.guards) ?_)
  refine Act.ends_accept ⟨rfl, ⟨hrun, rfl, by simp [Instance.spend]⟩, rfl, fun g => ?_⟩
  exact spares_of_issue (Instance.Spares.spend _ ⟨x.guards.next, .step, none⟩) g

theorem ends_last {head : LoopHead} {entry : Token} {surface : Surface} (hy : Adds x w y)
    (hunused : entry.isConsumed x = false) :
    (last head entry surface).Ends s y (fun tail t z =>
      x.Yields entry tail z ∧ (surface = .iterator → tail.feed = entry.feed) ∧ t = s ∧
      z.bounds = x.bounds ∧ x.Reaches x.stack.frames w z) E := by
  have hkept : x.Yields entry entry y := by
    have hne : entry.guard ≠ x.guards.next := (Token.isConsumed_issue hunused).1
    exact ⟨(hy.spares _).isConsumed hunused hne, .inl rfl, hy.spares _⟩
  obtain ⟨hr, hbounds, hspares⟩ := hy
  cases surface with
  | polling =>
    refine ends_act (Act.ends_issue ⟨.of_issue (hspares _) _ _ rfl rfl, by simp, rfl, hbounds, ?_⟩)
    exact ⟨hr.running, hr.frames, hr.events⟩
  | iterator => exact ends_pure ⟨hkept, fun _ => rfl, rfl, hbounds, hr⟩
  | callback => exact ends_pure ⟨hkept, fun _ => rfl, rfl, hbounds, hr⟩

/-- A loop whose body reports the same in every iteration. -/
theorem ends_repeatBody (surface : Surface) {head : LoopHead} {b : Bound} {body : Drive σ Unit}
    (hrun : x.aborted = false) (hnew : x.stack.contains head.id = false)
    (hb : x.bounds.bound head.param = .ok b)
    (hbody : ∀ y f, f.id = head.id → y.aborted = false → y.stack.frames = f :: x.stack.frames →
      y.bounds = x.bounds →
      body.Ends s y (fun _ t z => t = s ∧ Adds y w z) fun _ _ _ => False) :
    (repeatBody surface head body).Ends s x
      (fun _ t y => t = s ∧ Adds x (Event.loop head.id (fun _ => w) b.count) y)
      fun _ _ _ => False := by
  refine Ends.bind (ends_act (Act.ends_issue ?_))
  let x₁ : Instance := { x with guards := x.guards.issue }
  have hstart : CanStart (shape head surface) x₁ ⟨x.guards.next, .free head, none⟩ b :=
    ⟨hrun, by simpa using hnew, by simpa using hb, Guards.isConsumed_issue_next x.guards⟩
  have hruns : BodyRuns surface (shape head surface) x₁ b (fun _ => w)
      (fun _ t bounds => t = s ∧ bounds = x.bounds) (fun _ _ _ => False)
      (fun entry => do
        body
        last head entry surface) := by
    rintro i - entry t y hunused hr ⟨rfl, hbounds⟩
    have hid : (Frame.iterating (shape head surface).head.id b i).id = head.id := by simp
    refine (hbody y _ hid hr.running hr.frames hbounds).andThen ?_
    rintro - t z ⟨rfl, hz⟩
    refine (ends_last hz hunused).mono ?_ fun _ _ _ he => he
    rintro tail u v ⟨hyields, hfeed, rfl, hbounds', hr'⟩
    exact ⟨hyields, hfeed, hr', rfl, hbounds'.trans hbounds⟩
  refine Ends.discard ((ends_loop hstart hruns ⟨rfl, rfl⟩ (by simp)).mono ?_ fun _ _ _ he => he)
  rintro after t y ⟨hyields, -, hr, rfl, hbounds⟩
  rw [head_shape] at hr
  exact ⟨rfl, ⟨hr.running, hr.frames, hr.events⟩, hbounds, spares_of_issue hyields.spares⟩

theorem get?_of_bound {bounds : BoundTable} {param : String} {b : Bound}
    (h : bounds.bound param = .ok b) : bounds.get? param = some b.count := by
  unfold BoundTable.bound at h
  split at h
  · cases h
  · next count hcount =>
    split at h
    · cases h
    · next b' hb' =>
      cases h
      rw [hcount, (Bound.ofCount?_eq_some_iff.1 hb').symm]

/-- What a program reports and leaves alone, whatever the surfaces of its loops. -/
theorem ends_run (p : Program) (c : Surfaces) (hp : p.Proper) (hrun : x.aborted = false)
    (hids : ∀ id ∈ p.ids, x.stack.contains id = false)
    (hparams : ∀ param ∈ p.params, ∃ b, x.bounds.bound param = .ok b) :
    (p.run c).Ends s x (fun _ t y => t = s ∧ Adds x (p.word x.bounds) y) fun _ _ _ => False := by
  induction p generalizing x c s with
  | done => exact ends_pure ⟨rfl, .refl hrun⟩
  | send label rest ih =>
    refine (ends_say label hrun).andThen ?_
    rintro - t y ⟨rfl, hy⟩
    rw [← hy.bounds] at hparams
    refine (ih c.behind hp hy.reaches.running (fun id hid => ?_) hparams).mono ?_ fun _ _ _ he => he
    · rw [hy.contains]
      exact hids id hid
    · rintro - u z ⟨rfl, hz⟩
      rw [hy.bounds] at hz
      exact ⟨rfl, hy.trans hz⟩
  | foreach head body rest ihbody ihrest =>
    obtain ⟨hself, hbody, hrest⟩ := hp
    obtain ⟨b, hb⟩ := hparams head.param (by simp [params])
    simp only [ids, List.mem_cons, List.mem_append] at hids
    simp only [params, List.mem_cons, List.mem_append] at hparams
    refine (ends_repeatBody c.here hrun (hids head.id (.inl rfl)) hb
      (w := body.word x.bounds) ?_).andThen ?_
    · intro y f hf hy hframes hbounds
      rw [← hbounds] at hparams ⊢
      refine ihbody c.inside hbody hy (fun id hid => ?_)
        fun param h => hparams param (.inr (.inl h))
      -- a loop of the body is neither the loop around it nor on the stack further out
      have hne : f.id ≠ id := fun e => hself (by rw [← hf, e]; exact hid)
      have hout := hids id (.inr (.inl hid))
      rw [FrameStack.contains_eq_false_iff] at hout ⊢
      rw [hframes]
      simpa [hne] using hout
    · rintro - t y ⟨rfl, hy⟩
      rw [← hy.bounds] at hparams
      refine (ihrest c.behind hrest hy.reaches.running (fun id hid => ?_)
        fun param h => hparams param (.inr (.inr h))).mono ?_ fun _ _ _ he => he
      · rw [hy.contains]
        exact hids id (.inr (.inr hid))
      · rintro - u z ⟨rfl, hz⟩
        rw [hy.bounds] at hz
        have hall := hy.trans hz
        rw [← Option.getD_some (a := b.count) (b := 0), ← get?_of_bound hb] at hall
        exact ⟨rfl, hall⟩

/-- **A program does the same through whatever surfaces its loops are run.** It succeeds, leaves the
stack as it was, and reports the word of the program, which knows of no surface. -/
theorem on_run (p : Program) (c : Surfaces) (s : σ) (x : Instance) (hp : p.Proper)
    (hrun : x.aborted = false) (hids : ∀ id ∈ p.ids, x.stack.contains id = false)
    (hparams : ∀ param ∈ p.params, ∃ b, x.bounds.bound param = .ok b) :
    ∃ y, (p.run c).on s x = ((.ok (), s), y) ∧ y.stack = x.stack ∧ y.aborted = false ∧
      y.events.toList = x.events.toList ++ p.word x.bounds := by
  obtain ⟨_, _, y, hon, rfl, hy⟩ := (ends_run p c hp hrun hids hparams (s := s)).exists_ok
  exact ⟨y, hon, hy.reaches.stack, hy.reaches.running, hy.reaches.events⟩

/-- Two loops inside each other, on a stack that holds a third, the outer one by iteration and the
inner one by callback. -/
theorem on_run_nested :
    let p : Program := .foreach ⟨"A", ⟨0⟩, "k"⟩ (.foreach ⟨"B", ⟨1⟩, "n"⟩ (.send "m" .done) .done)
      (.send "end" .done)
    let c : Surfaces := fun address => if address = [] then .iterator else .callback
    let x : Instance := { Instance.create ⟨0⟩ (.ofList [("k", 2), ("n", 3)]) none with
      stack := ⟨[⟨⟨2⟩, 0, 4⟩]⟩ }
    p.Proper ∧ x.aborted = false ∧ (∀ id ∈ p.ids, x.stack.contains id = false) ∧
      (∀ param ∈ p.params, ∃ b, x.bounds.bound param = .ok b) ∧
      ∃ y, (p.run c).on () x = ((.ok (), ()), y) ∧ y.stack = x.stack ∧ y.aborted = false ∧
        y.events.toList = x.events.toList ++ p.word x.bounds := by
  intro p c x
  have hp : p.Proper := by simp [p, Proper, ids]
  have hrun : x.aborted = false := rfl
  have hids : ∀ id ∈ p.ids, x.stack.contains id = false := by decide
  have hparams : ∀ param ∈ p.params, ∃ b, x.bounds.bound param = .ok b := by
    have hk : x.bounds.bound "k" = .ok ⟨2, by decide⟩ := by
      simp [x, Instance.create, BoundTable.ofList, BoundTable.bound]
      rfl
    have hn : x.bounds.bound "n" = .ok ⟨3, by decide⟩ := by
      simp [x, Instance.create, BoundTable.ofList, BoundTable.bound]
      rfl
    simp [p, params, hk, hn]
  exact ⟨hp, hrun, hids, hparams, on_run p c () x hp hrun hids hparams⟩

end Run

end Program

end LoopProtocol
