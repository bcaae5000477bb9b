import LoopProtocol.Proofs.DriveLogic
import LoopProtocol.Proofs.Turn
import LoopProtocol.Proofs.Word

/-!
# One rule for the loops of all surfaces

`Drive.loop` runs a loop through any of the three surfaces. What it does is the same for all of
them: it reports the loop's start, each iteration followed by what the body reports, and the loop's
end, and the stack is as before (`Drive.ends_loop`).
-/

namespace LoopProtocol

open Instance

namespace Drive

variable {σ : Type}

/-- Ends an iteration at a state that belongs to a sequence. -/
def endIteration (tail : Token) (shape : LoopShape) : Drive σ Unit :=
  match tail.feed with
  | some s => discard <| act (Iterator.endIteration tail s shape.body)
  | none => throw .stalled

/-- Runs a loop through a surface: `body` leads from the first state of an iteration to its last,
and the answer is the state after the loop. -/
def loop (surface : Surface) (shape : LoopShape) (head : Token) (body : Token → Drive σ Token) :
    Drive σ Token :=
  match surface with
  | .polling => do
    let head ← repeatWhile (hasMore shape.head.id)
      (fun head => do body (← act (Polling.enter shape head))) Bound.limit head
    act (Polling.exit shape head)
  | .iterator => do
    let (s, after) ← act (Iterator.enter shape head)
    drain s (fun entry => do endIteration (← body entry) shape) Bound.limit
    pure after
  | .callback => foreach shape head body

variable (surface : Surface) (shape : LoopShape) (x : Instance) (head : Token) (b : Bound)
  (log : Nat → List Event) (Env : Nat → σ → BoundTable → Prop) (E : Fault → σ → Instance → Prop)

/-- A loop can start with a bound. -/
structure CanStart : Prop where
  running : x.aborted = false
  new : x.stack.contains shape.head.id = false
  bound : x.bounds.bound shape.head.param = .ok b
  unused : head.isConsumed x = false

/-- In the iteration `i` of a loop that started on `x` the body reports `log i` and leaves the
stack as it was, and `Env` says what becomes of the driver's own values and of the parameters. -/
def BodyRuns (body : Token → Drive σ Token) : Prop :=
  ∀ i < b.count.toNat, ∀ entry s y, entry.isConsumed y = false →
    x.Reaches (Frame.iterating shape.head.id b i :: x.stack.frames)
      (.activated shape.head.id b.count :: Event.turns shape.head.id log i ++
        [.iteration shape.head.id (UInt64.ofNat i)]) y →
    Env i s y.bounds →
    (body entry).Ends s y (fun tail t z =>
      y.Yields entry tail z ∧ (surface = .iterator → tail.feed = entry.feed) ∧
      y.Reaches y.stack.frames (log i) z ∧ Env (i + 1) t z.bounds) E

/-- What a loop leaves behind. -/
structure Leaves (after : Token) (t : σ) (y : Instance) : Prop where
  yields : x.Yields head after y
  feed : after.feed = if surface = .iterator then head.feed else none
  reaches : x.Reaches x.stack.frames (Event.loop shape.head.id log b.count) y
  env : Env b.count.toNat t y.bounds

variable {surface shape x head b log Env E}

/-- The loop that started on `x` is in its iteration `i`, and the body has reported nothing yet. -/
abbrev InBody (shape : LoopShape) (x : Instance) (b : Bound) (log : Nat → List Event) (i : Nat)
    (y : Instance) : Prop :=
  x.Reaches (Frame.iterating shape.head.id b i :: x.stack.frames)
    (.activated shape.head.id b.count :: Event.turns shape.head.id log i ++
      [.iteration shape.head.id (UInt64.ofNat i)]) y

/-- The body of the iteration `i` has returned. -/
abbrev AfterBody (shape : LoopShape) (x : Instance) (b : Bound) (log : Nat → List Event) (i : Nat)
    (y : Instance) : Prop :=
  x.Reaches (Frame.iterating shape.head.id b i :: x.stack.frames)
    (.activated shape.head.id b.count :: Event.turns shape.head.id log (i + 1)) y

/-- The events up to the end of an iteration. -/
theorem BodyRuns.ends {body : Token → Drive σ Token} (h : BodyRuns surface shape x b log Env E body)
    {i : Nat} (hi : i < b.count.toNat) {entry : Token} {s : σ} {y : Instance}
    (hunused : entry.isConsumed y = false)
    (hr : InBody shape x b log i y) (henv : Env i s y.bounds) :
    (body entry).Ends s y (fun tail t z =>
      y.Yields entry tail z ∧ (surface = .iterator → tail.feed = entry.feed) ∧
      AfterBody shape x b log i z ∧ Env (i + 1) t z.bounds) E := by
  refine (h i hi entry s y hunused hr henv).mono ?_ fun _ _ _ he => he
  rintro tail t z ⟨hyield, hfeed, hbody, henv'⟩
  have hall := hr.trans hbody
  rw [hr.frames] at hall
  exact ⟨hyield, hfeed, by simpa [AfterBody, Event.turns_succ] using hall, henv'⟩

/-! ## Polling -/

/-- A polled loop after some rounds, with the head for the next. Before the first round nothing has
happened, and after it the frame is still in its last iteration. -/
inductive Polled (shape : LoopShape) (x : Instance) (head : Token) (b : Bound)
    (log : Nat → List Event) : Nat → Token → Instance → Prop where
  | before : Polled shape x head b log 0 head x
  | after {i : Nat} {next : Token} {y : Instance} (yields : x.Yields head next y)
    (reaches : AfterBody shape x b log i y) : Polled shape x head b log (i + 1) next y

theorem Polled.hasMore {i : Nat} {next : Token} {y : Instance} (h : CanStart shape x head b)
    (hp : Polled shape x head b log i next y) (hi : i ≤ b.count.toNat) :
    y.hasMore shape.head.id = decide (i < b.count.toNat) := by
  cases hp with
  | before =>
    have hpos := b.toNat_count_pos
    simp [Instance.hasMore, h.running, FrameStack.hasMore,
      FrameStack.onTop?_of_contains_eq_false h.new, hpos]
  | after _ hr =>
    have htop := FrameStack.onTop?_cons hr.frames
    rw [Frame.id_iterating] at htop
    simp [Instance.hasMore, hr.running, FrameStack.hasMore, htop,
      Frame.hasNext_iterating (Nat.le_of_lt hi)]

/-- A round enters the body from the head and comes back to a new one. -/
theorem Polled.ends_round {body : Token → Drive σ Token} {i : Nat} {next : Token} {y : Instance}
    {t : σ} (h : CanStart shape x head b) (hbody : BodyRuns .polling shape x b log Env E body)
    (hp : Polled shape x head b log i next y) (hi : i < b.count.toNat) (henv : Env i t y.bounds) :
    (act (Polling.enter shape next) >>= body).Ends t y
      (fun tail t' z => Env (i + 1) t' z.bounds ∧ Polled shape x head b log (i + 1) tail z) E := by
  cases hp with
  | before =>
    have henter := Polling.ends_enter_new (E := fun e y => E e t y) h.running h.new h.bound
      h.unused
    refine Ends.bind (ends_act (henter.mono ?_ fun _ _ he => he))
    rintro entry z ⟨hentry, hbounds, -, hr⟩
    rw [← hbounds] at henv
    refine (hbody.ends hi hentry.unused hr henv).mono ?_ fun _ _ _ he => he
    rintro tail t' u ⟨htail, -, hr', henv'⟩
    exact ⟨henv', .after (hentry.trans htail) hr'⟩
  | after hy hr =>
    have henter := Polling.ends_enter_next (E := fun e y => E e t y) hr.running hr.frames hi
      hy.unused
    refine Ends.bind (ends_act (henter.mono ?_ fun _ _ he => he))
    rintro entry z ⟨hentry, hbounds, -, hr'⟩
    have hstart := hr.trans hr'
    rw [← hbounds] at henv
    refine (hbody.ends hi hentry.unused hstart henv).mono ?_ fun _ _ _ he => he
    rintro tail t' u ⟨htail, -, hr'', henv'⟩
    exact ⟨henv', .after ((hy.trans hentry).trans htail) hr''⟩

theorem Polled.ends_exit {n : Nat} {next : Token} {y : Instance} {t : σ}
    (hp : Polled shape x head b log n next y) (hn : n = b.count.toNat) (henv : Env n t y.bounds) :
    (act (Polling.exit shape next)).Ends t y (Leaves .polling shape x head b log Env) E := by
  cases hp with
  | before =>
    have hpos := b.toNat_count_pos
    omega
  | @after i _ _ hy hr =>
    have hexit := Polling.ends_exit_last (E := fun e y => E e t y) hr.running hr.frames hn
      hy.unused
    refine ends_act (hexit.mono ?_ fun _ _ he => he)
    rintro after z ⟨hafter, hbounds, hfeed, hr'⟩
    have hall := hr.trans hr'
    rw [hn] at hall henv
    exact ⟨hy.trans hafter, by simpa using hfeed, hall, by rwa [hbounds]⟩

theorem ends_loop_polling {body : Token → Drive σ Token} (h : CanStart shape x head b)
    (hbody : BodyRuns .polling shape x b log Env E body) {s : σ} (henv : Env 0 s x.bounds) :
    (loop .polling shape head body).Ends s x (Leaves .polling shape x head b log Env) E := by
  refine Ends.andThen (Q := fun next t y => Env b.count.toNat t y.bounds ∧
      Polled shape x head b log b.count.toNat next y)
    (ends_repeatWhile (n := b.count.toNat)
      (fun i next t y => Env i t y.bounds ∧ Polled shape x head b log i next y) ?_ ?_ ?_ _ 0
      head s x (Nat.zero_le _) b.count_lt_limit ⟨henv, .before⟩) ?_
  · intro i hi next t y hround
    exact hround.2.hasMore h hi
  · intro i hi next t y hround
    exact hround.2.ends_round h hbody hi hround.1
  · intro next t y hround
    exact hround
  · intro next t y hround
    exact hround.2.ends_exit rfl hround.1

/-! ## Callbacks -/

/-- The body of a callback loop is called for its iteration `i`. -/
structure Called (shape : LoopShape) (x : Instance) (head : Token) (b : Bound)
    (log : Nat → List Event) (i : Nat) (entry : Token) (y : Instance) : Prop where
  yields : x.Yields head entry y
  reaches : InBody shape x b log i y

theorem ends_begin {E : Fault → Instance → Prop} (log : Nat → List Event)
    (h : CanStart shape x head b) :
    (Callback.begin shape head).Ends x (fun turn y => ∃ entry, turn = .body entry ∧
      Called shape x head b log 0 entry y ∧ y.bounds = x.bounds) E := by
  refine Act.Ends.bind (Act.ends_consume_unused h.unused ?_)
  refine Act.Ends.bind (Act.ends_activate_new h.running h.new h.bound ?_)
  refine Act.Ends.mono (Callback.ends_turn_next (Spares.spend x head) h.running b.toNat_count_pos)
    ?_ fun _ _ he => he
  rintro turn y ⟨entry, rfl, hy, hbounds, -, hr⟩
  refine ⟨entry, rfl, ⟨hy, hr.running, hr.frames, ?_⟩, hbounds⟩
  rw [hr.events]
  simp [Instance.spend]

/-- Once a body has returned, the loop calls the next one, or is over. -/
theorem ends_advance {E : Fault → Instance → Prop} {i : Nat} {tail : Token} {z : Instance}
    (hi : i < b.count.toNat) (hz : x.Yields head tail z) (hr : AfterBody shape x b log i z) :
    tail.consume.Ends z (fun _ z' => (Callback.advance shape).Ends z' (fun turn u =>
      u.bounds = z.bounds ∧
      ((∃ entry, turn = .body entry ∧ i + 1 < b.count.toNat ∧
        Called shape x head b log (i + 1) entry u) ∨
      (∃ after, turn = .finished after ∧ i + 1 = b.count.toNat ∧ x.Yields head after u ∧
        after.feed = none ∧ x.Reaches x.stack.frames (Event.loop shape.head.id log b.count) u)))
      E) E := by
  refine Act.ends_consume_unused hz.unused ?_
  refine Act.Ends.bind (Act.ends_complete_top hr.running hr.frames rfl ?_)
  rw [Frame.advance_iterating]
  have hspares : x.Spares head.guard (z.spend tail) :=
    hz.spares.trans (Spares.spend z tail) hz.origin
  rcases Nat.lt_or_eq_of_le (Nat.succ_le_of_lt hi) with hlt | heq
  · refine Act.Ends.mono (Callback.ends_turn_next hspares hr.running hlt) ?_ fun _ _ he => he
    rintro turn u ⟨entry, rfl, hu, hbounds, -, hr'⟩
    refine ⟨hbounds, .inl ⟨entry, rfl, hlt, hu, hr'.running, hr'.frames, ?_⟩⟩
    rw [hr'.events]
    simp [Instance.spend, hr.events]
  · rw [show i + 1 = b.count.toNat from heq]
    refine Act.Ends.mono (Callback.ends_turn_over hspares hr.running rfl) ?_ fun _ _ he => he
    rintro turn u ⟨after, rfl, hu, hbounds, hfeed, hr'⟩
    refine ⟨hbounds, .inr ⟨after, rfl, rfl, hu, hfeed, hr'.running, hr'.frames, ?_⟩⟩
    rw [hr'.events]
    simp [Instance.spend, hr.events, Event.loop, ← heq]

theorem ends_loop_callback {body : Token → Drive σ Token} (h : CanStart shape x head b)
    (hbody : BodyRuns .callback shape x b log Env E body) {s : σ} (henv : Env 0 s x.bounds)
    (hE : ∀ e t y, E e t y → y.aborted = true) :
    (loop .callback shape head body).Ends s x (Leaves .callback shape x head b log Env) E := by
  refine Ends.bind (ends_act (Act.Ends.mono (ends_begin log h) ?_ fun _ _ he => he))
  rintro turn y ⟨entry, rfl, hcalled, hbounds⟩
  rw [← hbounds] at henv
  refine ends_foreachFrom
    (fun i entry t y => Env i t y.bounds ∧ Called shape x head b log i entry y) ?_ _ 0 entry s y
    b.toNat_count_pos (Nat.le_of_lt b.count_lt_limit) ⟨henv, hcalled⟩
  rintro i hi entry t y ⟨henv, hy⟩
  refine ends_callBody ((hbody.ends hi hy.yields.unused hy.reaches henv).mono ?_
    fun _ _ _ he => he) hE
  rintro tail t' z ⟨htail, -, hr, henv'⟩
  have hadvance := ends_advance (E := fun e u => E e t' u) hi (hy.yields.trans htail) hr
  refine hadvance.mono (fun _ z' hz' => hz'.mono ?_ fun _ _ he => he) fun _ _ he => he
  rintro turn u ⟨hbounds', ⟨entry', rfl, hlt, hu⟩ | ⟨after, rfl, hlast, hu, hfeed, hr'⟩⟩
  · rw [← hbounds'] at henv'
    exact .inl ⟨entry', rfl, hlt, henv', hu⟩
  · rw [← hbounds', hlast] at henv'
    exact .inr ⟨after, rfl, hu, by simpa using hfeed, hr', henv'⟩

/-! ## Iteration -/

/-- The body that waits in a sequence when the iteration `i` of its loop has started, or the closed
sequence after the last iteration. -/
inductive Stage (shape : LoopShape) (x : Instance) (head : Token) (b : Bound)
    (log : Nat → List Event) (s : SequenceId) (after : Token) (i : Nat) (y : Instance) : Prop where
  | body (entry : Token) (hi : i < b.count.toNat) (serves : Iterator.Serves s entry y)
    (other : after.guard ≠ entry.guard) (origin : x.guards.spent.size ≤ entry.guard.index)
    (reaches : InBody shape x b log i y)
  | left (hi : i = b.count.toNat) (handOff : y.handOff s = ⟨[], true, false⟩)
    (reaches : x.Reaches x.stack.frames (Event.loop shape.head.id log b.count) y)

/-- A loop whose sequence is drained, after `i` bodies. -/
structure Draining (shape : LoopShape) (x : Instance) (head : Token) (b : Bound)
    (log : Nat → List Event) (s : SequenceId) (after : Token) (i : Nat) (y : Instance) : Prop where
  spares : x.Spares head.guard y
  unused : after.isConsumed y = false
  opened : s.index < y.sequences.size
  stage : Stage shape x head b log s after i y

theorem ends_enter {E : Fault → Instance → Prop} (log : Nat → List Event)
    (h : CanStart shape x head b) :
    (Iterator.enter shape head).Ends x (fun p y =>
      p.1.loop = shape.head.id ∧ x.sequences.size ≤ p.1.index ∧ p.2.feed = head.feed ∧
      x.guards.spent.size ≤ p.2.guard.index ∧ y.bounds = x.bounds ∧
      Draining shape x head b log p.1 p.2 0 y) E := by
  have hpos := b.toNat_count_pos
  refine Act.Ends.bind (Act.ends_consume_unused h.unused ?_)
  refine Act.Ends.bind (Act.ends_activate_new h.running h.new h.bound ?_)
  refine Act.Ends.bind (Act.ends_openSequence ?_)
  have hspares := (Spares.spend x head).openSequence .fresh
  refine Act.Ends.bind (Act.Ends.mono (Iterator.ends_turn_next hspares (Nat.le_refl _) h.running
    hpos ?_ ?_) ?_ fun _ _ he => he)
  · simp [Instance.spend]
  · simp [Instance.handOff, Instance.spend, Array.getD_eq_getD_getElem?]
  rintro - y ⟨⟨entry, hserves, horigin⟩, -, hs, hbounds, hy, hr⟩
  refine Act.Ends.bind (Act.ends_issue (Act.ends_pure ?_))
  obtain ⟨hne, hentry⟩ := Token.isConsumed_issue hserves.unused
  refine ⟨rfl, Nat.le_refl _, rfl, hy.guards_le, hbounds, hy.issue,
    Guards.isConsumed_issue_next y.guards, hs, ?_⟩
  refine .body entry hpos ⟨hserves.handOff, hentry, hserves.feed⟩ (Ne.symm hne) ?_ ?_
  · simp [horigin, Guards.next, Instance.spend, Guards.spend]
  · exact ⟨hr.running, hr.frames, by rw [hr.events]; simp [Instance.spend]⟩

/-- The end of an iteration hands the next body over, or ends the loop. -/
theorem ends_endIteration {q : SequenceId} {after tail : Token} {t : σ} {u : Instance} {i : Nat}
    (hq : q.loop = shape.head.id) (hbase : x.sequences.size ≤ q.index) (hi : i < b.count.toNat)
    (hu : x.Yields head tail u) (hfeed : tail.feed = some q)
    (hafter : after.isConsumed u = false ∧ after.guard ≠ tail.guard)
    (hopen : q.index < u.sequences.size) (hfresh : u.handOff q = .fresh)
    (hr : AfterBody shape x b log i u) :
    (endIteration tail shape).Ends t u (fun _ t' z =>
      t' = t ∧ z.bounds = u.bounds ∧ Draining shape x head b log q after (i + 1) z) E := by
  have hspent : x.Spares head.guard (u.spend tail) :=
    hu.spares.trans (Spares.spend u tail) hu.origin
  have hafter' := (Spares.spend u tail).isConsumed hafter.1 hafter.2
  unfold endIteration
  simp only [hfeed]
  refine Ends.discard (ends_act ?_)
  refine Act.Ends.bind (Act.ends_consume_unused hu.unused ?_)
  refine Act.Ends.bind (Act.ends_complete_top hr.running hr.frames hq.symm ?_)
  rw [Frame.advance_iterating, ← hq]
  rcases Nat.lt_or_eq_of_le (Nat.succ_le_of_lt hi) with hlt | heq
  · refine Act.Ends.mono (Iterator.ends_turn_next hspent hbase hr.running hlt hopen hfresh) ?_
      fun _ _ he => he
    rintro - z ⟨⟨entry, hserves, horigin⟩, hguards, hopen', hbounds, hspares, hr'⟩
    obtain ⟨hne, hissue⟩ := Token.isConsumed_issue hafter'
    refine ⟨rfl, hbounds, hspares, ?_, hopen', .body entry hlt hserves ?_ ?_ ?_⟩
    · show z.guards.isConsumed after.guard = false
      rw [hguards]
      exact hissue
    · rw [horigin]
      exact hne
    · rw [horigin]
      exact hspent.guards_le
    · refine ⟨hr'.running, hr'.frames.trans (by rw [hq]), ?_⟩
      rw [hr'.events]
      simp [Instance.spend, hr.events, hq]
  · rw [show i + 1 = b.count.toNat from heq]
    refine Act.Ends.mono (Iterator.ends_turn_over hspent hbase hr.running rfl hopen hfresh) ?_
      fun _ _ he => he
    rintro - z ⟨hclosed, hguards, hopen', hbounds, hspares, hr'⟩
    refine ⟨rfl, hbounds, hspares, ?_, hopen', .left rfl hclosed ?_⟩
    · show z.guards.isConsumed after.guard = false
      rw [hguards]
      exact hafter'
    · refine ⟨hr'.running, hr'.frames, ?_⟩
      rw [hr'.events]
      simp [Instance.spend, hr.events, hq, Event.loop, ← heq]

theorem ends_loop_iterator {body : Token → Drive σ Token} (h : CanStart shape x head b)
    (hbody : BodyRuns .iterator shape x b log Env E body) {s : σ} (henv : Env 0 s x.bounds) :
    (loop .iterator shape head body).Ends s x (Leaves .iterator shape x head b log Env) E := by
  refine Ends.bind (ends_act (Act.Ends.mono (ends_enter log h) ?_ fun _ _ he => he))
  rintro ⟨q, after⟩ y ⟨hq, hbase, hfeed, horigin, hbounds, hdrain⟩
  simp only at hq hbase hfeed horigin hdrain
  refine Ends.andThen (Q := fun _ t y => Env b.count.toNat t y.bounds ∧
      Draining shape x head b log q after b.count.toNat y)
    (ends_drain (n := b.count.toNat)
      (fun i t y => Env i t y.bounds ∧ Draining shape x head b log q after i y) ?_ ?_ _ 0
      s y (Nat.zero_le _) b.count_lt_limit ⟨hbounds ▸ henv, hdrain⟩) ?_
  · rintro i hi t z ⟨hnow, hz⟩
    cases hz.stage with
    | left heq => omega
    | body entry _ hserves hother horigin' hr =>
      refine ⟨entry, by rw [hserves.handOff], ?_⟩
      have hfresh : (z.setHandOff q { z.handOff q with queue := [] }).handOff q = .fresh := by
        rw [Iterator.handOff_setHandOff hz.opened, hserves.handOff]
        rfl
      have hspares := hz.spares.setHandOff hbase { z.handOff q with queue := [] }
      have hopen : q.index < (z.setHandOff q { z.handOff q with queue := [] }).sequences.size := by
        simpa [Instance.setHandOff] using hz.opened
      have hrun := hbody.ends (y := z.setHandOff q { z.handOff q with queue := [] }) hi
        hserves.unused ⟨hr.running, hr.frames, hr.events⟩ hnow
      refine hrun.andThen ?_
      rintro tail t' u ⟨htail, hfeed', hr', henv'⟩
      have hentry : x.Yields head entry (z.setHandOff q { z.handOff q with queue := [] }) :=
        ⟨hserves.unused, .inr horigin', hspares⟩
      have hu := hentry.trans htail
      refine (ends_endIteration hq hbase hi hu ((hfeed' rfl).trans hserves.feed)
        (htail.other hz.unused hother) ?_ ?_ hr').mono ?_ fun _ _ _ he => he
      · exact Nat.lt_of_lt_of_le hopen htail.spares.sequences_le
      · exact (htail.spares.handOff hopen).trans hfresh
      rintro - t'' v ⟨rfl, hbounds', hv⟩
      exact ⟨hbounds' ▸ henv', hv⟩
  · rintro t z ⟨hnow, hz⟩
    cases hz.stage with
    | body _ hi => exact absurd hi (Nat.lt_irrefl _)
    | left _ hhand => exact ⟨by rw [hhand], by rw [hhand]; rfl, hnow, hz⟩
  · rintro - t z ⟨hnow, hz⟩
    cases hz.stage with
    | body _ hi => exact absurd hi (Nat.lt_irrefl _)
    | left _ _ hr =>
      exact ends_pure ⟨⟨hz.unused, .inr horigin, hz.spares⟩, by simpa using hfeed, hr, hnow⟩

/-- **A loop does the same through every surface**: it reports its word, restores the stack, and
leaves what the bodies leave. A fault of a body is what the loop stops with. -/
theorem ends_loop {body : Token → Drive σ Token}
    (h : CanStart shape x head b) (hbody : BodyRuns surface shape x b log Env E body) {s : σ}
    (henv : Env 0 s x.bounds) (hE : ∀ e t y, E e t y → y.aborted = true) :
    (loop surface shape head body).Ends s x (Leaves surface shape x head b log Env) E := by
  cases surface with
  | polling => exact ends_loop_polling h hbody henv
  | iterator => exact ends_loop_iterator h hbody henv
  | callback => exact ends_loop_callback h hbody henv hE

/-- A loop whose parameter holds no positive bound stops where it starts, through every surface. -/
theorem ends_loop_unbounded {body : Token → Drive σ Token} {s : σ} {e : Fault}
    {Q : Token → σ → Instance → Prop} (hrun : x.aborted = false)
    (hnew : x.stack.contains shape.head.id = false)
    (hbound : x.bounds.bound shape.head.param = .error e) (hunused : head.isConsumed x = false)
    (hE : E e s ((x.spend head).fail e)) :
    (loop surface shape head body).Ends s x Q E := by
  have hmore : x.hasMore shape.head.id = true := by
    simp [Instance.hasMore, hrun, FrameStack.hasMore, FrameStack.onTop?_of_contains_eq_false hnew]
  have hstart : ∀ {α : Type} {f : Frame → Act α} {R : α → Instance → Prop},
      (head.consume >>= fun _ => Act.activate shape.head.id shape.head.param >>= f).Ends x R
        (fun e' y => E e' s y) := fun {_ _ _} =>
    Act.Ends.bind (Act.ends_consume_unused hunused
      (Act.Ends.bind (Act.ends_activate_unbounded hrun hnew hbound hE)))
  cases surface with
  | iterator => exact Ends.bind (ends_act hstart)
  | callback => exact Ends.bind (ends_act hstart)
  | polling =>
    obtain ⟨rounds, hrounds⟩ : ∃ rounds, Bound.limit = rounds + 1 :=
      Nat.exists_eq_succ_of_ne_zero (Nat.ne_of_gt (Nat.lt_of_le_of_lt (Nat.zero_le _)
        (⟨1, by decide⟩ : Bound).count_lt_limit))
    unfold loop
    rw [hrounds]
    refine Ends.bind (Ends.bind (ends_hasMore ?_))
    rw [hmore, if_pos rfl]
    exact Ends.bind (Ends.bind (ends_act hstart))

end Drive

end LoopProtocol
