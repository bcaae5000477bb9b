import LoopProtocol.Proofs.Dealing

/-!
# The deeds of each move

Every move of a session is a list of legal deeds (`obeys_move`). At most one of them has to be
ordered, and that one is ordered by the move. So are all the moves of a session (`after_deeds`).
-/

namespace LoopProtocol

open Dealing

namespace SessionM

variable {s : Session} {d : Dealing} {α : Type}

/-! ## Transitions -/

/-- A call that gives a state, which is then stored. -/
theorem serves_onGive {i : InstanceId} (c : Call) {a : Act Token} (hact : c.act = .state <$> a)
    (hs : d.Covers s) (hc : d.Legal (.call i c)) (hord : (Deed.call i c).isOrder = false)
    {dest : String} {refused : Fault → Reply} :
    (on i a >>= fun
      | .ok t => give dest i t
      | .error fault => pure (refused fault)).Serves s d := by
  refine (deals_on c hact hs hc hord (Q := fun r d' => ∀ t, r = .ok t → ⟨i, t⟩ ∈ d'.given)
    fun t ht => mem_given_perform hact ht (by simp [Grant.tokens])).andThen ?_
  intro r s' d' hs' _ hr
  cases r with
  | ok t => exact serves_give hs' (hr t rfl)
  | error fault => exact deals_pure hs' trivial

/-- A call that gives nothing, followed by a reply. -/
theorem serves_onReply {i : InstanceId} (c : Call) {a : Act α}
    (hact : c.act = (fun _ => Grant.nothing) <$> a) (hs : d.Covers s) (hc : d.Legal (.call i c))
    (hord : (Deed.call i c).isOrder = false) {reply : Except Fault α → SessionM Reply}
    (hreply : ∀ r s' d', d'.Covers s' → (reply r).Serves s' d') :
    (on i a >>= reply).Serves s d :=
  (deals_on c hact hs hc hord (Q := fun _ _ => True) trivial).andThen fun r s' d' hs' _ _ =>
    hreply r s' d' hs'

theorem serves_answer (hs : d.Covers s) (reply : Reply) (r : Except Fault α) :
    (answer reply r).Serves s d := by
  cases r <;> exact deals_pure hs trivial

theorem legal_of {i : InstanceId} {c : Call} (hc : c.Legal (d.givenBy i) (d.begunOn i))
    (hne : ∀ shape j, c ≠ .advance shape j) : d.Legal (.call i c) :=
  ⟨hc, fun shape j h => absurd h (hne shape j)⟩

theorem serves_take (hs : d.Covers s) (owner : InstanceId) (q : SequenceId) (dest : String) :
    (take owner q dest).Serves s d := by
  refine (deals_on (.take q) rfl hs (i := owner) ⟨trivial, by simp⟩ rfl
    (Q := fun r d' => ∀ t, r = .ok (some t) → ⟨owner, t⟩ ∈ d'.given)
    fun t ht => mem_given_perform rfl ht (by simp [Grant.tokens])).andThen ?_
  intro r s' d' hs' _ hr
  match r with
  | .ok (some t) =>
    refine (serves_store hs' fun g hg => by cases hg; exact hr t rfl).andThen ?_
    exact fun _ _ _ hs'' _ _ => deals_pure hs'' trivial
  | .ok none =>
    refine deals_get ?_
    dsimp only
    split <;> exact deals_pure hs' trivial
  | .error _ => exact deals_pure hs' trivial

theorem serves_finish (hs : d.Covers s) {h : Handle} (hmem : h ∈ d.given) {point : EndPoint}
    (hend : h.token.site.end? = some point) : (finish h point).Serves s d := by
  have hgiven : h.token ∈ d.givenBy h.owner := mem_givenBy.2 hmem
  match point with
  | .protocol closes =>
    exact serves_onReply (.finish h.token closes) rfl hs
      (legal_of ⟨hgiven, hend⟩ (by simp)) rfl fun r _ _ hs' => serves_answer hs' .done r
  | .iteration nextBody =>
    unfold finish
    cases hfeed : h.token.feed with
    | none => exact deals_pure hs trivial
    | some q =>
      refine serves_onReply (.endIteration h.token q nextBody) rfl hs
        (legal_of ⟨hgiven, hend, hfeed⟩ (by simp)) rfl fun r _ _ hs' => ?_
      split <;> exact deals_pure hs' trivial

/-- The sequence of a loop and the state after it are stored. -/
theorem serves_entered (hs : d.Covers s) {owner : InstanceId} {q : SequenceId} {next : Token}
    (hmem : ⟨owner, next⟩ ∈ d.given) (dest after : String) :
    (do
      store dest (.sequence owner q)
      store after (.state ⟨owner, next⟩)
      pure (Reply.entered q.loop next.site)).Serves s d := by
  refine (serves_store hs (by simp)).andThen fun _ s' d' hs' hext _ => ?_
  refine (serves_store hs' fun g hg => ?_).andThen fun _ _ _ hs'' _ _ => deals_pure hs'' trivial
  cases hg
  exact hext.given hmem

theorem serves_enter (hs : d.Covers s) {h : Handle} (hmem : h ∈ d.given) {surface : Surface}
    {shape : LoopShape} (hloop : h.token.site.loop? surface = some shape)
    (hne : surface ≠ .callback) (dest after : String) :
    (enter h surface shape dest after).Serves s d := by
  have hgiven : h.token ∈ d.givenBy h.owner := mem_givenBy.2 hmem
  match surface, hne with
  | .polling, _ =>
    exact serves_onGive (.enter shape h.token) rfl hs (legal_of ⟨hgiven, hloop⟩ (by simp)) rfl
  | .iterator, _ =>
    refine (deals_on (.iterate shape h.token) rfl hs (legal_of ⟨hgiven, hloop⟩ (by simp)) rfl
      (Q := fun r d' => ∀ p, r = .ok p → ⟨h.owner, p.2⟩ ∈ d'.given)
      fun p hp => mem_given_perform rfl hp (by simp [Grant.tokens])).andThen ?_
    intro r s' d' hs' _ hr
    match r with
    | .error _ => exact deals_pure hs' trivial
    | .ok (q, next) => exact serves_entered hs' (hr _ rfl) dest after

/-! ## Callback loops -/

theorem serves_takeTurn {loop : RunningLoop} (hs : d.Covers s)
    (hbegun : (loop.owner, loop.shape) ∈ d.begun)
    (hshape : ∃ site : Site, site.loop? .callback = some loop.shape)
    {r : Except Fault Callback.Turn}
    (hr : ∀ turn, r = .ok turn → ∀ t ∈ (Grant.ofTurn turn).tokens, ⟨loop.owner, t⟩ ∈ d.given) :
    (takeTurn loop r).Serves s d := by
  match r with
  | .ok (.body entry) =>
    have hcov : d.Covers { s with running := loop :: s.running } := by
      refine ⟨hs.world, hs.vars, fun l hl => ?_⟩
      rcases List.mem_cons.1 hl with rfl | hl
      · exact ⟨hbegun, hshape⟩
      · exact hs.running l hl
    refine (deals_modify (Q := fun _ d' => d' = d) hcov rfl).andThen ?_
    rintro _ s' _ hs' _ rfl
    refine (serves_store hs' fun g hg => ?_).andThen fun _ _ _ hs'' _ _ => deals_pure hs'' trivial
    cases hg
    exact hr _ rfl entry (by simp [Grant.ofTurn, Grant.tokens])
  | .ok (.finished after) =>
    exact serves_give hs (hr _ rfl after (by simp [Grant.ofTurn, Grant.tokens]))
  | .error fault => exact deals_pure hs trivial

theorem serves_foreach (hs : d.Covers s) (source : Source) (dest : String) :
    (foreach source dest).Serves s d := by
  refine serves_withSource hs fun h shape s' d' hs' hmem hloop => ?_
  refine (deals_on (.begin shape h.token) rfl hs'
    (legal_of ⟨mem_givenBy.2 hmem, hloop⟩ (by simp)) rfl
    (Q := fun r d'' => (h.owner, shape) ∈ d''.begun ∧
      ∀ turn, r = .ok turn → ∀ t ∈ (Grant.ofTurn turn).tokens, ⟨h.owner, t⟩ ∈ d''.given)
    ⟨by simp [Dealing.perform, Call.begins],
      fun turn hturn t ht => mem_given_perform rfl hturn ht⟩).andThen ?_
  intro r s'' d'' hs'' _ hr
  exact serves_takeTurn hs'' hr.1 ⟨_, hloop⟩ hr.2

/-- The body of a loop failed. -/
theorem serves_bodyFailed (hs : d.Covers s) {loop : RunningLoop}
    (hbegun : (loop.owner, loop.shape) ∈ d.begun) (fault : Fault) :
    (bodyFailed loop fault).Serves s d := by
  have hlegal : d.Legal (.call loop.owner (.fail fault)) :=
    legal_of (List.ne_nil_of_mem (mem_begunOn.2 hbegun)) (by simp)
  exact serves_onReply (.fail fault) rfl hs hlegal rfl fun r _ _ hs' => serves_answer hs' .done r

/-! ## Moves -/

/-- Steps whose deeds are legal, and of which the move orders the one that has to be ordered. The
move was made in the session `s₀`. -/
def Obeys (s₀ : Session) (m : Move) (a : SessionM α) (s : Session) (d : Dealing) : Prop :=
  ∃ es d', d.Runs es d' ∧ d'.Covers (a.run s).2 ∧ (∀ e ∈ es, e.isOrder = true → m.Orders s₀ e) ∧
    es.countP Deed.isOrder ≤ 1

variable {s₀ : Session} {m : Move}

/-- Steps that need no order, and then others. -/
theorem Deals.andThenObeys {β : Type} {a : SessionM α} {f : α → SessionM β}
    {Q : α → Dealing → Prop} (h : a.Deals s d Q)
    (hf : ∀ v s' d', d'.Covers s' → d'.Extends d → Q v d' → (f v).Obeys s₀ m s' d') :
    (a >>= f).Obeys s₀ m s d := by
  obtain ⟨es, d', hr, he, hs, hq⟩ := h
  obtain ⟨fs, d'', hr', hs', hord, hone⟩ := hf _ _ d' hs hr.extends hq
  refine ⟨es ++ fs, d'', hr.append hr', hs', fun e hmem horder => ?_, ?_⟩
  · rcases List.mem_append.1 hmem with hmem | hmem
    · rw [he e hmem] at horder
      cases horder
    · exact hord e hmem horder
  · have hnone : es.countP Deed.isOrder = 0 :=
      List.countP_eq_zero.2 fun e hmem => by simp [he e hmem]
    rw [List.countP_append, hnone, Nat.zero_add]
    exact hone

theorem Deals.obeys {a : SessionM α} {Q : α → Dealing → Prop} (h : a.Deals s d Q) :
    a.Obeys s₀ m s d := by
  obtain ⟨es, d', hr, he, hs, -⟩ := h
  refine ⟨es, d', hr, hs, fun e hmem hord => ?_, ?_⟩
  · rw [he e hmem] at hord
    cases hord
  · rw [List.countP_eq_zero.2 fun e hmem => by simp [he e hmem]]
    exact Nat.zero_le 1

/-- A call that the move orders if it has to be ordered, and what is done with its answer. -/
theorem obeys_on {β : Type} {i : InstanceId} (c : Call) {a : Act α} {g : α → Grant}
    (hact : c.act = g <$> a) (hs : d.Covers s) (hc : d.Legal (.call i c))
    (hm : (Deed.call i c).isOrder = true → m.Orders s₀ (.call i c))
    {f : Except Fault α → SessionM β}
    (hf : ∀ s', (d.perform (.call i c)).Covers s' →
      (f (d.world.on i a).1).Serves s' (d.perform (.call i c))) :
    (on i a >>= f).Obeys s₀ m s d := by
  obtain ⟨es, d', hr, he, hs', -⟩ := hf _ (covers_call hact hs)
  rw [hs.world] at hs'
  refine ⟨.call i c :: es, d', .cons hc hr, hs', fun e hmem hord => ?_, ?_⟩
  · rcases List.mem_cons.1 hmem with rfl | hmem
    · exact hm hord
    · rw [he e hmem] at hord
      cases hord
  · rw [List.countP_cons, List.countP_eq_zero.2 fun e hmem => by simp [he e hmem]]
    split <;> simp

/-- An ordered call that gives a state, which is then stored. -/
theorem obeys_onGive {i : InstanceId} (c : Call) {a : Act Token} (hact : c.act = .state <$> a)
    (hs : d.Covers s) (hc : d.Legal (.call i c)) (hm : m.Orders s₀ (.call i c)) {dest : String} :
    (on i a >>= fun
      | .ok t => give dest i t
      | .error fault => pure (.fault fault)).Obeys s₀ m s d := by
  refine obeys_on c hact hs hc (fun _ => hm) fun s' hs' => ?_
  cases hr : (d.world.on i a).1 with
  | ok t => exact serves_give hs' (mem_given_perform hact hr (by simp [Grant.tokens]))
  | error fault => exact deals_pure hs' trivial

theorem obeys_get {f : Session → SessionM α} (h : (f s).Obeys s₀ m s d) :
    (get >>= f).Obeys s₀ m s d := h

theorem obeys_withState (hs : d.Covers s) {name : String} {f : Handle → SessionM Reply}
    (hf : ∀ h ∈ d.given, s.vars.get? name = some (.state h) → (f h).Obeys s₀ m s d) :
    (withState name f).Obeys s₀ m s d := by
  have hnone : ∀ r : Reply, (pure r : SessionM Reply).Obeys s₀ m s d := fun r =>
    (deals_pure (Q := fun _ _ => True) hs trivial).obeys
  refine obeys_get ?_
  split
  · next h heq => exact hf h (hs.mem heq) heq
  · exact hnone _
  · exact hnone _

theorem obeys_withInstance (hs : d.Covers s) {i : InstanceId} {f : Instance → SessionM Reply}
    (hf : ∀ x, (f x).Obeys s₀ m s d) : (withInstance i f).Obeys s₀ m s d := by
  refine obeys_get ?_
  split
  · exact hf _
  · exact (deals_pure (Q := fun _ _ => True) hs trivial).obeys

theorem obeys_useState (hs : d.Covers s) {h : Handle} (hmem : h ∈ d.given) {name : String}
    (hget : s₀.vars.get? name = some (.state h)) (u : Use) :
    (useState h u).Obeys s₀ (.act (.use name u)) s d := by
  have hlegal : ∀ u, d.Legal (.call h.owner (.use h.token u)) := fun u =>
    legal_of (mem_givenBy.2 hmem) (by simp)
  have horders : ∀ u, (Move.act (.use name u)).Orders s₀ (.call h.owner (.use h.token u)) :=
    fun _ => ⟨rfl, hget⟩
  cases u <;> exact obeys_on (.use h.token _) rfl hs (hlegal _) (fun _ => horders _) fun s' hs' =>
    serves_answer hs' _ _

/-- What a body returned is released, given back or refused. -/
theorem obeys_bodyReturned (hs : d.Covers s) {loop : RunningLoop} {outer : List RunningLoop}
    {name : String} (hrunning : s₀.running = loop :: outer)
    (hbegun : (loop.owner, loop.shape) ∈ d.begun)
    (hshape : ∃ site : Site, site.loop? .callback = some loop.shape) {held : Option Holding}
    (hget : s₀.vars.get? name = held) (hheld : ∀ h, held = some (.state h) → h ∈ d.given) :
    (bodyReturned loop held).Obeys s₀ (.returnState name) s d := by
  match held with
  | none =>
    refine Deals.obeys (Q := fun _ _ => True) ?_
    exact (serves_release hs none).andThen fun _ _ _ hs' hext _ =>
      serves_bodyFailed hs' (hext.begun hbegun) noTail
  | some (.sequence owner q) =>
    refine Deals.obeys (Q := fun _ _ => True) ?_
    exact (serves_release hs (some (.sequence owner q))).andThen fun _ _ _ hs' hext _ =>
      serves_bodyFailed hs' (hext.begun hbegun) noTail
  | some (.state tail) =>
    unfold bodyReturned
    by_cases htail : tail.token.site = loop.shape.tail
    · simp only [if_pos htail]
      obtain ⟨site, hsite⟩ := hshape
      have hlegal : d.Legal (.call tail.owner (.giveBack tail.token)) :=
        legal_of ⟨mem_givenBy.2 (hheld tail rfl), site, loop.shape, hsite, htail⟩ (by simp)
      refine (deals_on (.giveBack tail.token) rfl hs hlegal rfl
        (Q := fun r d' => (∃ v, r = .ok v) → d'.due = some tail) ?_).andThenObeys ?_
      · rintro ⟨v, hv⟩
        simp [Dealing.perform, takesBack, hv]
      · intro r s' d' hs' hext hdue
        cases r with
        | error fault => exact (deals_pure (Q := fun _ _ => True) hs' trivial).obeys
        | ok v =>
          have hadvance : d'.Legal (.call loop.owner (.advance loop.shape tail.owner)) := by
            refine ⟨mem_begunOn.2 (hext.begun hbegun), ?_⟩
            rintro shape j ⟨⟩
            exact ⟨tail.token, hdue ⟨v, rfl⟩, htail⟩
          have horders : (Move.returnState name).Orders s₀
              (.call loop.owner (.advance loop.shape tail.owner)) :=
            ⟨loop, outer, tail.token, hrunning, rfl, rfl, hget⟩
          refine obeys_on (.advance loop.shape tail.owner) rfl hs' hadvance (fun _ => horders)
            fun s'' hs'' => ?_
          have hbegun' := (extends_perform d' (.call loop.owner
            (.advance loop.shape tail.owner))).begun (hext.begun hbegun)
          exact serves_takeTurn hs'' hbegun' ⟨site, hsite⟩ fun turn hturn t ht =>
            mem_given_perform rfl hturn ht
    · simp only [if_neg htail]
      exact (serves_bodyFailed hs hbegun noTail).obeys

/-- The body of the innermost loop returned. -/
theorem obeys_returning (hs : d.Covers s) {f : RunningLoop → SessionM Reply}
    (hf : ∀ loop outer, s.running = loop :: outer → d.Covers { s with running := outer } →
      (loop.owner, loop.shape) ∈ d.begun →
      (∃ site : Site, site.loop? .callback = some loop.shape) →
      (f loop).Obeys s₀ m { s with running := outer } d) :
    (returning f).Obeys s₀ m s d := by
  refine obeys_get ?_
  split
  · next loop outer hrun =>
    obtain ⟨hbegun, hshape⟩ := hs.running loop (by simp [hrun])
    have hcov : d.Covers { s with running := outer } :=
      ⟨hs.world, hs.vars, fun l hl => hs.running l (by simp [hrun, hl])⟩
    exact hf loop outer hrun hcov hbegun hshape
  · exact (deals_pure (Q := fun _ _ => True) hs trivial).obeys

/-- The move orders the deeds that have to be ordered on what was stored in a variable. -/
theorem obeys_remove (hs : d.Covers s) {name : String} {f : Option Holding → SessionM α}
    (hf : ∀ s' : Session, d.Covers s' →
      (∀ h, s.vars.get? name = some (.state h) → h ∈ d.given) →
      (f (s.vars.get? name)).Obeys s₀ m s' d) : (remove name >>= f).Obeys s₀ m s d := by
  exact hf { s with vars := Variables.erase s.vars name } (hs.erase name) fun h hget => hs.mem hget

theorem enterable?_eq_some {given : Option Surface} {site : Site} {p : Surface × LoopShape}
    (h : enterable? given site = some p) : site.loop? p.1 = some p.2 ∧ p.1 ≠ .callback := by
  unfold enterable? at h
  cases hsurface : surfaceAt? site given with
  | none => simp [hsurface] at h
  | some surface =>
    by_cases hcb : surface = .callback
    · simp [hsurface, hcb] at h
    · simp only [hsurface, Option.bind_eq_bind, Option.bind_some, if_neg hcb,
        Option.bind_eq_some_iff] at h
      obtain ⟨shape, hloop, hp⟩ := h
      cases hp
      exact ⟨hloop, hcb⟩

/-- **An action of a session is a list of legal deeds**, of which it orders what it has to. -/
theorem obeys_perform (hs : d.Covers s) (action : Action) :
    (perform action).Obeys s (.act action) s d := by
  have hpure : ∀ (s' : Session) (d' : Dealing) (r : Reply), d'.Covers s' →
      (pure r : SessionM Reply).Serves s' d' := fun _ _ _ h => deals_pure h trivial
  cases action with
  | issue site i dest =>
    have horders : (Move.act (.issue site i dest)).Orders s (.call i (.issue site)) := ⟨rfl, rfl⟩
    exact obeys_withInstance hs fun _ =>
      obeys_onGive (.issue site) rfl hs (legal_of trivial (by simp)) horders
  | setParam name bound i =>
    have horders : (Move.act (.setParam name bound i)).Orders s
        (.call i (.setParam name bound)) := ⟨rfl, rfl, rfl⟩
    refine obeys_withInstance hs fun _ => ?_
    refine obeys_on (.setParam name bound) rfl hs (legal_of trivial (by simp)) (fun _ => horders)
      fun s' hs' => ?_
    split <;> exact hpure _ _ _ hs'
  | params i => exact (serves_withInstance hs fun _ => hpure _ _ _ hs).obeys
  | top i => exact (serves_withInstance hs fun _ => hpure _ _ _ hs).obeys
  | frames i => exact (serves_withInstance hs fun _ => hpure _ _ _ hs).obeys
  | events r => exact (deals_get (hpure s d _ hs)).obeys
  | clearEvents r =>
    refine ⟨[.clear r], _, .cons trivial (.nil _), ⟨?_, hs.vars, hs.running⟩, ?_, ?_⟩
    · simp only [Dealing.perform, hs.world]
      rfl
    · rintro e he -
      obtain rfl := List.mem_singleton.1 he
      rfl
    · simp [Deed.isOrder]
  | raise fault => exact (hpure s d _ hs).obeys
  | «alias» of dest => exact (serves_withState hs fun h hmem => serves_give hs hmem).obeys
  | drop of =>
    refine Deals.obeys (Q := fun _ _ => True) ?_
    refine (deals_remove hs of).andThen fun held s' d' hs' _ _ => ?_
    cases held with
    | none => exact hpure _ _ _ hs'
    | some h => exact (serves_release hs' (some h)).andThen fun _ _ _ h' _ _ => hpure _ _ _ h'
  | info of =>
    exact (serves_withState hs fun _ _ => serves_withInstance hs fun _ => hpure _ _ _ hs).obeys
  | loopId of =>
    refine (serves_withState hs fun h _ => ?_).obeys
    split <;> exact hpure _ _ _ hs
  | hasMore of =>
    refine (serves_withState hs fun h _ => serves_withInstance hs fun x => ?_).obeys
    split <;> exact hpure _ _ _ hs
  | take of dest =>
    exact (serves_withSequence hs fun i q =>
      (serves_take hs i q dest).andThen fun _ _ _ h' _ _ => hpure _ _ _ h').obeys
  | use of u => exact obeys_withState hs fun h hmem hget => obeys_useState hs hmem hget u
  | fork of dest =>
    refine obeys_withState hs fun h hmem _ => ?_
    have horders : (Move.act (.fork of dest)).Orders s (.call h.owner (.fork h.token)) := trivial
    by_cases hsite : h.token.site = .item
    · simp only [if_pos hsite]
      exact obeys_onGive (.fork h.token) rfl hs
        (legal_of ⟨mem_givenBy.2 hmem, hsite⟩ (by simp)) horders
    · simp only [if_neg hsite]
      exact (hpure s d _ hs).obeys
  | enter source surface dest after =>
    refine (serves_withSource hs fun h p s' d' hs' hmem hp => ?_).obeys
    obtain ⟨hloop, hne⟩ := enterable?_eq_some hp
    exact serves_enter hs' hmem hloop hne dest after
  | exit source dest =>
    refine (serves_withSource hs fun h shape s' d' hs' hmem hloop => ?_).obeys
    exact serves_onGive (.exit shape h.token) rfl hs'
      (legal_of ⟨mem_givenBy.2 hmem, hloop⟩ (by simp)) rfl
  | send source label dest =>
    refine (serves_withSource hs fun h point s' d' hs' hmem hpoint => ?_).obeys
    exact serves_onGive (.send h.token point) rfl hs'
      (legal_of ⟨mem_givenBy.2 hmem, (Option.filter_eq_some_iff.1 hpoint).1⟩ (by simp)) rfl
  | finish source =>
    exact (serves_withSource hs fun h point s' d' hs' hmem hend =>
      serves_finish hs' hmem hend).obeys
  | finishTaking source sequence dest =>
    refine (serves_withSource hs fun h point s' d' hs' hmem hend => ?_).obeys
    refine serves_withSequence hs' fun i q => ?_
    refine (serves_finish hs' hmem hend).andThen fun ended s'' d'' hs'' _ _ => ?_
    exact (serves_take hs'' i q dest).andThen fun _ _ _ h' _ _ => hpure _ _ _ h'
  | finishDropping source sequence =>
    refine (serves_withSource hs fun h point s' d' hs' hmem hend => ?_).obeys
    refine serves_withSequence hs' fun i q => ?_
    refine (serves_finish hs' hmem hend).andThen fun ended s'' d'' hs'' _ _ => ?_
    refine (deals_remove hs'' sequence).andThen fun held _ _ hs₃ _ _ => ?_
    refine (serves_release hs₃ held).andThen fun _ _ _ hs₄ _ _ => ?_
    split <;> exact hpure _ _ _ hs₄

/-- **A move of a session is a list of legal deeds**, of which it orders what it has to. -/
theorem obeys_move (hs : d.Covers s) (m : Move) : (move m).Obeys s m s d := by
  cases m with
  | act action => exact obeys_perform hs action
  | foreach source dest => exact (serves_foreach hs source dest).obeys
  | returnState name =>
    refine obeys_returning hs fun loop outer hrunning hs' hbegun hshape => ?_
    exact obeys_remove hs' fun s'' hs'' hheld =>
      obeys_bodyReturned hs'' hrunning hbegun hshape rfl hheld
  | returnFault fault =>
    exact obeys_returning hs fun loop outer _ hs' hbegun _ =>
      (serves_bodyFailed hs' hbegun fault).obeys

end SessionM

/-! ## Runs of moves -/

/-- A session after some moves, each made on what the ones before it left. -/
def Session.after (s : Session) (moves : List Move) : Session :=
  moves.foldl (fun s m => ((SessionM.move m).run s).2) s

theorem Session.after_append (s : Session) (moves moves' : List Move) :
    s.after (moves ++ moves') = (s.after moves).after moves' :=
  List.foldl_append

/-- A driver that was given nothing yet. -/
def Dealing.start (w : World) : Dealing := ⟨w, [], [], none⟩

theorem Dealing.covers_start (recorders : Nat)
    (instances : List (BoundTable × Option RecorderId)) :
    (Dealing.start (Session.start recorders instances).world).Covers
      (Session.start recorders instances) :=
  ⟨rfl, by simp [Session.start], by simp [Session.start]⟩

/-- One of the moves orders the deed, in the session in which it is made. -/
def Session.Ordered (s : Session) (moves : List Move) (e : Deed) : Prop :=
  ∃ before m later, moves = before ++ m :: later ∧ m.Orders (s.after before) e

/-- **The moves of a session are legal deeds.** Each deed that has to be ordered was ordered by one
of the moves, and no two of them by the same. -/
theorem Session.after_deeds {s : Session} {d : Dealing} (hs : d.Covers s) (moves : List Move) :
    ∃ es d', d.Runs es d' ∧ d'.Covers (s.after moves) ∧
      (∀ e ∈ es, e.isOrder = true → s.Ordered moves e) ∧
      ∀ p : Deed → Bool, ∀ q : Move → Bool, (∀ e, p e = true → e.isOrder = true) →
        (∀ s m e, m.Orders s e → p e = true → q m = true) → es.countP p ≤ moves.countP q := by
  induction moves generalizing s d with
  | nil => exact ⟨[], d, .nil d, hs, by simp, by simp⟩
  | cons m moves ih =>
    obtain ⟨es, d', hr, hs', horders, hone⟩ := SessionM.obeys_move hs m
    obtain ⟨fs, d'', hr', hs'', horders', hcount⟩ := ih hs'
    refine ⟨es ++ fs, d'', hr.append hr', hs'', fun e hmem hord => ?_, fun p q hp hq => ?_⟩
    · rcases List.mem_append.1 hmem with hmem | hmem
      · exact ⟨[], m, moves, rfl, horders e hmem hord⟩
      · obtain ⟨before, m', later, rfl, h⟩ := horders' e hmem hord
        exact ⟨m :: before, m', later, rfl, h⟩
    · have hle : es.countP p ≤ es.countP Deed.isOrder := List.countP_mono_left fun e _ => hp e
      have hrest := hcount p q hp hq
      rw [List.countP_append, List.countP_cons]
      by_cases hm : q m = true
      · rw [if_pos hm]
        omega
      · have hzero : es.countP p = 0 := by
          rw [List.countP_eq_zero]
          exact fun e hmem hpe => hm (hq s m e (horders e hmem (hp e hpe)) hpe)
        rw [if_neg hm]
        omega

end LoopProtocol
