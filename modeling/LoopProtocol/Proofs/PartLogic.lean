import LoopProtocol.Proofs.IdleMove
import LoopProtocol.Proofs.Part

/-!
# Steps within a part, and beside it

Steps that work on the instance `i` alone do the same in a session and in its part of `i`
(`Within`), although in the session they may put things into variables that hold something of other
instances. Steps that work on other instances leave the part of `i` as it is (`Beside`), unless they
put things into variables that hold something of `i`: then it is as if those variables were dropped
(`Overwrites`).
-/

namespace LoopProtocol

/-- Whether a variable holds something of an instance. -/
def Session.holds (s : Session) (i : InstanceId) (name : String) : Bool :=
  (s.vars.get? name).any (·.owner = i)

/-- The variables that a take puts something into. -/
def Taken.stored (dest : String) : Taken → List String
  | .body _ => [dest]
  | _ => []

/-- The variables that a step puts something into, in this order. A step that replies a state puts
it into `dest`, and what follows a loop that was entered is put into `after`. -/
def Reply.stored (dest after : String) : Reply → List String
  | .state _ => [dest]
  | .entered _ _ => [dest, after]
  | .called _ => [SessionM.bodyVariable]
  | .taken t | .endTaking _ t => t.stored dest
  | _ => []

/-- Drops some variables, one after the other. -/
def dropAll (names : List String) : List Move := names.map fun name => .act (.drop name)

theorem Call.recorder_on {α : Type} (c : Call) {a : Act α} {g : α → Grant} (hact : c.act = g <$> a)
    (x : Instance) : (a.on x).2.recorder = x.recorder := by
  have hkept := (c.grown x).recorder
  rw [hact, Act.on_map] at hkept
  exact hkept

namespace Session

variable {i : InstanceId} {s t : Session} {name : String}

namespace Part

theorem get? (h : s.Part i t) (name : String) :
    t.vars.get? name = (s.vars.get? name).filter (·.owner = i) := by
  rw [h.vars]
  exact Variables.get?_ofOwner h.names i name

/-- A variable that holds nothing of other instances. -/
theorem get?_of_owner (h : s.Part i t)
    (hown : ∀ held, s.vars.get? name = some held → held.owner = i) :
    t.vars.get? name = s.vars.get? name := by
  rw [h.get?]
  cases hget : s.vars.get? name with
  | none => rfl
  | some held => exact Option.filter_some_pos (by simpa using hown held hget)

theorem get?_eq_none (h : s.Part i t) (hnot : s.holds i name = false) :
    t.vars.get? name = none := by
  rw [h.get?]
  unfold holds at hnot
  cases hget : s.vars.get? name with
  | none => rfl
  | some held =>
    rw [hget] at hnot
    exact Option.filter_some_neg (by simpa using hnot)

/-- What the part holds is what the session holds of the instance. -/
theorem isSome_get? (h : s.Part i t) (name : String) :
    (t.vars.get? name).isSome = s.holds i name := by
  rw [h.get?]
  unfold holds
  cases s.vars.get? name with
  | none => rfl
  | some held => cases hown : decide (held.owner = i) <;> simp [hown]

theorem withWorld (h : s.Part i t) {w v : World} (hw : w.Agree i v) :
    Session.Part i { s with world := w } { t with world := v } :=
  ⟨hw, h.vars, h.running, h.names⟩

/-- A variable is taken out of both. -/
theorem erase (h : s.Part i t) (name : String) :
    Session.Part i { s with vars := Variables.erase s.vars name }
      { t with vars := Variables.erase t.vars name } where
  world := h.world
  vars := by
    show Variables.erase t.vars name = _
    rw [h.vars]
    exact (Variables.erase_ofOwner s.vars i name).symm
  running := h.running
  names := Variables.nodup_erase h.names name

/-- A variable that holds nothing of the instance is taken out. -/
theorem erase_other (h : s.Part i t) (hnot : s.holds i name = false) :
    Session.Part i { s with vars := Variables.erase s.vars name } t := by
  have herased := h.erase name
  rw [Variables.erase_of_get?_eq_none (h.get?_eq_none hnot)] at herased
  exact herased

theorem insert (h : s.Part i t) {held : Holding} (hown : held.owner = i) (name : String) :
    Session.Part i { s with vars := Variables.insert s.vars name held }
      { t with vars := Variables.insert t.vars name held } where
  world := h.world
  vars := by
    show Variables.insert t.vars name held = _
    rw [h.vars]
    exact (Variables.insert_ofOwner hown s.vars name).symm
  running := h.running
  names := Variables.nodup_insert h.names name held

/-- Something of another instance is put into a variable. -/
theorem insert_other (h : s.Part i t) {held : Holding} (hown : held.owner ≠ i) (name : String) :
    Session.Part i { s with vars := Variables.insert s.vars name held }
      { t with vars := Variables.erase t.vars name } where
  world := h.world
  vars := by
    show Variables.erase t.vars name = _
    rw [h.vars]
    exact (Variables.insert_ofOwner_of_ne hown s.vars name).symm
  running := h.running
  names := Variables.nodup_insert h.names name held

/-- A loop is started on the instance. -/
theorem push (h : s.Part i t) {loop : RunningLoop} (hown : loop.owner = i) :
    Session.Part i { s with running := loop :: s.running }
      { t with running := loop :: t.running } where
  world := h.world
  vars := h.vars
  running := by
    show loop :: t.running = _
    rw [h.running, List.filter_cons_of_pos (by simpa using hown)]
  names := h.names

theorem push_other (h : s.Part i t) {loop : RunningLoop} (hown : loop.owner ≠ i) :
    Session.Part i { s with running := loop :: s.running } t where
  world := h.world
  vars := h.vars
  running := by
    show t.running = (loop :: s.running).filter _
    rw [h.running, List.filter_cons_of_neg (by simpa using hown)]
  names := h.names

end Part

end Session

namespace SessionM

variable {α β : Type} {i j : InstanceId} {s t : Session}

/-! ## Steps within a part -/

/-- Made in both sessions, the steps are answered the same, and leave a part of what they leave. -/
def Matches (i : InstanceId) (s t : Session) (a : SessionM α) : Prop :=
  (a.run t).1 = (a.run s).1 ∧ (a.run s).2.Part i (a.run t).2

/-- Steps that do the same in every session and its part. -/
def Within (i : InstanceId) (a : SessionM α) : Prop := ∀ s t, s.Part i t → Matches i s t a

theorem Matches.bind {a : SessionM α} {f : α → SessionM β} (h : Matches i s t a)
    (hf : ∀ v, Within i (f v)) : Matches i s t (a >>= f) := by
  obtain ⟨heq, hpart⟩ := h
  have hrun : ((a >>= f).run t) = (f (a.run s).1).run (a.run t).2 := by
    rw [← heq]
    rfl
  unfold Matches
  rw [hrun]
  exact hf _ _ _ hpart

theorem within_pure (v : α) : Within i (pure v : SessionM α) := fun _ _ h => ⟨rfl, h⟩

theorem Within.bind {a : SessionM α} {f : α → SessionM β} (h : Within i a)
    (hf : ∀ v, Within i (f v)) : Within i (a >>= f) := fun s t hp => (h s t hp).bind hf

theorem Within.discard {a : SessionM α} (h : Within i a) : Within i (discard a) :=
  fun s t hp => ⟨rfl, (h s t hp).2⟩

theorem within_on (c : Call) {a : Act α} {g : α → Grant} (hact : c.act = g <$> a) :
    Within i (on i a) := fun _ _ h => by
  obtain ⟨heq, hw⟩ := h.world.on_self (c.recorder_on hact)
  exact ⟨heq, h.withWorld hw⟩

theorem within_release {held : Option Holding} (hown : ∀ h, held = some h → h.owner = i) :
    Within i (release held) := by
  rcases held with _ | _ | ⟨owner, q⟩
  · exact within_pure ()
  · exact within_pure ()
  · obtain rfl : owner = i := hown _ rfl
    exact (within_on (.abandon q) rfl).discard

/-! ## Steps beside a part -/

/-- Steps that leave the part of the instance as it is. -/
def Beside (i : InstanceId) (a : SessionM α) : Prop :=
  ∀ s t, s.Part i t → (a.run s).2.Part i t

theorem beside_pure (v : α) : Beside i (pure v : SessionM α) := fun _ _ h => h

theorem Beside.bind {a : SessionM α} {f : α → SessionM β} (h : Beside i a)
    (hf : ∀ v, Beside i (f v)) : Beside i (a >>= f) := fun s t hp => hf _ _ _ (h s t hp)

theorem Beside.discard {a : SessionM α} (h : Beside i a) : Beside i (discard a) := h

theorem beside_on (hne : j ≠ i) (c : Call) {a : Act α} {g : α → Grant} (hact : c.act = g <$> a) :
    Beside i (on j a) := fun _ _ h => h.withWorld (h.world.on_other hne (c.recorder_on hact))

theorem beside_release {held : Option Holding} (hown : ∀ h, held = some h → h.owner ≠ i) :
    Beside i (release held) := by
  rcases held with _ | _ | ⟨owner, q⟩
  · exact beside_pure ()
  · exact beside_pure ()
  · exact (beside_on (hown _ rfl) (.abandon q) rfl).discard

/-! ## Putting things into variables -/

/-- What a variable held is let go of in both, unless it is something of another instance, which the
part does not have. -/
theorem part_release {s' t' : Session} (h : s.Part i t) (h' : s'.Part i t') (name : String) :
    ((release (s.vars.get? name)).run s').2.Part i ((release (t.vars.get? name)).run t').2 := by
  rw [h.get?]
  cases hget : s.vars.get? name with
  | none => exact h'
  | some held =>
    by_cases hown : held.owner = i
    · rw [Option.filter_some_pos (by simpa using hown)]
      exact (within_release (fun _ he => by cases he; exact hown) _ _ h').2
    · rw [Option.filter_some_neg (by simpa using hown)]
      exact beside_release (fun _ he => by cases he; exact hown) _ _ h'

theorem within_store (held : Holding) (hown : held.owner = i) (name : String) :
    Within i (store name held) := fun _ _ h =>
  ⟨rfl, part_release h ((h.erase name).insert hown name) name⟩

theorem within_give {owner : InstanceId} (hown : owner = i) (dest : String) (token : Token) :
    Within i (give dest owner token) :=
  (within_store (.state ⟨owner, token⟩) hown dest).bind fun _ => within_pure _

/-- Steps on other instances that put things into the variables that depend on the answer: what the
part then has is what it has after dropping them. -/
def Overwrites (i : InstanceId) (names : α → List String) (a : SessionM α) : Prop :=
  ∀ s t, s.Part i t → (a.run s).2.Part i (t.after (dropAll (names (a.run s).1)))

theorem overwrites_of_beside {names : α → List String} {a : SessionM α} (h : Beside i a)
    (hnames : ∀ s, names (a.run s).1 = []) : Overwrites i names a := fun s t hp => by
  rw [hnames]
  exact h s t hp

theorem overwrites_pure {names : α → List String} {v : α} (hnames : names v = []) :
    Overwrites i names (pure v) := overwrites_of_beside (beside_pure v) fun _ => hnames

theorem Overwrites.after {names : β → List String} {a : SessionM α} {f : α → SessionM β}
    (h : Beside i a) (hf : ∀ v, Overwrites i names (f v)) : Overwrites i names (a >>= f) :=
  fun s t hp => hf _ _ _ (h s t hp)

theorem after_drop (t : Session) (name : String) : t.after [.act (.drop name)] =
    ((release (t.vars.get? name)).run { t with vars := Variables.erase t.vars name }).2 :=
  congrArg Prod.snd (run_drop t name)

theorem overwrites_store (held : Holding) (hown : held.owner ≠ i) (name : String) :
    Overwrites i (fun _ => [name]) (store name held) := fun s t h => by
  have hinserted := (h.erase name).insert_other hown name
  have herased : Variables.erase (Variables.erase t.vars name) name =
      Variables.erase t.vars name :=
    Variables.erase_of_get?_eq_none (Variables.get?_erase_self t.vars name)
  rw [herased] at hinserted
  rw [run_store]
  show Session.Part i _ (t.after [.act (.drop name)])
  rw [after_drop]
  exact part_release h hinserted name

/-- The second of two stores is into a variable of its own. -/
theorem Overwrites.andThen {names names' : List String} {a : SessionM α} {f : α → SessionM β}
    (h : Overwrites i (fun _ => names) a) (hf : ∀ v, Overwrites i (fun _ => names') (f v)) :
    Overwrites i (fun _ => names ++ names') (a >>= f) := fun s t hp => by
  have hboth := hf (a.run s).1 _ _ (h s t hp)
  rw [← Session.after_append, dropAll, dropAll, ← List.map_append] at hboth
  exact hboth

theorem overwrites_give {owner : InstanceId} (hown : owner ≠ i) (dest after : String)
    (token : Token) : Overwrites i (Reply.stored dest after) (give dest owner token) :=
  overwrites_store (.state ⟨owner, token⟩) hown dest

/-! ## What a step works on -/

section Works

variable {name : String}

theorem matches_withState (h : s.Part i t)
    (hown : ∀ held, s.vars.get? name = some held → held.owner = i) {f : Handle → SessionM Reply}
    (hf : ∀ g, g.owner = i → Matches i s t (f g)) : Matches i s t (withState name f) := by
  have hsame := h.get?_of_owner hown
  unfold Matches
  simp only [withState, StateT.run_bind, StateT.run_get, pure_bind, hsame]
  cases hget : s.vars.get? name with
  | none => exact within_pure _ _ _ h
  | some held =>
    cases held with
    | state g => exact hf g (hown _ hget)
    | sequence owner q => exact within_pure _ _ _ h

theorem matches_withSequence (h : s.Part i t)
    (hown : ∀ held, s.vars.get? name = some held → held.owner = i)
    {f : InstanceId → SequenceId → SessionM Reply} (hf : ∀ q, Matches i s t (f i q)) :
    Matches i s t (withSequence name f) := by
  have hsame := h.get?_of_owner hown
  unfold Matches
  simp only [withSequence, StateT.run_bind, StateT.run_get, pure_bind, hsame]
  cases hget : s.vars.get? name with
  | none => exact within_pure _ _ _ h
  | some held =>
    cases held with
    | state g => exact within_pure _ _ _ h
    | sequence owner q =>
      obtain rfl : owner = i := hown _ hget
      exact hf q

theorem within_withInstance {f : Instance → SessionM Reply} (hf : ∀ x, Within i (f x)) :
    Within i (withInstance i f) := fun s t h => by
  have hsame := h.world.instance?
  unfold Matches
  simp only [withInstance, StateT.run_bind, StateT.run_get, pure_bind, hsame]
  cases s.world.instance? i with
  | none => exact within_pure _ _ _ h
  | some x => exact hf x _ _ h

theorem part_moveOut (h : s.Part i t) (source : Source) :
    (s.moveOut source).Part i (t.moveOut source) := by
  unfold Session.moveOut
  cases source.keep with
  | true => exact h
  | false => exact h.erase source.name

theorem matches_withSource (h : s.Part i t) {source : Source}
    (hown : ∀ held, s.vars.get? source.name = some held → held.owner = i)
    {possible : Site → Option α} {f : Handle → α → SessionM Reply}
    (hf : ∀ g v, g.owner = i → Matches i (s.moveOut source) (t.moveOut source) (f g v)) :
    Matches i s t (withSource source possible f) := by
  refine matches_withState h hown fun g hg => ?_
  cases hv : possible g.token.site with
  | none => exact within_pure _ _ _ h
  | some v =>
    have hmoved := hf g v hg
    unfold Session.moveOut at hmoved
    cases hkeep : source.keep <;> rw [hkeep] at hmoved <;> exact hmoved

/-- No variable gets something when a state is moved out of one. -/
theorem get?_moveOut {source : Source} {held : Holding}
    (hget : (s.moveOut source).vars.get? name = some held) : s.vars.get? name = some held := by
  unfold Session.moveOut at hget
  split at hget
  · exact hget
  · by_cases hname : name = source.name
    · subst hname
      rw [Variables.get?_erase_self] at hget
      cases hget
    · rwa [Variables.get?_erase_of_ne hname] at hget

end Works

/-! ## What a step does -/

theorem within_answer (reply : Reply) (r : Except Fault α) : Within i (answer reply r) := by
  cases r <;> exact within_pure _

theorem useState_eq (g : Handle) (u : Use) : ∃ reply : Reply,
    (∀ dest after, reply.stored dest after = []) ∧
    useState g u = on g.owner (u.act g.token) >>= answer reply := by
  cases u <;> exact ⟨_, fun _ _ => rfl, rfl⟩

/-- A call that gives a state, which is then stored. -/
theorem within_onGive {owner : InstanceId} (hown : owner = i) (c : Call) {a : Act Token}
    (hact : c.act = .state <$> a) (dest : String) : Within i (on owner a >>= fun
      | .ok t => give dest owner t
      | .error fault => pure (.fault fault)) := by
  subst hown
  refine (within_on c hact).bind fun r => ?_
  cases r with
  | ok t => exact within_give rfl dest t
  | error fault => exact within_pure _

theorem within_finish {g : Handle} (hown : g.owner = i) (point : EndPoint) :
    Within i (finish g point) := by
  obtain ⟨owner, token⟩ := g
  obtain rfl : owner = i := hown
  cases point with
  | protocol closes =>
    exact (within_on (.finish token closes) rfl).bind fun r => within_answer .done r
  | iteration nextBody =>
    simp only [finish]
    split
    · exact within_pure _
    · next q _ =>
      refine (within_on (.endIteration token q nextBody) rfl).bind fun r => ?_
      split <;> exact within_pure _

/-- Whether a sequence has ended depends on the states that feed it, which are of its instance. -/
theorem within_take (q : SequenceId) (dest : String) : Within i (take i q dest) := by
  refine (within_on (.take q) rfl).bind fun r => ?_
  rcases r with _ | _ | token
  · exact within_pure _
  · intro s t h
    have hinst := h.world.instance?
    have hfeeds : t.vars.feeds i q = s.vars.feeds i q := by
      rw [h.vars]
      exact Variables.feeds_ofOwner s.vars i q
    unfold Matches
    simp only [StateT.run_bind, StateT.run_get, pure_bind, hinst, hfeeds]
    split <;> exact within_pure _ _ _ h
  · exact (within_store (.state ⟨i, token⟩) rfl dest).bind fun _ => within_pure _

theorem within_useState {g : Handle} (hown : g.owner = i) (u : Use) : Within i (useState g u) := by
  subst hown
  obtain ⟨reply, -, hrun⟩ := useState_eq g u
  rw [hrun]
  exact (within_on (.use g.token u) rfl).bind fun r => within_answer reply r

theorem within_enter {g : Handle} (hown : g.owner = i) (surface : Surface) (shape : LoopShape)
    (dest after : String) : Within i (enter g surface shape dest after) := by
  obtain ⟨owner, token⟩ := g
  obtain rfl : owner = i := hown
  cases surface with
  | polling | callback => exact within_onGive rfl (.enter shape token) rfl dest
  | iterator =>
    refine (within_on (.iterate shape token) rfl).bind fun r => ?_
    rcases r with _ | ⟨q, next⟩
    · exact within_pure _
    · refine (within_store (.sequence owner q) rfl dest).bind fun _ => ?_
      exact (within_store (.state ⟨owner, next⟩) rfl after).bind fun _ => within_pure _

theorem within_takeTurn {loop : RunningLoop} (hown : loop.owner = i)
    (r : Except Fault Callback.Turn) : Within i (takeTurn loop r) := by
  rcases r with _ | entry | token
  · exact within_pure _
  · intro s t h
    have hstored := within_store (.state ⟨loop.owner, entry⟩) hown bodyVariable
    exact (hstored.bind fun _ => within_pure _) _ _ (h.push hown)
  · exact within_give hown loop.dest token

theorem within_bodyFailed {loop : RunningLoop} (hown : loop.owner = i) (fault : Fault) :
    Within i (bodyFailed loop fault) := by
  subst hown
  exact (within_on (.fail fault) rfl).bind fun r => within_answer .done r

theorem within_bodyReturned {loop : RunningLoop} (hown : loop.owner = i) {held : Option Holding}
    (hheld : ∀ h, held = some h → h.owner = i) : Within i (bodyReturned loop held) := by
  rcases held with _ | ⟨owner, token⟩ | ⟨owner, q⟩
  · exact within_bodyFailed hown noTail
  · obtain rfl : owner = i := hheld _ rfl
    simp only [bodyReturned]
    split
    · refine (within_on (.giveBack token) rfl).bind fun r => ?_
      cases r with
      | error fault => exact within_pure _
      | ok _ =>
        rw [hown]
        exact (within_on (.advance loop.shape owner) rfl).bind fun r => within_takeTurn hown r
    · exact within_bodyFailed hown noTail
  · exact (within_release hheld).bind fun _ => within_bodyFailed hown noTail

/-! ## What a step does beside a part -/

section

variable {owner : InstanceId} {dest after : String}

theorem overwrites_answer {reply : Reply} (hreply : reply.stored dest after = [])
    (r : Except Fault α) : Overwrites i (Reply.stored dest after) (answer reply r) := by
  cases r with
  | ok v => exact overwrites_pure hreply
  | error fault => exact overwrites_pure rfl

theorem beside_answer (reply : Reply) (r : Except Fault α) : Beside i (answer reply r) := by
  cases r <;> exact beside_pure _

theorem overwrites_onGive (hown : owner ≠ i) (c : Call) {a : Act Token}
    (hact : c.act = .state <$> a) : Overwrites i (Reply.stored dest after) (on owner a >>= fun
      | .ok t => give dest owner t
      | .error fault => pure (.fault fault)) := by
  refine Overwrites.after (beside_on hown c hact) fun r => ?_
  cases r with
  | ok t => exact overwrites_give hown dest after t
  | error fault => exact overwrites_pure rfl

theorem beside_finish {g : Handle} (hown : g.owner ≠ i) (point : EndPoint) :
    Beside i (finish g point) := by
  cases point with
  | protocol closes =>
    exact (beside_on hown (.finish g.token closes) rfl).bind fun r => beside_answer .done r
  | iteration nextBody =>
    simp only [finish]
    split
    · exact beside_pure _
    · next q _ =>
      refine (beside_on hown (.endIteration g.token q nextBody) rfl).bind fun r => ?_
      split <;> exact beside_pure _

theorem stored_finish (g : Handle) (point : EndPoint) (s : Session) :
    ((finish g point).run s).1.stored dest after = [] := by
  cases point with
  | protocol closes =>
    show ((on g.owner (g.token.finish closes) >>= answer .done).run s).1.stored dest after = []
    rw [run_answer]
    split <;> rfl
  | iteration nextBody =>
    simp only [finish]
    split
    · rfl
    · rw [run_on]
      split <;> rfl

theorem overwrites_finish {g : Handle} (hown : g.owner ≠ i) (point : EndPoint) :
    Overwrites i (Reply.stored dest after) (finish g point) :=
  overwrites_of_beside (beside_finish hown point) (stored_finish g point)

theorem overwrites_take (hown : owner ≠ i) (q : SequenceId) :
    Overwrites i (Taken.stored dest) (take owner q dest) := by
  refine Overwrites.after (beside_on hown (.take q) rfl) fun r => ?_
  rcases r with _ | _ | token
  · exact overwrites_pure rfl
  · intro s t h
    simp only [StateT.run_bind, StateT.run_get, pure_bind]
    split <;> exact h
  · exact overwrites_store (.state ⟨owner, token⟩) hown dest

theorem overwrites_useState {g : Handle} (hown : g.owner ≠ i) (u : Use) :
    Overwrites i (Reply.stored dest after) (useState g u) := by
  obtain ⟨reply, hreply, hrun⟩ := useState_eq g u
  rw [hrun]
  exact Overwrites.after (beside_on hown (.use g.token u) rfl)
    (overwrites_answer (hreply dest after))

theorem overwrites_enter {g : Handle} (hown : g.owner ≠ i) (surface : Surface)
    (shape : LoopShape) :
    Overwrites i (Reply.stored dest after) (enter g surface shape dest after) := by
  cases surface with
  | polling | callback => exact overwrites_onGive hown (.enter shape g.token) rfl
  | iterator =>
    refine Overwrites.after (beside_on hown (.iterate shape g.token) rfl) fun r => ?_
    rcases r with _ | ⟨q, next⟩
    · exact overwrites_pure rfl
    · have hfirst := overwrites_store (.sequence g.owner q) hown dest
      have hsecond := overwrites_store (.state ⟨g.owner, next⟩) hown after
      exact hfirst.andThen fun _ => hsecond

theorem overwrites_takeTurn {loop : RunningLoop} (hown : loop.owner ≠ i)
    (r : Except Fault Callback.Turn) :
    Overwrites i (Reply.stored loop.dest after) (takeTurn loop r) := by
  rcases r with _ | entry | token
  · exact overwrites_pure rfl
  · intro s t h
    exact overwrites_store (.state ⟨loop.owner, entry⟩) hown bodyVariable _ _
      (h.push_other hown)
  · exact overwrites_give hown loop.dest after token

theorem overwrites_bodyFailed {loop : RunningLoop} (hown : loop.owner ≠ i) (fault : Fault) :
    Overwrites i (Reply.stored dest after) (bodyFailed loop fault) :=
  Overwrites.after (beside_on hown (.fail fault) rfl) (overwrites_answer rfl)

theorem overwrites_bodyReturned {loop : RunningLoop} (hown : loop.owner ≠ i)
    {held : Option Holding} (hheld : ∀ h, held = some h → h.owner ≠ i) :
    Overwrites i (Reply.stored loop.dest after) (bodyReturned loop held) := by
  rcases held with _ | g | ⟨owner, q⟩
  · exact overwrites_bodyFailed hown noTail
  · simp only [bodyReturned]
    split
    · refine Overwrites.after (beside_on (hheld _ rfl) (.giveBack g.token) rfl) fun r => ?_
      cases r with
      | error fault => exact overwrites_pure rfl
      | ok _ =>
        exact Overwrites.after (beside_on hown (.advance loop.shape g.owner) rfl) fun r =>
          overwrites_takeTurn hown r
    · exact overwrites_bodyFailed hown noTail
  · exact Overwrites.after (beside_release hheld) fun _ => overwrites_bodyFailed hown noTail

end

end SessionM

end LoopProtocol
