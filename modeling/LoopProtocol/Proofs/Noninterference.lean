import LoopProtocol.Proofs.PartLogic

/-!
# Instances do not interfere

Moves are made on an instance if they name it or its recorder, if they work on a state or a sequence
of it, or if they return from the body of a loop of it. In a session in which no move is made on two
instances, each instance fares as in the session of its own moves alone (`Session.alone`), in which
all moves on other instances are left out.

A name can be used for several instances. A move that puts something of one instance into a variable
that holds something of another drops what was there; of such a move the drop is what remains for
the other instance.
-/

namespace LoopProtocol

/-! ## Definitions -/

namespace Session

/-- Whether a move is made on an instance. -/
def worksOn (s : Session) (i : InstanceId) : Move → Bool
  | .act (.issue _ inst _) | .act (.setParam _ _ inst) | .act (.params inst) | .act (.top inst)
  | .act (.frames inst) => inst = i
  | .act (.events r) | .act (.clearEvents r) =>
    (s.world.instance? i).any (·.recorder = some r)
  | .act (.raise _) => false
  | .act (.alias of _) | .act (.drop of) | .act (.info of) | .act (.loopId of)
  | .act (.hasMore of) | .act (.take of _) | .act (.use of _) | .act (.fork of _) => s.holds i of
  | .act (.enter source _ _ _) | .act (.exit source _) | .act (.send source _ _)
  | .act (.finish source) | .foreach source _ => s.holds i source.name
  | .act (.finishTaking source sequence _) | .act (.finishDropping source sequence) =>
    s.holds i source.name || s.holds i sequence
  | .returnState name => s.running.head?.any (·.owner = i) || s.holds i name
  | .returnFault _ => s.running.head?.any (·.owner = i)

/-- The two are there, and are not the same. -/
def apart : Option InstanceId → Option InstanceId → Bool
  | some i, some j => i != j
  | _, _ => false

/-- Whether a move is made on two instances. It can only be one that ends an iteration of one
instance and takes from a sequence of another or drops it, or one that returns a state of one
instance from the body of a loop of another. -/
def mixes (s : Session) : Move → Bool
  | .act (.finishTaking source sequence _) | .act (.finishDropping source sequence) =>
    apart ((s.vars.get? source.name).map (·.owner)) ((s.vars.get? sequence).map (·.owner))
  | .returnState name => apart (s.running.head?.map (·.owner)) ((s.vars.get? name).map (·.owner))
  | _ => false

/-- None of the moves is made on two instances. -/
def Separate : Session → List Move → Prop
  | _, [] => True
  | s, m :: moves => s.mixes m = false ∧ (s.after [m]).Separate moves

instance decidableSeparate : (s : Session) → (moves : List Move) → Decidable (s.Separate moves)
  | _, [] => .isTrue trivial
  | s, m :: moves =>
    have := decidableSeparate (s.after [m]) moves
    inferInstanceAs (Decidable (s.mixes m = false ∧ (s.after [m]).Separate moves))

/-- The variables for the state that a move gives, and for what follows a loop that it enters. -/
def dests (s : Session) : Move → String × String
  | .act (.issue _ _ dest) | .act (.alias _ dest) | .act (.take _ dest) | .act (.fork _ dest)
  | .act (.exit _ dest) | .act (.send _ _ dest) | .act (.finishTaking _ _ dest)
  | .foreach _ dest => (dest, dest)
  | .act (.enter _ _ dest after) => (dest, after)
  | .returnState _ => ((s.running.head?.map (·.dest)).getD "", "")
  | _ => ("", "")

/-- The variables that a move puts something into. -/
def stored (s : Session) (m : Move) : List String :=
  (s.reply m).stored (s.dests m).1 (s.dests m).2

/-- What remains of a move for an instance: the move, if it is made on the instance, and otherwise
the drops of what it puts something else over. -/
def remains (s : Session) (i : InstanceId) (m : Move) : List Move :=
  if s.worksOn i m then [m] else dropAll ((s.stored m).filter (s.holds i))

/-- The moves of one instance, without those that are made on others. -/
def alone (i : InstanceId) : Session → List Move → List Move
  | _, [] => []
  | s, m :: moves => s.remains i m ++ alone i (s.after [m]) moves

/-- The moves that are made on an instance. -/
def movesOn (i : InstanceId) : Session → List Move → List Move
  | _, [] => []
  | s, m :: moves =>
    (if s.worksOn i m then [m] else []) ++ movesOn i (s.after [m]) moves

end Session

/-! ## Moves within a part -/

namespace SessionM

variable {i : InstanceId} {s t : Session} {m : Move}

theorem owner_of_holds {name : String} (hholds : s.holds i name = true) {held : Holding}
    (hget : s.vars.get? name = some held) : held.owner = i := by
  simpa [Session.holds, hget] using hholds

/-- What a move works on is all of one instance. -/
theorem owners_of_not_apart {α β : Type} {f : α → InstanceId} {g : β → InstanceId} {a : Option α}
    {b : Option β} (hnot : Session.apart (a.map f) (b.map g) = false)
    (hany : (a.any (f · = i) || b.any (g · = i)) = true) :
    (∀ v, a = some v → f v = i) ∧ ∀ v, b = some v → g v = i := by
  cases a <;> cases b <;> simp_all [Session.apart]

/-- A variable is dropped, be it something of another instance that it holds. -/
theorem within_removing (name : String) {f : SessionM Reply} (hf : Within i f) :
    Within i (remove name >>= fun held => release held >>= fun _ => f) := by
  rw [← bind_assoc]
  refine Within.bind (fun s t h => ?_) fun _ => hf
  exact ⟨rfl, part_release h (h.erase name) name⟩

/-- The innermost loop is one of the instance, as the move is. -/
theorem matches_returning (h : s.Part i t)
    (hhead : ∀ loop, s.running.head? = some loop → loop.owner = i)
    {f : RunningLoop → SessionM Reply}
    (hf : ∀ (loop : RunningLoop) (s' t' : Session), loop.owner = i → s'.vars = s.vars →
      s'.Part i t' → Matches i s' t' (f loop)) : Matches i s t (returning f) := by
  have hrunning := h.running
  unfold Matches
  cases hs : s.running with
  | nil =>
    rw [hs] at hrunning
    rw [run_returning_nil hs, run_returning_nil hrunning]
    exact ⟨rfl, h⟩
  | cons loop outer =>
    have hown : loop.owner = i := hhead loop (by simp [hs])
    rw [hs, List.filter_cons_of_pos (by simpa using hown)] at hrunning
    rw [run_returning_cons hs, run_returning_cons hrunning]
    exact hf loop _ _ hown rfl ⟨h.world, h.vars, rfl, h.names⟩

theorem matches_perform {action : Action} (h : s.Part i t) (hmixes : s.mixes (.act action) = false)
    (hworks : s.worksOn i (.act action) = true) : Matches i s t (perform action) := by
  cases action with
  | issue site inst dest =>
    obtain rfl : inst = i := of_decide_eq_true hworks
    exact within_withInstance (fun _ => within_onGive rfl (.issue site) rfl dest) s t h
  | setParam name bound inst =>
    obtain rfl : inst = i := of_decide_eq_true hworks
    refine within_withInstance (fun _ => ?_) s t h
    refine (within_on (.setParam name bound) rfl).bind fun r => ?_
    cases r <;> exact within_pure _
  | params inst | top inst | frames inst =>
    obtain rfl : inst = i := of_decide_eq_true hworks
    exact within_withInstance (fun _ => within_pure _) s t h
  | events r =>
    obtain ⟨x, hx, hr⟩ := (Option.any_eq_true _ _).1 hworks
    have hlog := h.world.log x r hx (of_decide_eq_true hr)
    refine ⟨?_, h⟩
    show Reply.events (t.world.recorders.events r) = .events (s.world.recorders.events r)
    simp only [Recorders.events, Array.getD_eq_getD_getElem?, hlog]
  | clearEvents r => exact ⟨rfl, h.withWorld (h.world.clear r)⟩
  | raise fault => cases hworks
  | «alias» of dest =>
    refine matches_withState h (fun _ => owner_of_holds hworks) fun g hg => ?_
    exact within_give hg dest g.token s t h
  | drop of =>
    refine ⟨?_, ?_⟩
    · rw [run_drop, run_drop, h.get?_of_owner (fun _ => owner_of_holds hworks)]
      rcases s.vars.get? of with _ | _ | _ <;> rfl
    · show (s.after [.act (.drop of)]).Part i (t.after [.act (.drop of)])
      rw [after_drop, after_drop]
      exact part_release h (h.erase of) of
  | info of =>
    refine matches_withState h (fun _ => owner_of_holds hworks) fun g hg => ?_
    rw [hg]
    exact within_withInstance (fun _ => within_pure _) s t h
  | loopId of =>
    refine matches_withState h (fun _ => owner_of_holds hworks) fun g hg => ?_
    split <;> exact within_pure _ s t h
  | hasMore of =>
    refine matches_withState h (fun _ => owner_of_holds hworks) fun g hg => ?_
    rw [hg]
    refine within_withInstance (fun _ => ?_) s t h
    split <;> exact within_pure _
  | take of dest =>
    refine matches_withSequence h (fun _ => owner_of_holds hworks) fun q => ?_
    exact (within_take q dest).bind (fun _ => within_pure _) s t h
  | use of u =>
    refine matches_withState h (fun _ => owner_of_holds hworks) fun g hg => ?_
    exact within_useState hg u s t h
  | fork of dest =>
    refine matches_withState h (fun _ => owner_of_holds hworks) fun g hg => ?_
    split
    · exact within_onGive hg (.fork g.token) rfl dest s t h
    · exact within_pure _ s t h
  | enter source surface dest after =>
    refine matches_withSource h (fun _ => owner_of_holds hworks) fun g p hg => ?_
    exact within_enter hg p.1 p.2 dest after _ _ (part_moveOut h source)
  | exit source dest =>
    refine matches_withSource h (fun _ => owner_of_holds hworks) fun g shape hg => ?_
    exact within_onGive hg (.exit shape g.token) rfl dest _ _ (part_moveOut h source)
  | send source label dest =>
    refine matches_withSource h (fun _ => owner_of_holds hworks) fun g point hg => ?_
    exact within_onGive hg (.send g.token point) rfl dest _ _ (part_moveOut h source)
  | finish source =>
    refine matches_withSource h (fun _ => owner_of_holds hworks) fun g point hg => ?_
    exact within_finish hg point _ _ (part_moveOut h source)
  | finishTaking source sequence dest =>
    obtain ⟨hsource, hsequence⟩ := owners_of_not_apart hmixes hworks
    refine matches_withSource h hsource fun g point hg => ?_
    refine matches_withSequence (part_moveOut h source)
      (fun held hget => hsequence held (get?_moveOut hget)) fun q => ?_
    refine (within_finish hg point).bind (fun ended => ?_) _ _ (part_moveOut h source)
    exact (within_take q dest).bind fun taken => within_pure _
  | finishDropping source sequence =>
    obtain ⟨hsource, hsequence⟩ := owners_of_not_apart hmixes hworks
    refine matches_withSource h hsource fun g point hg => ?_
    refine matches_withSequence (part_moveOut h source)
      (fun held hget => hsequence held (get?_moveOut hget)) fun q => ?_
    refine (within_finish hg point).bind (fun ended => ?_) _ _ (part_moveOut h source)
    refine within_removing sequence ?_
    split <;> exact within_pure _

theorem matches_move (h : s.Part i t) (hmixes : s.mixes m = false) (hworks : s.worksOn i m = true) :
    Matches i s t (move m) := by
  cases m with
  | act action => exact matches_perform h hmixes hworks
  | foreach source dest =>
    refine matches_withSource h (fun _ => owner_of_holds hworks) fun g shape hg => ?_
    obtain ⟨owner, token⟩ := g
    obtain rfl : owner = i := hg
    refine (within_on (.begin shape token) rfl).bind (fun r => ?_) _ _ (part_moveOut h source)
    have hloop : (⟨owner, shape, dest⟩ : RunningLoop).owner = owner := rfl
    exact within_takeTurn hloop r
  | returnState name =>
    obtain ⟨hhead, howner⟩ := owners_of_not_apart hmixes hworks
    refine matches_returning h hhead fun loop s' t' hown hvars hpart => ?_
    rw [← hvars] at howner
    let u : Session := { t' with vars := Variables.erase t'.vars name }
    have hrun : (remove name >>= bodyReturned loop).run t' =
        (bodyReturned loop (s'.vars.get? name)).run u := by
      rw [← hpart.get?_of_owner howner]
      rfl
    unfold Matches
    rw [hrun]
    exact within_bodyReturned hown howner _ _ (hpart.erase name)
  | returnFault fault =>
    have hhead : ∀ loop, s.running.head? = some loop → loop.owner = i := fun loop hloop => by
      simpa [Session.worksOn, hloop] using hworks
    refine matches_returning h hhead fun loop s' t' hown _ hpart => ?_
    exact within_bodyFailed hown fault _ _ hpart

/-! ## Moves beside a part -/

/-- What is left of a part by a step that replied and left a session. -/
def Leaves (i : InstanceId) (t : Session) (dest after : String) (p : Reply × Session) : Prop :=
  p.2.Part i (t.after (dropAll (p.1.stored dest after)))

theorem owner_ne_of_holds {name : String} (hnot : s.holds i name = false) {held : Holding}
    (hget : s.vars.get? name = some held) : held.owner ≠ i := by
  rintro rfl
  simp [Session.holds, hget] at hnot

theorem part_moveOut_other (h : s.Part i t) {source : Source}
    (hnot : s.holds i source.name = false) : (s.moveOut source).Part i t := by
  unfold Session.moveOut
  split
  · exact h
  · exact h.erase_other hnot

section

variable {dest after : String}

theorem leaves_withState (h : s.Part i t) {name : String} (hnot : s.holds i name = false)
    {f : Handle → SessionM Reply}
    (hf : ∀ g, g.owner ≠ i → Overwrites i (Reply.stored dest after) (f g)) :
    Leaves i t dest after ((withState name f).run s) :=
  withState_of (R := Leaves i t dest after) h h fun g hget =>
    hf g (owner_ne_of_holds hnot hget) s t h

theorem leaves_withSource {α : Type} (h : s.Part i t) {source : Source}
    (hnot : s.holds i source.name = false) {possible : Site → Option α}
    {f : Handle → α → SessionM Reply}
    (hf : ∀ g v, g.owner ≠ i → Leaves i t dest after ((f g v).run (s.moveOut source))) :
    Leaves i t dest after ((withSource source possible f).run s) :=
  withSource_of (R := Leaves i t dest after) h h fun g v hget _ =>
    hf g v (owner_ne_of_holds hnot hget)

theorem leaves_withSequence (h : s.Part i t) {name : String} (hnot : s.holds i name = false)
    {f : InstanceId → SequenceId → SessionM Reply}
    (hf : ∀ owner q, owner ≠ i → Overwrites i (Reply.stored dest after) (f owner q)) :
    Leaves i t dest after ((withSequence name f).run s) :=
  withSequence_of (R := Leaves i t dest after) h h fun owner q hget =>
    hf owner q (owner_ne_of_holds hnot (Session.sequenceIn?_eq_some_iff.1 hget)) s t h

theorem leaves_withInstance (h : s.Part i t) {j : InstanceId} {f : Instance → SessionM Reply}
    (hf : ∀ x, Overwrites i (Reply.stored dest after) (f x)) :
    Leaves i t dest after ((withInstance j f).run s) :=
  withInstance_of (R := Leaves i t dest after) h fun x _ => hf x s t h

theorem overwrites_withInstance {j : InstanceId} {f : Instance → SessionM Reply}
    (hf : ∀ x, Overwrites i (Reply.stored dest after) (f x)) :
    Overwrites i (Reply.stored dest after) (withInstance j f) :=
  fun _ _ h => leaves_withInstance h hf

end

theorem holds_moveOut {source : Source} {name : String} (hnot : s.holds i name = false) :
    (s.moveOut source).holds i name = false := by
  unfold Session.holds
  cases hget : (s.moveOut source).vars.get? name with
  | none => rfl
  | some held => simpa using owner_ne_of_holds hnot (get?_moveOut hget)

/-- A variable is dropped that holds nothing of the instance. -/
theorem leaves_removing {dest after : String} (h : s.Part i t) {name : String}
    (hnot : s.holds i name = false) {f : SessionM Reply}
    (hf : Overwrites i (Reply.stored dest after) f) : Leaves i t dest after
      ((remove name >>= fun held => release held >>= fun _ => f).run s) :=
  hf _ _ (beside_release (fun _ he => owner_ne_of_holds hnot he) _ _ (h.erase_other hnot))

theorem leaves_perform {action : Action} (h : s.Part i t)
    (hnot : s.worksOn i (.act action) = false) :
    Leaves i t (s.dests (.act action)).1 (s.dests (.act action)).2 ((perform action).run s) := by
  cases action with
  | issue site inst dest =>
    have hne : inst ≠ i := of_decide_eq_false hnot
    exact leaves_withInstance h fun _ => overwrites_onGive hne (.issue site) rfl
  | setParam name bound inst =>
    have hne : inst ≠ i := of_decide_eq_false hnot
    refine leaves_withInstance h fun _ => ?_
    refine Overwrites.after (beside_on hne (.setParam name bound) rfl) fun r => ?_
    cases r <;> exact overwrites_pure rfl
  | params inst | top inst | frames inst =>
    exact leaves_withInstance h fun _ => overwrites_pure rfl
  | events r | raise fault => exact h
  | clearEvents r =>
    refine h.withWorld (h.world.clear_other fun x hx hr => ?_)
    simp [Session.worksOn, hx, hr] at hnot
  | «alias» of dest =>
    exact leaves_withState h hnot fun g hg => overwrites_give hg dest dest g.token
  | drop of =>
    have hdropped : (s.after [.act (.drop of)]).Part i t := by
      rw [after_drop]
      exact beside_release (fun _ he => owner_ne_of_holds hnot he) _ _ (h.erase_other hnot)
    have hreply := congrArg Prod.fst (run_drop s of)
    unfold Leaves
    rw [hreply]
    cases s.vars.get? of <;> exact hdropped
  | info of =>
    exact leaves_withState h hnot fun g hg => overwrites_withInstance fun _ => overwrites_pure rfl
  | loopId of =>
    refine leaves_withState h hnot fun g hg => ?_
    split <;> exact overwrites_pure rfl
  | hasMore of =>
    refine leaves_withState h hnot fun g hg => overwrites_withInstance fun _ => ?_
    split <;> exact overwrites_pure rfl
  | take of dest =>
    exact leaves_withSequence h hnot fun owner q hne => overwrites_take hne q
  | use of u => exact leaves_withState h hnot fun g hg => overwrites_useState hg u
  | fork of dest =>
    refine leaves_withState h hnot fun g hg => ?_
    split
    · exact overwrites_onGive hg (.fork g.token) rfl
    · exact overwrites_pure rfl
  | enter source surface dest after =>
    refine leaves_withSource h hnot fun g p hg => ?_
    exact overwrites_enter hg p.1 p.2 _ _ (part_moveOut_other h hnot)
  | exit source dest =>
    refine leaves_withSource h hnot fun g shape hg => ?_
    exact overwrites_onGive hg (.exit shape g.token) rfl _ _ (part_moveOut_other h hnot)
  | send source label dest =>
    refine leaves_withSource h hnot fun g point hg => ?_
    exact overwrites_onGive hg (.send g.token point) rfl _ _ (part_moveOut_other h hnot)
  | finish source =>
    refine leaves_withSource h hnot fun g point hg => ?_
    exact overwrites_finish hg point _ _ (part_moveOut_other h hnot)
  | finishTaking source sequence dest =>
    obtain ⟨hsource, hsequence⟩ := Bool.or_eq_false_iff.1 hnot
    refine leaves_withSource h hsource fun g point hg => ?_
    refine leaves_withSequence (part_moveOut_other h hsource) (holds_moveOut hsequence)
      fun owner q hne => ?_
    exact Overwrites.after (beside_finish hg point) fun ended => overwrites_take hne q
  | finishDropping source sequence =>
    obtain ⟨hsource, hsequence⟩ := Bool.or_eq_false_iff.1 hnot
    refine leaves_withSource h hsource fun g point hg => ?_
    have hmoved := part_moveOut_other h hsource
    refine withSequence_of (R := Leaves i t "" "") hmoved hmoved fun owner q _ => ?_
    have hended := beside_finish hg point _ _ hmoved
    refine leaves_removing hended ?_ ?_
    · rw [← hended.isSome_get?, hmoved.isSome_get?]
      exact holds_moveOut hsequence
    · split <;> exact overwrites_pure rfl

/-- The innermost loop is one of another instance. -/
theorem leaves_returning {dest after : String} (h : s.Part i t)
    (hnot : s.running.head?.any (·.owner = i) = false) {f : RunningLoop → SessionM Reply}
    (hf : ∀ (loop : RunningLoop) (s' : Session), loop.owner ≠ i → s.running.head? = some loop →
      s'.vars = s.vars → s'.Part i t → Leaves i t dest after ((f loop).run s')) :
    Leaves i t dest after ((returning f).run s) := by
  have hrunning := h.running
  cases hs : s.running with
  | nil =>
    rw [run_returning_nil hs]
    exact h
  | cons loop outer =>
    have hown : loop.owner ≠ i := by simpa [hs] using hnot
    rw [hs, List.filter_cons_of_neg (by simpa using hown)] at hrunning
    rw [run_returning_cons hs]
    exact hf loop _ hown (by simp [hs]) rfl ⟨h.world, h.vars, hrunning, h.names⟩

/-- **What a move on other instances leaves of a part.** -/
theorem leaves_move (h : s.Part i t) (hnot : s.worksOn i m = false) :
    (s.after [m]).Part i (t.after (dropAll (s.stored m))) := by
  show Leaves i t (s.dests m).1 (s.dests m).2 ((move m).run s)
  cases m with
  | act action => exact leaves_perform h hnot
  | foreach source dest =>
    refine leaves_withSource h hnot fun g shape hg => ?_
    have hloop : (⟨g.owner, shape, dest⟩ : RunningLoop).owner ≠ i := hg
    refine Overwrites.after (beside_on hg (.begin shape g.token) rfl) (fun r => ?_) _ _
      (part_moveOut_other h hnot)
    exact overwrites_takeTurn hloop r
  | returnState name =>
    obtain ⟨hhead, hname⟩ := Bool.or_eq_false_iff.1 hnot
    refine leaves_returning h hhead fun loop s' hown hloop hvars hpart => ?_
    have hdests : s.dests (.returnState name) = (loop.dest, "") := by
      simp [Session.dests, hloop]
    have hname' : s'.holds i name = false := by rwa [Session.holds, hvars]
    rw [hdests]
    exact overwrites_bodyReturned hown (fun _ he => owner_ne_of_holds hname' he) _ _
      (hpart.erase_other hname')
  | returnFault fault =>
    refine leaves_returning h hnot fun loop s' hown _ _ hpart => ?_
    exact overwrites_bodyFailed hown fault _ _ hpart

end SessionM

/-! ## Runs of moves -/

namespace Session

open SessionM

variable {i : InstanceId} {s t : Session} {m : Move} {moves : List Move}

theorem get?_after_drop (t : Session) (name name' : String) :
    (t.after [.act (.drop name)]).vars.get? name' =
      if name' = name then none else t.vars.get? name' := by
  have hvars : ∀ (held : Option Holding) (u : Session), ((release held).run u).2.vars = u.vars := by
    intro held u
    rcases held with _ | _ | _ <;> rfl
  rw [after_drop, hvars]
  split
  · next heq =>
    subst heq
    exact Variables.get?_erase_self t.vars name'
  · next hne => exact Variables.get?_erase_of_ne hne

/-- Drops of variables that hold nothing make no difference. -/
theorem after_dropAll_filter (t : Session) (names : List String) {p : String → Bool}
    (hp : ∀ name, (t.vars.get? name).isSome = true → p name = true) :
    t.after (dropAll (names.filter p)) = t.after (dropAll names) := by
  induction names generalizing t with
  | nil => rfl
  | cons name names ih =>
    have hcons : t.after (dropAll (name :: names)) =
        (t.after [.act (.drop name)]).after (dropAll names) := rfl
    rw [hcons]
    cases hname : p name with
    | true =>
      rw [List.filter_cons_of_pos hname]
      refine ih (t.after [.act (.drop name)]) fun name' hsome => hp name' ?_
      rw [get?_after_drop] at hsome
      split at hsome
      · cases hsome
      · exact hsome
    | false =>
      have hnone : t.vars.get? name = none := by
        cases hget : t.vars.get? name with
        | none => rfl
        | some held => simp [hp name (by simp [hget])] at hname
      rw [List.filter_cons_of_neg (by simp [hname]), after_drop, hnone,
        Variables.erase_of_get?_eq_none hnone]
      exact ih t hp

/-- **One move.** -/
theorem Part.remains (h : s.Part i t) (hmixes : s.mixes m = false) :
    (s.after [m]).Part i (t.after (s.remains i m)) := by
  unfold Session.remains
  cases hworks : s.worksOn i m with
  | true => exact (matches_move h hmixes hworks).2
  | false =>
    rw [if_neg Bool.false_ne_true, after_dropAll_filter t]
    · exact leaves_move h hworks
    · intro name hsome
      rwa [h.isSome_get?] at hsome

/-- **All moves.** The part of an instance fares as with the moves of the instance alone. -/
theorem Part.alone (h : s.Part i t) (hsep : s.Separate moves) :
    (s.after moves).Part i (t.after (s.alone i moves)) := by
  induction moves generalizing s t with
  | nil => exact h
  | cons m moves ih =>
    rw [Session.alone, after_append]
    exact ih (h.remains hsep.1) hsep.2

theorem separate_append {before later : List Move} :
    s.Separate (before ++ later) ↔ s.Separate before ∧ (s.after before).Separate later := by
  induction before generalizing s with
  | nil => exact ⟨fun h => ⟨trivial, h⟩, fun h => h.2⟩
  | cons m before ih =>
    show s.mixes m = false ∧ (s.after [m]).Separate (before ++ later) ↔
      (s.mixes m = false ∧ (s.after [m]).Separate before) ∧ _
    rw [ih, and_assoc]
    rfl

theorem alone_append (s : Session) (i : InstanceId) (before later : List Move) :
    s.alone i (before ++ later) = s.alone i before ++ (s.after before).alone i later := by
  induction before generalizing s with
  | nil => rfl
  | cons m before ih =>
    rw [List.cons_append, Session.alone, Session.alone, ih, List.append_assoc]
    rfl

/-- Without a move on another instance that puts something over what is of this one, the others are
simply left out. -/
theorem alone_eq_movesOn (hkept : ∀ before m later, moves = before ++ m :: later →
    (s.after before).worksOn i m = false →
    ∀ name ∈ (s.after before).stored m, (s.after before).holds i name = false) :
    s.alone i moves = s.movesOn i moves := by
  induction moves generalizing s with
  | nil => rfl
  | cons m moves ih =>
    have hlater := ih (s := s.after [m]) fun before m' later heq =>
      hkept (m :: before) m' later (congrArg (m :: ·) heq)
    have hfirst : s.remains i m = if s.worksOn i m then [m] else [] := by
      unfold Session.remains
      cases hworks : s.worksOn i m with
      | true => rfl
      | false =>
        have hnone : (s.stored m).filter (s.holds i) = [] :=
          List.filter_eq_nil_iff.2 fun name hname =>
            Bool.eq_false_iff.1 (hkept [] m moves rfl hworks name hname)
        rw [hnone]
        rfl
    rw [Session.alone, Session.movesOn, hlater, hfirst]

/-! ## From the start -/

/-- No recorder is given to two of the instances. -/
def SeparateRecorders (instances : List (BoundTable × Option RecorderId)) : Prop :=
  (instances.filterMap (·.2)).Nodup

instance decidableSeparateRecorders (instances : List (BoundTable × Option RecorderId)) :
    Decidable (SeparateRecorders instances) :=
  inferInstanceAs (Decidable (List.Nodup _))

variable {recorders : Nat} {instances : List (BoundTable × Option RecorderId)}

theorem SeparateRecorders.eq (h : SeparateRecorders instances) {j k : Nat}
    {p q : BoundTable × Option RecorderId} {r : RecorderId} (hp : instances[j]? = some p)
    (hq : instances[k]? = some q) (hpr : p.2 = some r) (hqr : q.2 = some r) : j = k := by
  obtain ⟨hj, rfl⟩ := List.getElem?_eq_some_iff.1 hp
  obtain ⟨hk, rfl⟩ := List.getElem?_eq_some_iff.1 hq
  have hpairs := List.pairwise_iff_getElem.1 (List.pairwise_filterMap.1 h)
  rcases Nat.lt_trichotomy j k with hlt | heq | hgt
  · exact absurd rfl (hpairs j k hj hk hlt r hpr r hqr)
  · exact heq
  · exact absurd rfl (hpairs k j hk hj hgt r hqr r hpr)

theorem part_start (h : SeparateRecorders instances) (i : InstanceId) :
    (start recorders instances).Part i (start recorders instances) where
  world.instance? := rfl
  world.log _ _ _ _ := rfl
  world.alone x r j y hx hxr hy hyr := by
    rw [instance?_start, Option.map_eq_some_iff] at hx hy
    obtain ⟨p, hp, rfl⟩ := hx
    obtain ⟨q, hq, rfl⟩ := hy
    exact congrArg InstanceId.mk (h.eq hq hp hyr hxr)
  vars := rfl
  running := rfl
  names := List.nodup_nil

/-- **Instances do not interfere.** With recorders of their own, and in a session none of whose
moves is made on two instances, each instance fares as with its own moves alone: it is the same
instance in the end, its recorder heard the same, its states and sequences are in the same
variables, and each of its moves is answered the same. Moves on other instances are simply left out,
unless one of them puts something into a variable that holds something of this instance. -/
theorem noninterference (hrecorders : SeparateRecorders instances)
    (hmoves : (start recorders instances).Separate moves) (i : InstanceId) :
    let s := start recorders instances
    let u := s.after moves
    let v := s.after (s.alone i moves)
    v.world.instance? i = u.world.instance? i ∧
    (∀ x r, u.world.instance? i = some x → x.recorder = some r →
      v.world.recorders.events r = u.world.recorders.events r) ∧
    (∀ name, v.vars.get? name = (u.vars.get? name).filter (·.owner = i)) ∧
    (∀ before m later, moves = before ++ m :: later → (s.after before).worksOn i m = true →
      s.alone i moves = s.alone i before ++ m :: (s.after (before ++ [m])).alone i later ∧
      (s.after (s.alone i before)).reply m = (s.after before).reply m) ∧
    ((∀ before m later, moves = before ++ m :: later → (s.after before).worksOn i m = false →
      ∀ name ∈ (s.after before).stored m, (s.after before).holds i name = false) →
      s.alone i moves = s.movesOn i moves) := by
  intro s u v
  have hpart : u.Part i v := (part_start hrecorders i).alone hmoves
  refine ⟨hpart.world.instance?, fun x r hx hr => ?_, hpart.get?,
    fun before m later hsplit hworks => ?_, alone_eq_movesOn⟩
  · simp only [Recorders.events, Array.getD_eq_getD_getElem?, hpart.world.log x r hx hr]
  · subst hsplit
    obtain ⟨hbefore, hm, -⟩ := separate_append.1 hmoves
    have hpart' := (part_start hrecorders i).alone hbefore
    refine ⟨?_, (matches_move hpart' hm hworks).1⟩
    have hremains : (s.after before).remains i m = [m] := if_pos hworks
    rw [alone_append, Session.alone, hremains, after_append]
    rfl

/-- Two instances with recorders of their own. -/
def pair : List (BoundTable × Option RecorderId) :=
  [(BoundTable.ofList [("k", 1)], some ⟨0⟩), (BoundTable.ofList [("k", 2)], some ⟨1⟩)]

/-- A callback loop on the one instance whose body also works on the other, and in the end puts a
state of the other over one of the first. -/
def interleaved : List Move :=
  [.act (.issue (Nested.start .callback) ⟨0⟩ "a"), .act (.issue (Nested.start .polling) ⟨1⟩ "b"),
    .foreach ⟨"a", false⟩ "done", .act (.enter ⟨"b", false⟩ none "c" ""),
    .foreach ⟨"it", false⟩ "inner", .act (.hasMore "c"), .act (.send ⟨"it", false⟩ "foo" "e"),
    .act (.setParam "k" 3 ⟨1⟩), .returnState "e", .act (.send ⟨"inner", false⟩ "bar" "tail"),
    .act (.events ⟨1⟩), .act (.alias "tail" "old"), .returnState "tail", .act (.alias "c" "old"),
    .act (.frames ⟨0⟩)]

/-- The first instance fares as with its own moves and the drop of the state that is put over. -/
theorem noninterference_interleaved :
    SeparateRecorders pair ∧ (start 2 pair).Separate interleaved ∧
    (start 2 pair).alone ⟨0⟩ interleaved =
      [.act (.issue (Nested.start .callback) ⟨0⟩ "a"), .foreach ⟨"a", false⟩ "done",
        .foreach ⟨"it", false⟩ "inner", .act (.send ⟨"it", false⟩ "foo" "e"), .returnState "e",
        .act (.send ⟨"inner", false⟩ "bar" "tail"), .act (.alias "tail" "old"),
        .returnState "tail", .act (.drop "old"), .act (.frames ⟨0⟩)] ∧
    ((start 2 pair).after ((start 2 pair).alone ⟨0⟩ interleaved)).world.instance? ⟨0⟩ =
      ((start 2 pair).after interleaved).world.instance? ⟨0⟩ := by
  have hrecorders : SeparateRecorders pair := by decide
  have hmoves : (start 2 pair).Separate interleaved := by decide +kernel
  obtain ⟨hsame, -⟩ := noninterference hrecorders hmoves ⟨0⟩
  exact ⟨hrecorders, hmoves, rfl, hsame⟩

end Session

end LoopProtocol
