import LoopProtocol.Proofs.Passage

/-!
# The ledger of a sequence

A ledger tells what went through the passage of a sequence: the bodies that were handed over, those
whose iterations' ends wait for the slot, and those that the driver took. It is written from what
the moves of a session answer. It always balances with the passage, until the consumer leaves: what
was taken and what is in the slot is what was handed over, in that order.
-/

namespace LoopProtocol

open Act

/-! ## Ledgers -/

/-- The bodies that went through a passage, in the order in which they did. -/
structure Ledger where
  /-- Those that were handed over. -/
  handed : List Token
  /-- Those whose iterations' ends wait for the slot. -/
  waiting : List Token
  /-- Those that the driver took. -/
  taken : List Token
deriving DecidableEq

namespace Ledger

/-- The end of an iteration gave a body out. -/
def put (l : Ledger) (body : Token) : Iterator.Progress → Ledger
  | .delivered => { l with handed := l.handed ++ [body] }
  | .waiting => { l with waiting := l.waiting ++ [body] }
  | .closed => l

/-- The driver took a body. The end that waits longest, if there is one, hands over its own. -/
def take (l : Ledger) (body : Token) : Ledger where
  handed := l.handed ++ l.waiting.take 1
  waiting := l.waiting.tail
  taken := l.taken ++ [body]

/-- **Nothing is lost, and nothing comes twice.** What was taken and what is in the slot is what was
handed over. Behind the slot is what waits. -/
structure Balances (l : Ledger) (p : HandOff Token) : Prop where
  lossless : l.taken ++ p.queue.take 1 = l.handed
  waiting : l.waiting = p.queue.tail

variable {l : Ledger} {p : HandOff Token} {x y : Instance} {q : SequenceId}

/-- An iteration came to its end. -/
theorem Balances.put (h : l.Balances (x.handOff q)) {body : Site} {progress : Iterator.Progress}
    (hended : Iterator.Ended x q body progress y) :
    (l.put (x.nextBody q body) progress).Balances (progress.leaves x q body) := by
  cases progress with
  | delivered =>
    have hempty := (hended.delivered rfl).2
    have hlossless := h.lossless
    have hwaiting := h.waiting
    simp only [hempty, List.take_nil, List.append_nil, List.tail_nil] at hlossless hwaiting
    constructor <;> simp [Ledger.put, Iterator.Progress.leaves, hempty, hlossless, hwaiting]
  | waiting =>
    obtain ⟨first, rest, hqueue⟩ := List.exists_cons_of_ne_nil (hended.waiting rfl).2
    have hlossless := h.lossless
    have hwaiting := h.waiting
    simp only [hqueue, List.take_succ_cons, List.take_zero, List.tail_cons] at hlossless hwaiting
    constructor <;> simp [Ledger.put, Iterator.Progress.leaves, hqueue, hlossless, hwaiting]
  | closed => exact ⟨h.lossless, h.waiting⟩

/-- The first body was taken. -/
theorem Balances.take (h : l.Balances p) {body : Token} {rest : List Token}
    (hqueue : p.queue = body :: rest) : (l.take body).Balances { p with queue := rest } := by
  have hlossless := h.lossless
  have hwaiting := h.waiting
  simp only [hqueue, List.take_succ_cons, List.take_zero, List.tail_cons] at hlossless hwaiting
  constructor <;> simp [Ledger.take, hwaiting, ← hlossless]

/-- No body is written down twice, and all of them have guards that the instance issued. -/
structure Issued (l : Ledger) (x : Instance) : Prop where
  nodup : (l.handed ++ l.waiting).Nodup
  index_lt : ∀ t ∈ l.handed ++ l.waiting, t.guard.index < x.guards.spent.size

theorem Issued.mono (h : l.Issued x) (hle : x.guards.Le y.guards) : l.Issued y :=
  ⟨h.nodup, fun t ht => Nat.lt_of_lt_of_le (h.index_lt t ht) hle.size⟩

theorem perm_put (l : Ledger) (body : Token) {progress : Iterator.Progress}
    (hprogress : progress ≠ .closed) :
    ((l.put body progress).handed ++ (l.put body progress).waiting).Perm
      (body :: (l.handed ++ l.waiting)) := by
  cases progress with
  | delivered =>
    simp only [put, List.append_assoc, List.singleton_append]
    exact List.perm_middle
  | waiting =>
    simp only [put, ← List.append_assoc]
    exact List.perm_append_singleton body _
  | closed => exact absurd rfl hprogress

/-- What the end of an iteration gives out has a guard of its own. -/
theorem Issued.put (h : l.Issued x) {body : Site} {progress : Iterator.Progress}
    (hended : Iterator.Ended x q body progress y) (hle : x.guards.Le y.guards) :
    (l.put (x.nextBody q body) progress).Issued y := by
  by_cases hprogress : progress = .closed
  · subst hprogress
    exact h.mono hle
  have hperm := l.perm_put (x.nextBody q body) hprogress
  have hindex : (x.nextBody q body).guard.index = x.guards.spent.size := rfl
  refine ⟨hperm.nodup_iff.2 (List.nodup_cons.2 ⟨fun hmem => ?_, h.nodup⟩), fun t ht => ?_⟩
  · exact Nat.ne_of_lt (h.index_lt _ hmem) hindex
  · rcases List.mem_cons.1 (hperm.subset ht) with rfl | ht
    · rw [hindex]
      exact hended.issued hprogress
    · exact (h.mono hle).index_lt t ht

/-- A take writes down nothing new. -/
theorem Issued.take (h : l.Issued x) (body : Token) : (l.take body).Issued x := by
  have hsame : (l.take body).handed ++ (l.take body).waiting = l.handed ++ l.waiting := by
    simp only [Ledger.take, List.append_assoc, ← List.drop_one, List.take_append_drop]
  exact ⟨hsame ▸ h.nodup, hsame ▸ h.index_lt⟩

end Ledger

/-! ## What a move does to a sequence -/

/-- What a reply tells of a take. -/
def Reply.found? : Reply → Option Taken
  | .taken t | .endTaking _ t => some t
  | _ => none

/-- The variable for the body that a move takes. -/
def Move.dest? : Move → Option String
  | .act (.take _ dest) | .act (.finishTaking _ _ dest) => some dest
  | _ => none

namespace Session

/-- The world after the transition that a move attempts, before all else that the move does. -/
def attempted (s : Session) (m : Move) : World :=
  match s.attempt? m with
  | some (h, c) => (s.world.on h.owner c.act).2
  | none => s.world

/-- The end of an iteration that a move brings about: the sequence that is fed, with its instance,
the body that is given out, and what came of it. -/
def ends? (s : Session) (m : Move) :
    Option (InstanceId × SequenceId × Token × Iterator.Progress) :=
  match s.attempt? m with
  | some (h, .endIteration t q body) =>
    (s.world.instance? h.owner).bind fun x =>
      match ((Iterator.endIteration t q body).on x).1 with
      | .ok progress => some (h.owner, q, x.nextBody q body, progress)
      | .error _ => none
  | _ => none

/-- The body that a move took, which is in the variable for it now. -/
def got? (s : Session) (m : Move) : Option Token :=
  match (s.reply m).found?, m.dest? with
  | some (.body _), some dest => ((s.after [m]).stateIn? dest).map (·.token)
  | _, _ => none

/-- Writes down the end of an iteration. A sequence of an instance is known by its number. -/
def recordEnd (s : Session) (i : InstanceId) (q : SequenceId) (l : Ledger) (m : Move) : Ledger :=
  match s.ends? m with
  | some (j, q', body, progress) => if j = i ∧ q'.index = q.index then l.put body progress else l
  | none => l

/-- Writes down a take. -/
def recordTake (s : Session) (i : InstanceId) (q : SequenceId) (l : Ledger) (m : Move) : Ledger :=
  match s.takesFrom? m, s.got? m with
  | some (j, q'), some body => if j = i ∧ q'.index = q.index then l.take body else l
  | _, _ => l

/-- Writes down what a move does to a sequence: first the end of an iteration, then a take. -/
def record (s : Session) (i : InstanceId) (q : SequenceId) (l : Ledger) (m : Move) : Ledger :=
  s.recordTake i q (s.recordEnd i q l m) m

/-- The ledger after some moves. -/
def ledger (s : Session) (i : InstanceId) (q : SequenceId) (l : Ledger) : List Move → Ledger
  | [] => l
  | m :: moves => (s.after [m]).ledger i q (s.record i q l m) moves

variable {s : Session} {m : Move} {i : InstanceId} {q : SequenceId} {x : Instance} {l : Ledger}

/-- Besides its transition a move does nothing to a sequence but that it may take from it or give
it up. -/
theorem besides_attempted (s : Session) (m : Move) :
    (s.attempted m).Steps (s.Besides m) (s.after [m]).world := by
  unfold attempted
  cases hattempt : s.attempt? m with
  | none => exact besides_move hattempt
  | some p => exact (opens_attempt hattempt).besides

/-- What every call keeps that uses a state, the transition that a move attempts keeps. -/
theorem related_attempted {R : Instance → Instance → Prop} (hrefl : ∀ x, R x x)
    (hcall : ∀ (c : Call) x, c.uses ≠ none → R x (c.act.on x).2)
    (hx : s.world.instance? i = some x) (m : Move) :
    ∃ y, (s.attempted m).instance? i = some y ∧ R x y := by
  unfold attempted
  cases hattempt : s.attempt? m with
  | none => exact ⟨x, hx, hrefl x⟩
  | some p =>
    by_cases hi : i = p.1.owner
    · subst hi
      have huses : p.2.uses ≠ none := by simp [uses_of_attempt? hattempt]
      exact ⟨_, World.instance?_on_self hx p.2.act, hcall p.2 x huses⟩
    · exact ⟨x, (World.instance?_on_of_ne hi p.2.act).trans hx, hrefl x⟩

theorem flowed_attempted (hx : s.world.instance? i = some x) (m : Move) :
    ∃ y, (s.attempted m).instance? i = some y ∧ x.Flowed y :=
  related_attempted .refl (fun c x _ => c.flowed x) hx m

/-- What is left where the end of an iteration was attempted. -/
theorem attempted_endIteration {t : Token} {body : Site} (hx : s.world.instance? i = some x)
    (hattempt : s.attempt? m = some (⟨i, t⟩, .endIteration t q body)) :
    (s.attempted m).instance? i = some ((Iterator.endIteration t q body).on x).2 := by
  have hself := World.instance?_on_self hx (Call.endIteration t q body).act
  rw [Call.act, Act.on_map] at hself
  rw [attempted, hattempt]
  exact hself

/-- The end of an iteration came off. -/
theorem exists_of_ends? {body : Token} {progress : Iterator.Progress}
    (h : s.ends? m = some (i, q, body, progress)) :
    ∃ (x : Instance) (t : Token) (site : Site), s.world.instance? i = some x ∧
      s.attempt? m = some (⟨i, t⟩, .endIteration t q site) ∧ body = x.nextBody q site ∧
      ((Iterator.endIteration t q site).on x).1 = .ok progress := by
  unfold ends? at h
  split at h
  · next g t q' site hattempt =>
    obtain ⟨x, hx, hresult⟩ := Option.bind_eq_some_iff.1 h
    obtain ⟨owner, t'⟩ := g
    obtain rfl : t = t' := Option.some.inj (uses_of_attempt? hattempt)
    split at hresult
    · next progress' hok =>
      obtain ⟨rfl, rfl, rfl, rfl⟩ := by simpa using hresult
      exact ⟨x, t, site, hx, hattempt, rfl, hok⟩
    · cases hresult
  · cases h

/-- A transition is written down as it was. -/
theorem balances_recordEnd (hx : s.world.instance? i = some x) (hlt : q.index < x.sequences.size)
    (h : l.Balances (x.handOff q)) (m : Move) :
    ∃ y, (s.attempted m).instance? i = some y ∧ x.Flowed y ∧
      (y.handOff q).abandoned = (x.handOff q).abandoned ∧
      (s.recordEnd i q l m).Balances (y.handOff q) := by
  unfold attempted recordEnd ends?
  cases hattempt : s.attempt? m with
  | none => exact ⟨x, hx, .refl x, rfl, h⟩
  | some p =>
    obtain ⟨⟨j, u⟩, c⟩ := p
    by_cases hj : j = i
    · subst hj
      refine ⟨_, World.instance?_on_self hx c.act, c.flowed x, ?_⟩
      rw [Call.handOff_on hlt]
      cases c with
      | take s | abandon s => cases uses_of_attempt? hattempt
      | endIteration t q' body =>
        simp only [hx, Option.bind_some, Call.passed]
        by_cases hq : q'.index = q.index
        · cases hr : ((Iterator.endIteration t q' body).on x).1 with
          | error e => simpa [hq] using h
          | ok progress =>
            have hended := (Iterator.ends_endIteration t q' body x).of_ok hr
            rw [← Instance.handOff_congr hq] at h ⊢
            simp only [hq, and_self, if_true]
            refine ⟨?_, h.put hended⟩
            cases progress <;> rfl
        · cases ((Iterator.endIteration t q' body).on x).1 <;> simpa [hq] using h
      | _ => exact ⟨rfl, h⟩
    · refine ⟨x, (World.instance?_on_of_ne (Ne.symm hj) c.act).trans hx, .refl x, rfl, ?_⟩
      cases c with
      | endIteration t q' body =>
        dsimp only
        cases s.world.instance? j with
        | none => exact h
        | some z =>
          simp only [Option.bind_some]
          cases ((Iterator.endIteration t q' body).on z).1 <;> simpa [hj] using h
      | _ => exact h

end Session

/-! ## What a move takes -/

namespace SessionM

variable {s : Session} {i : InstanceId} {x : Instance} {q : SequenceId}

/-- What ends at a site is ended by the call for it. -/
theorem world_finish (h : Handle) (point : EndPoint) (s : Session) :
    ((finish h point).run s).2.world =
      match h.token.endCall? point with
      | some c => (s.world.on h.owner c.act).2
      | none => s.world := by
  cases point with
  | protocol closes =>
    show _ = (s.world.on h.owner ((fun _ => Grant.nothing) <$> h.token.finish closes)).2
    rw [World.on_map, finish, run_answer]
  | iteration nextBody =>
    rw [Token.endCall?]
    cases hfeed : h.token.feed with
    | none =>
      simp only [finish, hfeed]
      rfl
    | some q =>
      show _ = (s.world.on h.owner
        ((fun _ => Grant.nothing) <$> Iterator.endIteration h.token q nextBody)).2
      rw [World.on_map]
      simp only [finish, hfeed, run_on]
      split <;> rfl

end SessionM

namespace Session

open SessionM

variable {s : Session} {m : Move} {i j : InstanceId} {q q' : SequenceId} {x : Instance}
  {l : Ledger}

/-- **A move takes last.** -/
theorem run_takes (htakes : s.takesFrom? m = some (j, q')) :
    ∃ (s' : Session) (dest : String), m.dest? = some dest ∧ s'.world = s.attempted m ∧
      (s.reply m).found? = some ((take j q' dest).run s').1 ∧
      s.after [m] = ((take j q' dest).run s').2 := by
  cases m with
  | act action =>
    cases action with
    | take of dest =>
      have hrun : (move (.act (.take of dest))).run s =
          (Reply.taken <$> take j q' dest).run s :=
        run_withSequence (p := (j, q')) htakes
      refine ⟨s, dest, rfl, rfl, ?_, ?_⟩
      · rw [reply, hrun]
        rfl
      · show ((move _).run s).2 = _
        rw [hrun]
        rfl
    | finishTaking source sequence dest =>
      obtain ⟨h, hget, hbind⟩ := Option.bind_eq_some_iff.1 htakes
      obtain ⟨point, hpoint, hseq⟩ := Option.bind_eq_some_iff.1 hbind
      rw [stateIn?_eq_some_iff] at hget
      let s' := ((finish h point).run (s.moveOut source)).2
      have hworld : s'.world = s.attempted (.act (.finishTaking source sequence dest)) := by
        have hattempt : s.attempt? (.act (.finishTaking source sequence dest)) =
            (h.token.endCall? point).map (h, ·) := by
          simp [attempt?, Move.source?, stateIn?_eq_some_iff.2 hget, callOn?, hseq, hpoint]
        rw [attempted, hattempt]
        refine (world_finish h point (s.moveOut source)).trans ?_
        rw [world_moveOut]
        cases h.token.endCall? point <;> rfl
      have hrun : (move (.act (.finishTaking source sequence dest))).run s =
          (.endTaking (failureOfEnd none ((finish h point).run (s.moveOut source)).1)
            ((take j q' dest).run s').1, ((take j q' dest).run s').2) := by
        refine (run_withSource hget hpoint).trans ?_
        rw [← sequenceIn?_moveOut hget] at hseq
        exact run_withSequence (p := (j, q')) hseq
      refine ⟨s', dest, rfl, hworld, ?_, ?_⟩
      · rw [reply, hrun]
        rfl
      · show ((move _).run s).2 = _
        rw [hrun]
    | _ => cases htakes
  | _ => cases htakes

end Session

/-- One instance came from the other, and nothing happened to the passage but that its consumer may
have left. -/
structure Instance.Spared (q : SequenceId) (x y : Instance) : Prop where
  flowed : x.Flowed y
  handOff : q.index < x.sequences.size →
    y.handOff q = x.handOff q ∨ (y.handOff q).abandoned = true

namespace Instance.Spared

variable {q : SequenceId} {x y z : Instance}

theorem refl (q : SequenceId) (x : Instance) : x.Spared q x := ⟨.refl x, fun _ => .inl rfl⟩

theorem trans (h : x.Spared q y) (h' : y.Spared q z) : x.Spared q z := by
  refine ⟨h.flowed.trans h'.flowed, fun hlt => ?_⟩
  have hlt' : q.index < y.sequences.size := Nat.lt_of_lt_of_le hlt h.flowed.size
  rcases h.handOff hlt with hy | hy
  · exact (h'.handOff hlt').imp_left fun hz => hz.trans hy
  · exact .inr (h'.flowed.abandoned q hlt' hy)

end Instance.Spared

/-- A call that uses no state does nothing to a passage but that it may take from it or give it
up. -/
theorem Call.spared {c : Call} {q : SequenceId} (huses : c.uses = none)
    (htake : ∀ q', c = .take q' → q'.index ≠ q.index) (x : Instance) :
    x.Spared q (c.act.on x).2 := by
  refine ⟨c.flowed x, fun hlt => ?_⟩
  rw [handOff_on hlt]
  cases c with
  | take q' => exact .inl (if_neg (htake q' rfl))
  | abandon q' =>
    by_cases hq : q'.index = q.index
    · exact .inr (by simp [passed, hq, HandOff.abandon])
    · exact .inl (if_neg hq)
  | endIteration t q' body => cases huses
  | _ => exact .inl rfl

theorem Call.spared_of_releases {i : InstanceId} {c : Call} (hc : (Deed.call i c).Releases)
    (q : SequenceId) (x : Instance) : x.Spared q (c.act.on x).2 := by
  refine spared (hc.drains.isIdle) ?_ x
  rintro q' rfl
  exact hc.elim

namespace Session

open SessionM

variable {s : Session} {m : Move} {i : InstanceId} {q q' : SequenceId} {x y : Instance}
  {l : Ledger} {t : Token} {rest : List Token}

/-- A take that finds nothing. -/
theorem found_of_nil (htakes : s.takesFrom? m = some (i, q))
    (hy : (s.attempted m).instance? i = some y) (hqueue : (y.handOff q).queue = []) :
    (s.after [m]).world.instance? i = some y ∧ (s.reply m).found? = some
      (if (y.handOff q).isClosed || !(s.after [m]).vars.feeds i q then .ended else .pending) := by
  obtain ⟨s', dest, -, hworld, hfound, hafter⟩ := run_takes htakes
  rw [← hworld] at hy
  have hrun := run_take_nil hy hqueue dest
  rw [hrun] at hfound hafter
  refine ⟨?_, ?_⟩
  · rw [hafter]
    exact (World.instance?_on_self hy _).trans (by rw [on_take?_nil hqueue])
  · rw [hfound, hafter]

/-- A take finds the first body, and behind it is what was there before. -/
theorem found_of_cons (htakes : s.takesFrom? m = some (i, q))
    (hy : (s.attempted m).instance? i = some y) (hqueue : (y.handOff q).queue = t :: rest) :
    (s.reply m).found? = some (.body t.site) ∧ s.got? m = some t ∧
      ∃ z, (s.after [m]).world.instance? i = some z ∧ y.Flowed z ∧
        (z.handOff q = { y.handOff q with queue := rest } ∨ (z.handOff q).abandoned = true) := by
  obtain ⟨s', dest, hdest, hworld, hfound, hafter⟩ := run_takes htakes
  rw [← hworld] at hy
  rw [run_take_cons hy hqueue dest] at hfound hafter
  let s'' : Session := { s' with world := (s'.world.on i (Iterator.take? q)).2 }
  have hget : (s.after [m]).vars.get? dest = some (.state ⟨i, t⟩) := by
    have hinsert (vs : Variables) (h : Holding) :
        Variables.get? (Variables.insert vs dest h) dest = some h := by
      simp [Variables.get?, Variables.insert]
    rw [hafter, run_store]
    cases s''.vars.get? dest with
    | none => exact hinsert _ _
    | some held => cases held <;> exact hinsert _ _
  refine ⟨hfound, ?_, ?_⟩
  · rw [got?, hfound, hdest]
    simp [stateIn?_eq_some_iff.2 hget]
  · have hw : s''.world.instance? i = some ((Call.take q).act.on y).2 := by
      rw [Call.act, Act.on_map]
      exact World.instance?_on_self hy (Iterator.take? q)
    obtain ⟨z, hz, hspared⟩ := (only_store dest (.state ⟨i, t⟩) s'').related
      (Instance.Spared.refl q) .trans (fun _ x hc => Call.spared_of_releases hc q x) hw
    have hlt : q.index < y.sequences.size :=
      Instance.index_lt_of_mem (t := t) (by rw [hqueue]; exact List.mem_cons_self)
    have hflowed := (Call.take q).flowed y
    refine ⟨z, by rwa [hafter], hflowed.trans hspared.flowed, ?_⟩
    refine (hspared.handOff (Nat.lt_of_lt_of_le hlt hflowed.size)).imp_left fun hsame => ?_
    rw [hsame, Call.handOff_on hlt, Call.passed, if_pos rfl, hqueue]
    rfl

/-- A move that takes elsewhere. -/
theorem spared_of_besides (hy : (s.attempted m).instance? i = some y)
    (hnot : ∀ q', s.takesFrom? m = some (i, q') → q'.index ≠ q.index) :
    ∃ z, (s.after [m]).world.instance? i = some z ∧ y.Spared q z :=
  (besides_attempted s m).related (.refl q) .trans (fun c x hc =>
    Call.spared (Besides.isIdle hc) (fun q' hq => hnot q' (by rw [hq] at hc; exact hc)) x) hy

/-- A take is written down as it was. -/
theorem balances_recordTake (hy : (s.attempted m).instance? i = some y)
    (hlt : q.index < y.sequences.size) (h : l.Balances (y.handOff q)) :
    ∃ z, (s.after [m]).world.instance? i = some z ∧ y.Flowed z ∧
      ((z.handOff q).abandoned = false → (s.recordTake i q l m).Balances (z.handOff q)) := by
  by_cases htakes : ∃ q', s.takesFrom? m = some (i, q') ∧ q'.index = q.index
  · obtain ⟨q', htakes, hq⟩ := htakes
    rw [← Instance.handOff_congr hq] at h
    cases hqueue : (y.handOff q').queue with
    | nil =>
      obtain ⟨hz, hfound⟩ := found_of_nil htakes hy hqueue
      have hgot : s.got? m = none := by
        rw [got?, hfound]
        cases (y.handOff q').isClosed || !(s.after [m]).vars.feeds i q' <;> rfl
      refine ⟨y, hz, .refl y, fun _ => ?_⟩
      rw [recordTake, htakes, hgot, ← Instance.handOff_congr hq]
      exact h
    | cons t rest =>
      obtain ⟨-, hgot, z, hz, hflowed, hpassage⟩ := found_of_cons htakes hy hqueue
      refine ⟨z, hz, hflowed, fun hconsumer => ?_⟩
      rw [← Instance.handOff_congr hq] at hconsumer ⊢
      rcases hpassage with hpassage | hpassage
      · rw [recordTake, htakes, hgot, hpassage]
        simp only [hq, and_self, if_true]
        exact h.take hqueue
      · simp [hpassage] at hconsumer
  · have hnot : ∀ q', s.takesFrom? m = some (i, q') → q'.index ≠ q.index :=
      fun q' hq' hq => htakes ⟨q', hq', hq⟩
    obtain ⟨z, hz, hspared⟩ := spared_of_besides hy hnot
    have hsame : s.recordTake i q l m = l := by
      unfold recordTake
      split
      · next j q' body hq' _ =>
        refine if_neg ?_
        rintro ⟨rfl, hq⟩
        exact hnot q' hq' hq
      · rfl
    refine ⟨z, hz, hspared.flowed, fun hconsumer => ?_⟩
    rcases hspared.handOff hlt with hpassage | hpassage
    · rwa [hsame, hpassage]
    · simp [hpassage] at hconsumer

/-- What is written down was issued. -/
theorem issued_record (hx : s.world.instance? i = some x) (h : l.Issued x) (m : Move) :
    ∃ y, (s.after [m]).world.instance? i = some y ∧ (s.record i q l m).Issued y := by
  have hend : ∃ y, (s.attempted m).instance? i = some y ∧ (s.recordEnd i q l m).Issued y := by
    obtain ⟨y, hy, hle⟩ := related_attempted (R := fun x y => x.guards.Le y.guards)
      (fun x => .refl x.guards) (fun c x _ => c.guards_le x) hx m
    refine ⟨y, hy, ?_⟩
    unfold recordEnd
    split
    · next j q' body progress hends =>
      split
      · next hsame =>
        obtain ⟨rfl, -⟩ := hsame
        obtain ⟨x', t, site, hx', hattempt, rfl, hok⟩ := exists_of_ends? hends
        obtain rfl := Option.some.inj (hx.symm.trans hx')
        have hended := (Iterator.ends_endIteration t q' site x).of_ok hok
        obtain rfl := Option.some.inj (hy.symm.trans (attempted_endIteration hx hattempt))
        exact h.put hended hle
      · exact h.mono hle
    · exact h.mono hle
  obtain ⟨y, hy, hissued⟩ := hend
  obtain ⟨z, hz, hle⟩ := (besides_attempted s m).related
    (R := fun x y => x.guards.Le y.guards) (fun x => .refl x.guards)
    (fun h h' => h.trans h') (fun c x _ => c.guards_le x) hy
  refine ⟨z, hz, ?_⟩
  unfold record recordTake
  split
  · split
    · exact (hissued.take _).mono hle
    · exact hissued.mono hle
  · exact hissued.mono hle

/-- **What a move does to a sequence is written down as it was.** -/
theorem balances_record (hx : s.world.instance? i = some x) (hlt : q.index < x.sequences.size)
    (h : l.Balances (x.handOff q)) (m : Move) :
    ∃ y, (s.after [m]).world.instance? i = some y ∧ x.Flowed y ∧
      ((y.handOff q).abandoned = false → (s.record i q l m).Balances (y.handOff q)) := by
  obtain ⟨y, hy, hflowed, -, hbalances⟩ := balances_recordEnd hx hlt h m
  obtain ⟨z, hz, hflowed', hbalances'⟩ :=
    balances_recordTake hy (Nat.lt_of_lt_of_le hlt hflowed.size) hbalances
  exact ⟨z, hz, hflowed.trans hflowed', hbalances'⟩

/-- **The ledger balances** after all moves, until the consumer leaves. -/
theorem balances_ledger (hx : s.world.instance? i = some x) (hlt : q.index < x.sequences.size)
    (h : (x.handOff q).abandoned = false → l.Balances (x.handOff q)) (moves : List Move) :
    ∃ y, (s.after moves).world.instance? i = some y ∧ x.Flowed y ∧
      ((y.handOff q).abandoned = false → (s.ledger i q l moves).Balances (y.handOff q)) := by
  induction moves generalizing s x l with
  | nil => exact ⟨x, hx, .refl x, h⟩
  | cons m moves ih =>
    obtain ⟨y, hy, hflowed⟩ := flowed_after hx [m]
    have hrecord : (y.handOff q).abandoned = false →
        (s.record i q l m).Balances (y.handOff q) := by
      intro hconsumer
      have hconsumer' : (x.handOff q).abandoned = false := by
        cases hab : (x.handOff q).abandoned with
        | false => rfl
        | true => simp [hflowed.abandoned q hlt hab] at hconsumer
      obtain ⟨y', hy', -, hbalances⟩ := balances_record hx hlt (h hconsumer') m
      obtain rfl := Option.some.inj (hy.symm.trans hy')
      exact hbalances hconsumer
    obtain ⟨z, hz, hflowed', hbalances⟩ :=
      ih hy (Nat.lt_of_lt_of_le hlt hflowed.size) hrecord
    exact ⟨z, hz, hflowed.trans hflowed', hbalances⟩

/-- **No body is handed over twice.** -/
theorem issued_ledger (hx : s.world.instance? i = some x) (h : l.Issued x) (moves : List Move) :
    ∃ y, (s.after moves).world.instance? i = some y ∧ (s.ledger i q l moves).Issued y := by
  induction moves generalizing s x l with
  | nil => exact ⟨x, hx, h⟩
  | cons m moves ih =>
    obtain ⟨y, hy, hissued⟩ := issued_record hx h m
    exact ih hy hissued

end Session

end LoopProtocol
