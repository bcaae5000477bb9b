import LoopProtocol.Proofs.Abort
import LoopProtocol.Proofs.Failure
import LoopProtocol.Proofs.Feeds

/-!
# One slot, first in, first out

A loop's bodies go to the driver through a passage with one slot. Whatever a driver does, with any
number of states that feed the passage, no body is lost or comes twice until the consumer leaves,
and the bodies come in the order in which they were handed over. An end that finds the slot taken
waits; a take lets it go on, and when the consumer leaves it fails. Once the passage is closed every
hand-over fails, but what is in the slot can still be taken.
-/

namespace LoopProtocol

open Act

/-! ## The hand-over -/

/-- The end of an iteration has a body to hand over: its state is unused, the instance runs, the
loop is innermost, and an iteration follows. -/
structure Instance.HandsOver (x : Instance) (t : Token) (q : SequenceId) : Prop where
  unused : t.isConsumed x = false
  running : x.aborted = false
  more : ∃ top below, x.stack.onTop? q.loop = some (top, below) ∧ top.advance.canEnter = true

namespace Iterator

variable {x : Instance} {t : Token} {q : SequenceId}

/-- **What comes of a hand-over** depends on the passage alone. -/
theorem ends_handsOver (h : x.HandsOver t q) (body : Site) :
    (endIteration t q body).Ends x
      (fun progress _ => (x.handOff q).isClosed = false ∧
        progress = if (x.handOff q).queue.isEmpty then .delivered else .waiting)
      fun e _ => (x.handOff q).isClosed = true ∧ e = .handOffClosed q.loop := by
  obtain ⟨hunused, hrun, top, below, htop, hmore⟩ := h
  refine Ends.bind (ends_consume_either (fun hused => ?_) fun _ => Ends.bind ?_)
  · simp [hunused] at hused
  refine ends_complete_either (fun hab => ?_) (fun _ hnone => ?_) fun top' below' _ htop' => ?_
  · simp [Instance.spend, hrun] at hab
  · simp [Instance.spend, htop] at hnone
  obtain ⟨rfl, rfl⟩ : top = top' ∧ below = below' := by simpa [Instance.spend, htop] using htop'
  unfold turn
  rw [if_pos hmore]
  refine Ends.bind (ends_iteration (Ends.bind (ends_issue ?_)))
  refine ends_handOver_sorted (fun hclosed => ⟨hclosed, rfl⟩) (fun hopen hqueue _ _ _ => ?_)
    fun hopen hqueue _ _ _ => ?_
  · have hempty : (x.handOff q).queue = [] := hqueue
    exact ⟨hopen, by rw [hempty]; rfl⟩
  · have htaken : (x.handOff q).queue ≠ [] := hqueue
    exact ⟨hopen, by simp [htaken]⟩

end Iterator

/-! ## Ends that wait -/

/-- One instance came from the other, and nothing was taken from the sequence. So the ends that
waited for its slot still do, or the instance was aborted. -/
structure Instance.KeepsWaiting (q : SequenceId) (x y : Instance) : Prop where
  flowed : x.Flowed y
  aborted : x.aborted = true → y.aborted = true
  waits : q.index < x.sequences.size → (x.handOff q).abandoned = false →
    (x.handOff q).queue.tail ≠ [] → y.aborted = true ∨
      (y.handOff q).abandoned = false ∧ (y.handOff q).queue.tail ≠ []

namespace Instance.KeepsWaiting

variable {q : SequenceId} {x y z : Instance}

theorem refl (q : SequenceId) (x : Instance) : x.KeepsWaiting q x :=
  ⟨.refl x, fun h => h, fun _ h h' => .inr ⟨h, h'⟩⟩

theorem trans (h : x.KeepsWaiting q y) (h' : y.KeepsWaiting q z) : x.KeepsWaiting q z := by
  refine ⟨h.flowed.trans h'.flowed, fun ha => h'.aborted (h.aborted ha), fun hlt hab hwait => ?_⟩
  rcases h.waits hlt hab hwait with ha | ⟨hab', hwait'⟩
  · exact .inl (h'.aborted ha)
  · exact h'.waits (Nat.lt_of_lt_of_le hlt h.flowed.size) hab' hwait'

end Instance.KeepsWaiting

/-- **An end that waits fails only with its instance**, unless something is taken. -/
theorem Call.keepsWaiting {c : Call} {q : SequenceId}
    (htake : ∀ q', c = .take q' → q'.index ≠ q.index) (x : Instance) :
    x.KeepsWaiting q (c.act.on x).2 := by
  refine ⟨c.flowed x, (c.grown x).aborted, fun hlt hab hwait => ?_⟩
  rw [handOff_on hlt]
  cases c with
  | take q' => exact .inr ⟨by rwa [passed, if_neg (htake q' rfl)],
      by rwa [passed, if_neg (htake q' rfl)]⟩
  | abandon q' =>
    by_cases hq : q'.index = q.index
    · refine .inl ?_
      have hwaiting : (x.handOff q').waiting.isEmpty = false := by
        rw [Instance.handOff_congr hq, HandOff.waiting]
        simpa using hwait
      rw [Call.act, Act.on_map, on_abandon, hwaiting]
      exact Instance.aborted_fail _ _
    · exact .inr ⟨by rwa [passed, if_neg hq], by rwa [passed, if_neg hq]⟩
  | endIteration t q' body =>
    refine .inr ?_
    rw [passed]
    split
    · next hq =>
      rw [← Instance.handOff_congr hq] at hab hwait ⊢
      split
      · next progress _ =>
        obtain ⟨first, rest, hqueue⟩ := List.exists_cons_of_ne_nil
          (fun h : (x.handOff q').queue = [] => hwait (by rw [h]; rfl))
        rw [hqueue] at hwait
        cases progress with
        | delivered | waiting => exact ⟨hab, by simp [Iterator.Progress.leaves, hqueue]⟩
        | closed =>
          exact ⟨hab, by simpa [Iterator.Progress.leaves, HandOff.close, hqueue] using hwait⟩
      · exact ⟨hab, hwait⟩
    · exact ⟨hab, hwait⟩
  | _ => exact .inr ⟨hab, hwait⟩

namespace Session

open SessionM

variable {s : Session} {m : Move} {i : InstanceId} {q : SequenceId} {x y : Instance} {t : Token}
  {body : Site} {l : Ledger}

/-! ## What a move answers -/

/-- The end of an iteration that has a body to hand over, as long as the passage is open. -/
theorem ends?_of_handsOver (hx : s.world.instance? i = some x)
    (hattempt : s.attempt? m = some (⟨i, t⟩, .endIteration t q body)) (h : x.HandsOver t q)
    (hopen : (x.handOff q).isClosed = false) :
    s.ends? m = some (i, q, x.nextBody q body,
      if (x.handOff q).queue.isEmpty then .delivered else .waiting) := by
  have hends := Iterator.ends_handsOver h body
  rw [ends?, hattempt]
  simp only [hx, Option.bind_some]
  cases hr : ((Iterator.endIteration t q body).on x).1 with
  | ok progress => rw [(hends.of_ok hr).2]
  | error e =>
    have hclosed := hends.of_error hr
    simp [hopen] at hclosed

/-- The end of an iteration that has a body to hand over, once the passage is closed. -/
theorem refused_of_handsOver (hs : s.Issued) (hx : s.world.instance? i = some x)
    (hattempt : s.attempt? m = some (⟨i, t⟩, .endIteration t q body)) (h : x.HandsOver t q)
    (hclosed : (x.handOff q).isClosed = true) :
    (s.reply m).fault? = some (.handOffClosed q.loop) ∧ (s.after [m]).world.Aborted i := by
  have hends := Iterator.ends_handsOver h body
  have herror : (s.world.on i (Call.endIteration t q body).act).1 =
      .error (.handOffClosed q.loop) := by
    rw [World.on_eq hx, Call.act, Act.on_map]
    cases hr : ((Iterator.endIteration t q body).on x).1 with
    | ok progress =>
      have hopen := (hends.of_ok hr).1
      simp [hclosed] at hopen
    | error e => rw [(hends.of_error hr).2]; rfl
  exact ⟨((opens_attempt hattempt).refused _ herror).1, aborted_of_refused hs hattempt herror⟩

/-- Nothing goes into a closed passage. -/
theorem closed_of_ends? (hx : s.world.instance? i = some x)
    (hclosed : (x.handOff q).isClosed = true) {token : Token} {progress : Iterator.Progress}
    (hends : s.ends? m = some (i, q, token, progress)) : progress = .closed := by
  obtain ⟨x', t, site, hx', -, -, hok⟩ := exists_of_ends? hends
  obtain rfl := Option.some.inj (hx.symm.trans hx')
  have hended := (Iterator.ends_endIteration t q site x).of_ok hok
  cases progress with
  | closed => rfl
  | delivered => simp [(hended.delivered rfl).1] at hclosed
  | waiting => simp [(hended.waiting rfl).1] at hclosed

/-- A move that takes can find no other fault than that of the end that it attempts. -/
theorem goesOn_of_takesFrom? {p : InstanceId × SequenceId} (htakes : s.takesFrom? m = some p) :
    m.goesOn = false := by
  cases m with
  | act action => cases action <;> first | rfl | cases htakes
  | foreach source dest => rfl
  | _ => cases htakes

/-- **An end that waits succeeds after a take.** If it is the only one, its body is in the slot
then. -/
theorem resumed_of_take (hx : s.world.instance? i = some x) {token : Token}
    (htakes : s.takesFrom? m = some (i, q)) (hends : s.ends? m = some (i, q, token, .waiting)) :
    (s.reply m).fault? = none ∧ ∃ first, s.got? m = some first ∧
      s.record i q l m = ({ l with waiting := l.waiting ++ [token] } : Ledger).take first := by
  obtain ⟨x', t, site, hx', hattempt, rfl, hok⟩ := exists_of_ends? hends
  obtain rfl := Option.some.inj (hx.symm.trans hx')
  have hended := (Iterator.ends_endIteration t q site x).of_ok hok
  obtain ⟨hopen, htaken⟩ := hended.waiting rfl
  obtain ⟨first, rest, hqueue⟩ := List.exists_cons_of_ne_nil htaken
  have hy := attempted_endIteration hx hattempt
  have hpassage : (((Iterator.endIteration t q site).on x).2.handOff q).queue =
      first :: (rest ++ [x.nextBody q site]) := by
    have hlt := Instance.index_lt_of_open hopen
    rw [Instance.handOff_of_set hended.sequences hlt q, if_pos rfl, Iterator.Progress.leaves,
      hqueue]
    rfl
  obtain ⟨-, hgot, -⟩ := found_of_cons htakes hy hpassage
  have hgrant : (s.world.on i (Call.endIteration t q site).act).1 = .ok .nothing := by
    rw [World.on_eq hx, Call.act, Act.on_map, hok]
    rfl
  refine ⟨(opens_attempt hattempt).accepted (goesOn_of_takesFrom? htakes) _ hgrant, first, hgot, ?_⟩
  simp [record, recordEnd, recordTake, hends, htakes, hgot, Ledger.put]

/-- **An end that waits fails when its sequence is dropped.** -/
theorem reply_finishDropping {source : Source} {sequence : String} {token : Token}
    (hs : s.Issued) (hseq : s.sequenceIn? sequence = some (i, q))
    (hends : s.ends? (.act (.finishDropping source sequence)) = some (i, q, token, .waiting)) :
    s.reply (.act (.finishDropping source sequence)) = .fault (.handOffClosed q.loop) ∧
      (s.after [.act (.finishDropping source sequence)]).world.Aborted i := by
  obtain ⟨x, t, site, hx, hattempt, -, hok⟩ := exists_of_ends? hends
  obtain ⟨name, hname, hget, hcall⟩ := attempt?_eq_some_iff.1 hattempt
  cases hname
  obtain ⟨p, hp, hend⟩ := Option.bind_eq_some_iff.1 hcall
  obtain ⟨point, hpoint, hc⟩ := Option.bind_eq_some_iff.1 hend
  obtain rfl := Option.some.inj (hseq.symm.trans hp)
  cases point with
  | protocol closes => cases hc
  | iteration nextBody =>
    obtain ⟨q', hfeed, hc⟩ := Option.map_eq_some_iff.1 hc
    cases hc
    have hv : (s.world.on i (Iterator.endIteration t q site)).1 = .ok .waiting := by
      rw [World.on_eq hx, hok]
    have hreply : s.reply (.act (.finishDropping source sequence)) =
        .fault (.handOffClosed q.loop) := by
      rw [reply, run_finishDropping hget hpoint hp]
      have hfeed' : t.feed = some q := hfeed
      simp only [finish, hfeed', bind_assoc, run_on, world_moveOut]
      rw [hv]
      rfl
    refine ⟨hreply, aborted_of_dropping hs hattempt (fun q' hq' => ?_) (by rw [hreply]; rfl)⟩
    obtain rfl : q = q' := Option.some.inj (hfeed.symm.trans hq')
    exact hseq

/-- A move that takes nothing from the sequence lets its ends wait on, or fail with the
instance. -/
theorem aborted_of_waiting (hx : s.world.instance? i = some x)
    (hlt : q.index < x.sequences.size) (hconsumer : (x.handOff q).abandoned = false)
    (hwait : (x.handOff q).queue.tail ≠ [])
    (htakes : ∀ q', s.takesFrom? m = some (i, q') → q'.index ≠ q.index)
    (hy : (s.after [m]).world.instance? i = some y) (hleft : (y.handOff q).abandoned = true) :
    y.aborted = true := by
  obtain ⟨z, hz, hkeeps⟩ := related_attempted (.refl q) (fun c x huses =>
    Call.keepsWaiting (q := q) (by rintro q' rfl; exact absurd rfl huses) x) hx m
  obtain ⟨y', hy', hkeeps'⟩ := (besides_attempted s m).related (.refl q) .trans
    (fun c x hc => Call.keepsWaiting (fun q' hq => htakes q' (by rw [hq] at hc; exact hc)) x) hz
  obtain rfl := Option.some.inj (hy.symm.trans hy')
  rcases (hkeeps.trans hkeeps').waits hlt hconsumer hwait with ha | ⟨hstays, -⟩
  · exact ha
  · simp [hleft] at hstays

/-! ## A sequence from its opening on -/

/-- The ledger of a sequence that a move opens: the first body is handed over as the loop is
entered. -/
def opening (s : Session) (m : Move) (i : InstanceId) (q : SequenceId) : Ledger where
  handed := ((s.attempted m).instance? i).elim [] fun x => (x.handOff q).queue
  waiting := []
  taken := []

/-- A new sequence has at most its first body in the slot. -/
theorem opening_of_opened? {d : Dealing} (hcov : d.Covers s) (hissued : d.Issued)
    (hopened : s.opened? m = some (i, q)) :
    ∃ y, (s.after [m]).world.instance? i = some y ∧ q.index < y.sequences.size ∧
      ((y.handOff q).abandoned = false → (s.opening m i q).Balances (y.handOff q)) ∧
      (s.opening m i q).Issued y := by
  obtain ⟨x, y, shape, t, hx, hattempt, -, hy, hnew⟩ := exists_of_opened? hopened
  have hattempted : (s.attempted m).instance? i = some y := by
    rw [attempted, hattempt]
    exact hy
  have hlt : q.index < y.sequences.size := by
    rw [hnew.id]
    rcases hnew.sequences with h | h <;> simp [h]
  have hlength : (y.handOff q).queue.length ≤ 1 := by
    have hindex : q.index = x.sequences.size := congrArg SequenceId.index hnew.id
    rw [Instance.handOff, hindex]
    rcases hnew.sequences with h | h <;> simp [h, Array.getD_eq_getD_getElem?]
  have hhanded : (s.opening m i q).handed = (y.handOff q).queue := by
    rw [opening, hattempted]
    rfl
  have hbalances : (s.opening m i q).Balances (y.handOff q) := by
    refine ⟨?_, ?_⟩
    · rw [hhanded]
      exact List.take_of_length_le hlength
    · rw [← List.drop_one]
      exact (List.drop_eq_nil_of_le hlength).symm
  have hnone : s.takesFrom? m = none := by
    obtain ⟨source, surface, dest, after, rfl, -⟩ := eq_enter hattempt
    rfl
  obtain ⟨z, hz, hspared⟩ := spared_of_besides (q := q) hattempted (by simp [hnone])
  refine ⟨z, hz, Nat.lt_of_lt_of_le hlt hspared.flowed.size, fun hconsumer => ?_, ?_⟩
  · rcases hspared.handOff hlt with hsame | hleft
    · rwa [hsame]
    · simp [hleft] at hconsumer
  · have hlegal : d.Legal (.call i (.iterate shape t)) :=
      legal_of (legal_attempt hcov hattempt) (by simp)
    have hdistinct := (hissued.perform hlegal).distinct i y (by
      show (d.world.on i (Call.iterate shape t).act).2.instance? i = some y
      rw [hcov.world, hy])
    have hall : (s.opening m i q).handed ++ (s.opening m i q).waiting = (y.handOff q).queue := by
      rw [hhanded]
      exact List.append_nil _
    have hnodup : (y.handOff q).queue.Nodup := by
      rcases hqueue : (y.handOff q).queue with _ | ⟨first, _ | _⟩
      · exact List.nodup_nil
      · simp
      · simp [hqueue] at hlength
    have hy' : (s.opening m i q).Issued y := by
      refine ⟨hall.symm ▸ hnodup, fun u hu => ?_⟩
      rw [hall] at hu
      exact hdistinct.index_lt (.inr (queued_handOff hu))
    obtain ⟨z', hz', hle⟩ := (besides_attempted s m).related
      (R := fun x y => x.guards.Le y.guards) (fun x => .refl x.guards)
      (fun h h' => h.trans h') (fun c x _ => c.guards_le x) hattempted
    obtain rfl := Option.some.inj (hz.symm.trans hz')
    exact hy'.mono hle

/-- How a sequence of an instance stands, with the ledger of what went through it, and what the next
move can come to. -/
structure HandsOff (s : Session) (i : InstanceId) (q : SequenceId) (x : Instance) (l : Ledger) :
    Prop where
  /-- Until the consumer leaves, what was taken and what is in the slot is what was handed over. -/
  lossless : (x.handOff q).abandoned = false →
    l.taken ++ (x.handOff q).queue.take 1 = l.handed
  /-- Behind the slot are the bodies whose ends wait. -/
  behind : (x.handOff q).abandoned = false → (x.handOff q).queue.tail = l.waiting
  one : (x.handOff q).abandoned = false → l.waiting = [] → (x.handOff q).queue.length ≤ 1
  nodup : (l.handed ++ l.waiting).Nodup
  /-- A body that is handed over fills the slot, or waits for it. -/
  accepted : ∀ m t body, s.attempt? m = some (⟨i, t⟩, .endIteration t q body) →
    x.HandsOver t q → (x.handOff q).isClosed = false →
    s.ends? m = some (i, q, x.nextBody q body,
      if (x.handOff q).queue.isEmpty then .delivered else .waiting)
  /-- When the sequence is closed or its consumer left, the hand-over fails. -/
  refused : ∀ m t body, s.attempt? m = some (⟨i, t⟩, .endIteration t q body) →
    x.HandsOver t q → (x.handOff q).isClosed = true →
    (s.reply m).fault? = some (.handOffClosed q.loop) ∧ (s.after [m]).world.Aborted i
  /-- Then no end of an iteration delivers anything. -/
  closed : (x.handOff q).isClosed = true → ∀ m body progress,
    s.ends? m = some (i, q, body, progress) → progress = .closed
  /-- What is in the slot is taken, be the sequence closed or not. -/
  found : ∀ m y body rest, s.takesFrom? m = some (i, q) →
    (s.attempted m).instance? i = some y → (y.handOff q).queue = body :: rest →
    (s.reply m).found? = some (.body body.site) ∧ s.got? m = some body
  /-- An end that waits succeeds after a take, and its body is in the slot. -/
  resumed : ∀ m body, s.takesFrom? m = some (i, q) → s.ends? m = some (i, q, body, .waiting) →
    l.waiting = [] → (s.reply m).fault? = none ∧
      (s.record i q l m).handed = l.handed ++ [body] ∧ (s.record i q l m).waiting = []
  /-- An end that waits fails when the sequence is dropped. -/
  dropped : ∀ source sequence body, s.sequenceIn? sequence = some (i, q) →
    s.ends? (.act (.finishDropping source sequence)) = some (i, q, body, .waiting) →
    s.reply (.act (.finishDropping source sequence)) = .fault (.handOffClosed q.loop) ∧
      (s.after [.act (.finishDropping source sequence)]).world.Aborted i
  /-- Ends that wait from earlier on fail as well when the consumer leaves, whatever move does it,
  unless the move takes first. -/
  deserted : (x.handOff q).abandoned = false → l.waiting ≠ [] → ∀ m y,
    (∀ q', s.takesFrom? m = some (i, q') → q'.index ≠ q.index) →
    (s.after [m]).world.instance? i = some y → (y.handOff q).abandoned = true →
    y.aborted = true
  /-- Once a take found the end, every later take does. -/
  ended : ∀ m, s.takesFrom? m = some (i, q) → (s.reply m).found? = some .ended →
    ∀ later m', ((s.after [m]).after later).takesFrom? m' = some (i, q) →
      (((s.after [m]).after later).reply m').found? = some .ended

theorem handsOff {d : Dealing} (hs : s.Issued) (hcov : d.Covers s)
    (hfeeds : d.FeedsWithin (fun q' => q'.index = q.index → q' = q) i)
    (hx : s.world.instance? i = some x) (hlt : q.index < x.sequences.size)
    (hbalances : (x.handOff q).abandoned = false → l.Balances (x.handOff q)) (hl : l.Issued x) :
    s.HandsOff i q x l where
  lossless hconsumer := (hbalances hconsumer).lossless
  behind hconsumer := (hbalances hconsumer).waiting.symm
  one hconsumer hnone := by
    have hlength := congrArg List.length (hbalances hconsumer).waiting
    rw [hnone, List.length_nil, List.length_tail] at hlength
    omega
  nodup := hl.nodup
  accepted m t body hattempt h hopen := ends?_of_handsOver hx hattempt h hopen
  refused m t body hattempt h hclosed := refused_of_handsOver hs hx hattempt h hclosed
  closed hclosed m body progress hends := closed_of_ends? hx hclosed hends
  found m y body rest htakes hy hqueue := by
    obtain ⟨hfound, hgot, -⟩ := found_of_cons htakes hy hqueue
    exact ⟨hfound, hgot⟩
  resumed m body htakes hends hnone := by
    obtain ⟨hreply, first, -, hrecord⟩ := resumed_of_take (l := l) hx htakes hends
    exact ⟨hreply, by simp [hrecord, Ledger.take, hnone], by simp [hrecord, Ledger.take, hnone]⟩
  dropped source sequence body hseq hends := reply_finishDropping hs hseq hends
  deserted hconsumer hwait m y htakes hy hleft := by
    rw [(hbalances hconsumer).waiting] at hwait
    exact aborted_of_waiting hx hlt hconsumer hwait htakes hy hleft
  ended m htakes hended later m' htakes' :=
    ended_of_ended hcov hfeeds hx hlt htakes hended later htakes'

/-- **The hand-off is a FIFO with one slot.** A move opened the sequence, and any moves followed. -/
theorem hands_off_in_order (recorders : Nat) (instances : List (BoundTable × Option RecorderId))
    (before : List Move) (m : Move) (later : List Move) {i : InstanceId} {q : SequenceId}
    (hopened : ((start recorders instances).after before).opened? m = some (i, q)) :
    let s₀ := (start recorders instances).after before
    let s := (s₀.after [m]).after later
    ∃ x, s.world.instance? i = some x ∧
      s.HandsOff i q x ((s₀.after [m]).ledger i q (s₀.opening m i q) later) := by
  intro s₀ s
  obtain ⟨es, d₀, hruns, hcov₀, -⟩ := after_deeds (Dealing.covers_start recorders instances) before
  have hfeeds₀ := hruns.feedsWithin (Dealing.feedsWithin_start recorders instances i)
  have hissued₀ := hruns.issued (issued_start recorders instances)
  obtain ⟨d₁, hcov₁, hfeeds₁⟩ := feedsWithin_of_opened? hcov₀ hfeeds₀ hopened
  obtain ⟨fs, d, hruns', hcov, -⟩ := after_deeds hcov₁ later
  obtain ⟨y, hy, hlt, hbalances, hl⟩ := opening_of_opened? hcov₀ hissued₀ hopened
  obtain ⟨x, hx, hflowed, hbalances'⟩ := balances_ledger hy hlt hbalances later
  obtain ⟨x', hx', hl'⟩ := issued_ledger hy hl later
  obtain rfl := Option.some.inj (hx.symm.trans hx')
  have hs : s.Issued := by
    have hafter := issued_after recorders instances (before ++ [m] ++ later)
    rwa [after_append, after_append] at hafter
  exact ⟨x, hx, handsOff hs hcov (hruns'.feedsWithin hfeeds₁) hx
    (Nat.lt_of_lt_of_le hlt hflowed.size) hbalances' hl'⟩

/-- A loop of three iterations: while the second body is in the slot, another state ends the next
iteration and waits, until the second body is taken. -/
theorem hands_off_to_waiting :
    let instances : List (BoundTable × Option RecorderId) := [(BoundTable.ofList [("n", 3)], none)]
    let head : Site := .free ⟨"LoopC", ⟨3⟩, "n"⟩
    let enter : Move := .act (.enter ⟨"head", false⟩ (some .iterator) "bodies" "after")
    let later : List Move := [.act (.take "bodies" "item"), .act (.fork "item" "other"),
      .act (.finish ⟨"item", false⟩)]
    let next : Move := .act (.finishTaking ⟨"other", false⟩ "bodies" "item")
    let s₀ := (start 0 instances).after [.act (.issue head ⟨0⟩ "head")]
    let s := (s₀.after [enter]).after later
    let q : SequenceId := ⟨0, ⟨3⟩⟩
    let body (k : Nat) : Token := ⟨⟨k⟩, .item, some q⟩
    let l := (s₀.after [enter]).ledger ⟨0⟩ q (s₀.opening enter ⟨0⟩ q) later
    l = ⟨[body 1, body 4], [], [body 1]⟩ ∧
      s.ends? next = some (⟨0⟩, q, body 5, .waiting) ∧ (s.reply next).fault? = none ∧
      (s.record ⟨0⟩ q l next).handed = [body 1, body 4, body 5] := by
  intro instances head enter later next s₀ s q body l
  have hopened : s₀.opened? enter = some (⟨0⟩, q) := by decide +kernel
  have hl : l = ⟨[body 1, body 4], [], [body 1]⟩ := by decide +kernel
  have hends : s.ends? next = some (⟨0⟩, q, body 5, .waiting) := by decide +kernel
  obtain ⟨x, -, h⟩ :=
    hands_off_in_order 0 instances [.act (.issue head ⟨0⟩ "head")] enter later hopened
  obtain ⟨hreply, hhanded, -⟩ :=
    h.resumed next (body 5) (by decide +kernel) hends (congrArg Ledger.waiting hl)
  refine ⟨hl, hends, hreply, hhanded.trans ?_⟩
  show l.handed ++ [body 5] = _
  rw [hl]
  rfl

end Session

end LoopProtocol
