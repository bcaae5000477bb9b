import LoopProtocol.Proofs.Issued

/-!
# The fault that is on record

An instance writes the fault that aborts it into its log, and no fault after that. So the log of an
instance tells its first fault: it is what the call failed with that aborted the instance, or the
refusal of the bodies whose producers waited when their consumer left.
-/

namespace LoopProtocol

open Act

/-- The fault that a log line is about. -/
def LogLine.fault? : LogLine → Option Fault
  | aborted fault => some fault
  | _ => none

namespace Instance

/-- The faults in an instance's log. -/
def recorded (x : Instance) : List Fault := x.lines.toList.filterMap LogLine.fault?

variable {x y : Instance}

theorem recorded_fail (x : Instance) (e : Fault) :
    (x.fail e).recorded = if x.aborted then x.recorded else x.recorded ++ [e] := by
  unfold fail
  split <;> simp [recorded, LogLine.fault?]

/-- A line that is about no fault. -/
theorem recorded_push {line : LogLine} (hline : line.fault? = none)
    (hy : y.lines = x.lines.push line) : y.recorded = x.recorded := by
  simp [recorded, hy, hline]

end Instance

/-! ## Actions -/

/-- An action that succeeds leaves the record as it is, and one that fails puts its fault there
unless the instance was aborted. -/
def Act.Records {α : Type} (a : Act α) : Prop :=
  ∀ x, a.Ends x (fun _ y => y.recorded = x.recorded ∧ y.aborted = x.aborted)
    fun e y => y.recorded = (x.fail e).recorded ∧ y.aborted = true

namespace Act

variable {α β : Type} {a : Act α} {x : Instance}

theorem records_pure (v : α) : (pure v : Act α).Records := fun _ => ends_pure ⟨rfl, rfl⟩

theorem Records.bind {f : α → Act β} (h : a.Records) (hf : ∀ v, (f v).Records) :
    (a >>= f).Records := fun x => by
  refine (h x).andThen fun v y hy => ((hf v) y).mono (fun _ z hz => ?_) fun e z hz => ?_
  · exact ⟨hz.1.trans hy.1, hz.2.trans hy.2⟩
  · refine ⟨hz.1.trans ?_, hz.2⟩
    rw [Instance.recorded_fail, Instance.recorded_fail, hy.1, hy.2]

theorem Records.map (h : a.Records) (g : α → β) : (g <$> a).Records := fun x => Ends.map (h x)

theorem records_abort (e : Fault) : (abort e : Act α).Records := fun x =>
  ends_abort ⟨rfl, x.aborted_fail e⟩

theorem records_consume (t : Token) : t.consume.Records := fun x =>
  ends_consume (fun e => ⟨rfl, x.aborted_fail e⟩) fun _ =>
    ⟨Instance.recorded_push rfl rfl, rfl⟩

theorem records_issue (site : Site) (feed : Option SequenceId) : (issue site feed).Records :=
  fun _ => ends_issue ⟨rfl, rfl⟩

theorem records_setParam (name : String) (bound : UInt64) : (setParam name bound).Records :=
  fun _ => ends_setParam ⟨rfl, rfl⟩

theorem records_accept (label : String) : (accept label).Records := fun _ =>
  ends_accept ⟨Instance.recorded_push rfl rfl, rfl⟩

theorem records_ensureClosed (id : LoopId) : (ensureClosed id).Records := fun x =>
  ends_ensureClosed (fun e => ⟨rfl, x.aborted_fail e⟩) fun _ _ => ⟨rfl, rfl⟩

theorem records_terminate : terminate.Records := fun x =>
  ends_terminate (fun e => ⟨rfl, x.aborted_fail e⟩) fun _ _ =>
    ⟨Instance.recorded_push rfl rfl, rfl⟩

theorem records_activate (id : LoopId) (param : String) : (activate id param).Records := fun x =>
  ends_activate (fun e => ⟨rfl, x.aborted_fail e⟩)
    (fun _ _ _ _ _ => ⟨Instance.recorded_push rfl rfl, rfl⟩)
    fun _ _ _ _ => ⟨Instance.recorded_push rfl rfl, rfl⟩

theorem records_complete (id : LoopId) : (complete id).Records := fun x =>
  ends_complete (fun e => ⟨rfl, x.aborted_fail e⟩) fun _ _ _ _ _ =>
    ⟨Instance.recorded_push rfl rfl, rfl⟩

theorem records_iteration (f : Frame) : (iteration f).Records := fun _ =>
  ends_iteration ⟨Instance.recorded_push rfl rfl, rfl⟩

theorem records_exit (id : LoopId) : (exit id).Records := fun x =>
  ends_exit (fun e => ⟨rfl, x.aborted_fail e⟩) fun _ _ _ _ _ _ =>
    ⟨Instance.recorded_push rfl rfl, rfl⟩

theorem records_openSequence (id : LoopId) : (Iterator.openSequence id).Records := fun _ =>
  ends_openSequence ⟨rfl, rfl⟩

theorem records_closeSequence (q : SequenceId) : (Iterator.closeSequence q).Records := fun _ =>
  ends_closeSequence ⟨Instance.recorded_push rfl rfl, rfl⟩

theorem records_handOver (q : SequenceId) (body : Token) : (Iterator.handOver q body).Records :=
  fun x => by
    have hdelivered : (LogLine.handedOver q.loop).fault? = none := rfl
    have hwaiting : (LogLine.waiting q.loop).fault? = none := rfl
    unfold Ends
    rw [on_handOver]
    cases (x.handOff q).isClosed with
    | true => exact ⟨rfl, x.aborted_fail _⟩
    | false =>
      cases (x.handOff q).queue.isEmpty with
      | true => exact ⟨Instance.recorded_push hdelivered rfl, rfl⟩
      | false => exact ⟨Instance.recorded_push hwaiting rfl, rfl⟩

theorem records_take? (q : SequenceId) : (Iterator.take? q).Records := fun _ =>
  ends_take? (fun _ => ⟨rfl, rfl⟩) (fun _ _ => ⟨rfl, rfl⟩) fun _ _ _ _ =>
    ⟨Instance.recorded_push rfl rfl, rfl⟩

/-! ## Transitions -/

theorem records_use (t : Token) (u : Use) : (u.act t).Records := by
  cases u with
  | consume => exact records_consume t
  | send label => exact (records_consume t).bind fun _ => records_accept label
  | sendAfter id label =>
    exact (records_consume t).bind fun _ => (records_ensureClosed id).bind fun _ =>
      records_accept label
  | terminate => exact (records_consume t).bind fun _ => records_terminate
  | terminateAfter id =>
    exact (records_consume t).bind fun _ => (records_ensureClosed id).bind fun _ =>
      records_terminate

theorem records_sendAt (t : Token) (point : SendPoint) : (t.sendAt point).Records := by
  unfold Token.sendAt
  cases point.closes with
  | none => exact (records_use t (.send point.label)).bind fun _ => records_issue _ _
  | some id => exact (records_use t (.sendAfter id point.label)).bind fun _ => records_issue _ _

theorem records_finish (t : Token) (closes : Option LoopId) : (t.finish closes).Records := by
  cases closes with
  | none => exact records_use t .terminate
  | some id => exact records_use t (.terminateAfter id)

theorem records_enter (shape : LoopShape) (t : Token) : (Polling.enter shape t).Records := by
  refine (records_consume t).bind fun _ => (records_activate _ _).bind fun f => ?_
  split
  · exact (records_iteration f).bind fun _ => records_issue _ _
  · exact records_abort _

theorem records_exit_head (shape : LoopShape) (t : Token) : (Polling.exit shape t).Records :=
  (records_consume t).bind fun _ => (records_exit _).bind fun _ => records_issue _ _

theorem records_iteratorTurn (q : SequenceId) (f : Frame) (body : Site) :
    (Iterator.turn q f body).Records := by
  unfold Iterator.turn
  split
  · exact (records_iteration f).bind fun _ => (records_issue _ _).bind fun _ =>
      records_handOver q _
  · exact (records_exit _).bind fun _ => (records_closeSequence q).bind fun _ => records_pure _

theorem records_iterate (shape : LoopShape) (t : Token) : (Iterator.enter shape t).Records :=
  (records_consume t).bind fun _ => (records_activate _ _).bind fun f =>
    (records_openSequence _).bind fun q => (records_iteratorTurn q f _).bind fun _ =>
      (records_issue _ _).bind fun _ => records_pure _

theorem records_endIteration (t : Token) (q : SequenceId) (body : Site) :
    (Iterator.endIteration t q body).Records :=
  (records_consume t).bind fun _ => (records_complete _).bind fun f => records_iteratorTurn q f body

theorem records_callbackTurn (shape : LoopShape) (f : Frame) : (Callback.turn shape f).Records := by
  unfold Callback.turn
  split
  · exact (records_iteration f).bind fun _ => (records_issue _ _).bind fun _ => records_pure _
  · exact (records_exit _).bind fun _ => (records_issue _ _).bind fun _ => records_pure _

theorem records_begin (shape : LoopShape) (t : Token) : (Callback.begin shape t).Records :=
  (records_consume t).bind fun _ => (records_activate _ _).bind fun f =>
    records_callbackTurn shape f

theorem records_advance (shape : LoopShape) : (Callback.advance shape).Records :=
  (records_complete _).bind fun f => records_callbackTurn shape f

end Act

/-- **A call puts the fault that it answers on record**, unless one is there. Only a consumer that
leaves may abort its instance without a fault of its own. -/
theorem Call.records {c : Call} (hc : ∀ q, c ≠ .abandon q) : c.act.Records := by
  cases c with
  | issue site => exact (records_issue site none).map _
  | fork t => exact (records_issue .item t.feed).map _
  | setParam name bound => exact (records_setParam name bound).map _
  | use t u => exact (records_use t u).map _
  | send t point => exact (records_sendAt t point).map _
  | finish t closes => exact (records_finish t closes).map _
  | enter shape t => exact (records_enter shape t).map _
  | exit shape t => exact (records_exit_head shape t).map _
  | iterate shape t => exact (records_iterate shape t).map _
  | endIteration t q body => exact (records_endIteration t q body).map _
  | take q => exact (records_take? q).map _
  | abandon q => exact absurd rfl (hc q)
  | begin shape t => exact (records_begin shape t).map _
  | giveBack t => exact (records_consume t).map _
  | advance shape j => exact (records_advance shape).map _
  | fail fault => exact (records_abort fault).map _

/-- **An aborted instance keeps its record.** -/
theorem Call.recorded_of_aborted (c : Call) {x : Instance} (ha : x.aborted = true) :
    (c.act.on x).2.recorded = x.recorded := by
  by_cases hc : ∀ q, c ≠ .abandon q
  · refine Ends.on (P := fun y => y.recorded = x.recorded) ?_
    refine (Call.records hc x).mono (fun _ y hy => hy.1) fun e y hy => ?_
    rw [hy.1, Instance.recorded_fail, if_pos ha]
  · obtain ⟨q, hq⟩ := not_forall.1 hc
    obtain rfl := not_not.1 hq
    refine Ends.on (P := fun y => y.recorded = x.recorded) (Ends.map (ends_abandon rfl fun e => ?_))
    rw [Instance.fail_of_aborted]
    · rfl
    · exact ha

end LoopProtocol
