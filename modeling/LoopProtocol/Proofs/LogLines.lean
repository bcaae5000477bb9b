import LoopProtocol.Proofs.IdleMove
import LoopProtocol.Proofs.Recorded

/-!
# Lines and events

An instance writes each of its events into its log as well, and more than that: each use of a state,
and the fault that aborts it. `Told` is what its lines then say. Read back they are its events, in
the same order; there is one line for each guard that was used; and from the abort on there are only
lines of states that were used and of messages that were sent. Every call keeps that.

The log of a world has the lines of all its instances (`Logs`), so what is known of the lines of an
instance is known of what a reader of the log finds.
-/

namespace LoopProtocol

open Act

/-! ## Lines -/

/-- The line about the use of a state. -/
def Token.useLine (t : Token) : LogLine := .consumed t.site.name t.site.role

namespace LogLine

/-- The event that a line tells. -/
def event? : LogLine → Option Event
  | activated id bound => some (.activated id bound)
  | entered frame => some (.iteration frame.id frame.current)
  | accepted label => some (.sent label)
  | exited frame => some (.exited frame.id)
  | terminated => some .terminated
  | _ => none

/-- Whether a line names its instance. A sequence writes lines too, and knows of no instance. -/
def namesInstance : LogLine → Bool
  | handedOver _ | waiting _ | sequenceClosed _ => false
  | _ => true

/-- Whether a line is about the use of a state. -/
def isUse : LogLine → Bool
  | consumed _ _ => true
  | _ => false

/-- Whether a line can be written without a look at the stack. -/
def isUnchecked : LogLine → Bool
  | consumed _ _ | accepted _ | handedOver _ | waiting _ | sequenceClosed _ => true
  | _ => false

variable {line : LogLine}

/-- The messages of the lines that tell events. -/
def eventMessages : List String :=
  ["loop activated", "body entered", "payload accepted", "loop exited", "protocol terminated"]

theorem isSome_event?_iff : line.event?.isSome = true ↔ line.message ∈ eventMessages := by
  cases line <;> simp [event?, message, eventMessages]

theorem isUse_iff : line.isUse = true ↔ line.message = "state consumed" := by
  cases line <;> simp [isUse, message]

theorem isUnchecked_iff (hnames : line.namesInstance = true) : line.isUnchecked = true ↔
    line.message = "state consumed" ∨ line.message = "payload accepted" := by
  cases line <;> simp_all [isUnchecked, message, namesInstance]

/-- The warnings are the lines about faults. -/
theorem fault?_eq_none_iff : line.fault? = none ↔ line.level ≠ .warn := by
  cases line <;> simp [fault?, level]

end LogLine

/-! ## The lines of an instance -/

/-- A guard that lets somebody past was issued. -/
theorem Guards.index_lt {g : Guards} {id : GuardId} (h : g.isConsumed id = false) :
    id.index < g.spent.size := by
  by_contra hlt
  simp [isConsumed, Array.getD_eq_getD_getElem?, hlt] at h

namespace Instance

/-- The lines about uses are those of the states `used`, and these have the guards that let nobody
past any more. -/
structure Uses (x : Instance) (used : List Token) : Prop where
  lines : x.lines.toList.filter LogLine.isUse = used.map Token.useLine
  nodup : (used.map (·.guard)).Nodup
  guards : ∀ id, id ∈ used.map (·.guard) ↔
    id.index < x.guards.spent.size ∧ x.guards.isConsumed id = true

/-- What the lines of an instance tell, of which the states `given` may have been used. -/
structure Told (given : List Token) (x : Instance) : Prop where
  events : x.lines.toList.filterMap LogLine.event? = x.events.toList
  uses : ∃ used, used ⊆ given ∧ x.Uses used
  running : x.aborted = false → x.recorded = []
  aborted : x.aborted = true → ∃ early late e, x.lines.toList = early ++ .aborted e :: late ∧
    (∀ l ∈ early, l.fault? = none) ∧ ∀ l ∈ late, l.isUnchecked = true

/-- `y` is `x` with one more line, and with the event that it tells. -/
structure Writes (x y : Instance) (line : LogLine) : Prop where
  lines : y.lines = x.lines.push line
  events : y.events = line.event?.elim x.events x.events.push
  aborted : y.aborted = x.aborted

variable {x y : Instance} {given given' used : List Token} {line : LogLine}

namespace Uses

theorem keep (h : x.Uses used)
    (hlines : y.lines.toList.filter LogLine.isUse = x.lines.toList.filter LogLine.isUse)
    (hguards : y.guards = x.guards) : y.Uses used :=
  ⟨hlines.trans h.lines, h.nodup, by rw [hguards]; exact h.guards⟩

/-- One more state is issued, which was not used yet. -/
theorem issue (h : x.Uses used) : Uses { x with guards := x.guards.issue } used := by
  refine ⟨h.lines, h.nodup, fun id => ?_⟩
  have hsize : x.guards.issue.spent.size = x.guards.spent.size + 1 := by simp [Guards.issue]
  rw [h.guards, hsize]
  by_cases hid : id = x.guards.next
  · subst hid
    rw [Guards.isConsumed_issue_next]
    simp [Guards.next]
  · have hne : id.index ≠ x.guards.spent.size := fun e => hid (by cases id; simp_all [Guards.next])
    rw [Guards.isConsumed_issue_of_ne hid]
    simp only [and_congr_left_iff]
    omega

/-- A state is used that was not used before. -/
theorem spend (h : x.Uses used) {t : Token} (hunused : t.isConsumed x = false) :
    (x.spend t).Uses (used ++ [t]) := by
  have hlt : t.guard.index < x.guards.spent.size := Guards.index_lt hunused
  have hnew : t.guard ∉ used.map (·.guard) := fun hmem => by
    have hused : t.isConsumed x = true := ((h.guards t.guard).1 hmem).2
    simp [hunused] at hused
  refine ⟨?_, ?_, fun id => ?_⟩
  · simp [Instance.spend, h.lines, LogLine.isUse, Token.useLine]
  · simpa [List.nodup_append] using ⟨h.nodup, fun u hu e => hnew (List.mem_map.2 ⟨u, hu, e⟩)⟩
  · rw [List.map_append, List.mem_append, h.guards]
    simp only [Instance.spend, Guards.isConsumed_spend, List.map_cons, List.map_nil,
      List.mem_singleton, Bool.or_eq_true, decide_eq_true_eq]
    have hsize : (x.guards.spend t.guard).spent.size = x.guards.spent.size := by simp [Guards.spend]
    rw [hsize]
    constructor
    · rintro (⟨hid, hused⟩ | rfl)
      · exact ⟨hid, .inr hused⟩
      · exact ⟨hlt, .inl rfl⟩
    · rintro ⟨hid, rfl | hused⟩
      · exact .inr rfl
      · exact .inl ⟨hid, hused⟩

end Uses

namespace Told

/-- Nothing is written and no guard is touched. -/
theorem keep (h : x.Told given) (hlines : y.lines = x.lines) (hevents : y.events = x.events)
    (hguards : y.guards = x.guards) (haborted : y.aborted = x.aborted) : y.Told given where
  events := by rw [hlines, hevents, h.events]
  uses := by
    obtain ⟨used, hsub, huses⟩ := h.uses
    exact ⟨used, hsub, huses.keep (by rw [hlines]) hguards⟩
  running hrun := by rw [recorded, hlines, ← recorded, h.running (haborted ▸ hrun)]
  aborted ha := by
    rw [hlines]
    exact h.aborted (haborted ▸ ha)

theorem issue (h : x.Told given) : Told given { x with guards := x.guards.issue } where
  events := h.events
  uses := by
    obtain ⟨used, hsub, huses⟩ := h.uses
    exact ⟨used, hsub, huses.issue⟩
  running := h.running
  aborted := h.aborted

/-- What is told of events and of the fault after one more line. -/
theorem push (h : x.Told given) (hw : x.Writes y line) (hfault : line.fault? = none)
    (hunchecked : x.aborted = true → line.isUnchecked = true)
    (huses : ∃ used, used ⊆ given ∧ y.Uses used) : y.Told given where
  events := by
    rw [hw.lines, hw.events, Array.toList_push, List.filterMap_append, h.events]
    cases hline : line.event? <;> simp [hline]
  uses := huses
  running hrun := by rw [recorded_push hfault hw.lines, h.running (hw.aborted ▸ hrun)]
  aborted ha := by
    rw [hw.aborted] at ha
    obtain ⟨early, late, e, hsplit, hearly, hlate⟩ := h.aborted ha
    refine ⟨early, late ++ [line], e, by rw [hw.lines, Array.toList_push, hsplit]; simp, hearly, ?_⟩
    intro l hl
    rcases List.mem_append.1 hl with hl | hl
    · exact hlate l hl
    · rw [List.mem_singleton.1 hl]
      exact hunchecked ha

/-- A line that is about no use. -/
theorem write (h : x.Told given) (line : LogLine) (hw : x.Writes y line)
    (hguards : y.guards = x.guards) (hfault : line.fault? = none) (huse : line.isUse = false)
    (hunchecked : x.aborted = true → line.isUnchecked = true) : y.Told given := by
  obtain ⟨used, hsub, huses⟩ := h.uses
  refine h.push hw hfault hunchecked ⟨used, hsub, huses.keep ?_ hguards⟩
  simp [hw.lines, huse]

/-- A line that needs a look at the stack is written only on an instance that runs. -/
theorem writeRunning (h : x.Told given) (line : LogLine) (ha : x.aborted = false)
    (hw : x.Writes y line) (hguards : y.guards = x.guards) (hfault : line.fault? = none)
    (huse : line.isUse = false) : y.Told given :=
  h.write line hw hguards hfault huse fun ha' => by simp [ha] at ha'

theorem spend (h : x.Told given) {t : Token} (ht : t ∈ given) (hunused : t.isConsumed x = false) :
    (x.spend t).Told given := by
  obtain ⟨used, hsub, huses⟩ := h.uses
  have hw : x.Writes (x.spend t) t.useLine := ⟨rfl, rfl, rfl⟩
  refine h.push hw rfl (fun _ => rfl) ⟨used ++ [t], ?_, huses.spend hunused⟩
  exact List.append_subset.2 ⟨hsub, by simpa using ht⟩

theorem fail (h : x.Told given) (e : Fault) : (x.fail e).Told given := by
  cases ha : x.aborted with
  | true => rwa [fail_of_aborted e ha]
  | false =>
    obtain ⟨used, hsub, huses⟩ := h.uses
    refine ⟨?_, ⟨used, hsub, huses.keep ?_ (x.guards_fail e)⟩, fun hrun => ?_,
      fun _ => ⟨x.lines.toList, [], e, ?_, fun l hl => ?_, by simp⟩⟩
    · simp [Instance.fail, ha, h.events, LogLine.event?]
    · simp [Instance.fail, ha, LogLine.isUse]
    · simp at hrun
    · simp [Instance.fail, ha]
    · exact List.filterMap_eq_nil_iff.1 (h.running ha) l hl

theorem mono (h : x.Told given) (hsub : given ⊆ given') : x.Told given' where
  events := h.events
  uses := by
    obtain ⟨used, hused, huses⟩ := h.uses
    exact ⟨used, List.Subset.trans hused hsub, huses⟩
  running := h.running
  aborted := h.aborted

/-- A hand-over writes that the body was handed over or has to wait, and neither is an event. -/
theorem ends_handOver (h : x.Told given) (q : SequenceId) (body : Token) :
    (Iterator.handOver q body).Ends x (fun _ => Told given) fun _ => Told given := by
  unfold Ends
  rw [on_handOver]
  cases (x.handOff q).isClosed with
  | true => exact h.fail _
  | false =>
    cases (x.handOff q).queue.isEmpty with
    | true => exact h.write (.handedOver q.loop) ⟨rfl, rfl, rfl⟩ rfl rfl rfl fun _ => rfl
    | false => exact h.write (.waiting q.loop) ⟨rfl, rfl, rfl⟩ rfl rfl rfl fun _ => rfl

theorem ends_iteration {E : Fault → Instance → Prop} (h : x.Told given) (ha : x.aborted = false)
    (f : Frame) : (Act.iteration f).Ends x (fun _ => Told given) E :=
  Act.ends_iteration (h.writeRunning (.entered f) ha ⟨rfl, rfl, rfl⟩ rfl rfl rfl)

theorem ends_exit (h : x.Told given) (id : LoopId) :
    (Act.exit id).Ends x (fun _ => Told given) fun _ => Told given := by
  refine Act.ends_exit h.fail fun top below ha _ hid _ => ?_
  subst hid
  exact h.writeRunning (.exited top) ha ⟨rfl, rfl, rfl⟩ rfl rfl rfl

/-- **Every call writes down what it does and what it reports.** -/
theorem invariant (given : List Token) :
    Invariant (Told given) (fun _ x => x.Told given ∧ x.aborted = false) (· ∈ given) where
  fail h := h.fail
  failAhead h := h.1.fail
  consume t ht _ h := ends_consume h.fail fun hunused => h.spend ht hunused
  issue _ _ _ h := ends_issue h.issue
  setParam _ _ _ h := ends_setParam (h.keep rfl rfl rfl rfl)
  accept label _ h := ends_accept
    (h.write (.accepted label) ⟨rfl, rfl, rfl⟩ rfl rfl rfl fun _ => rfl)
  ensureClosed _ _ h := ends_ensureClosed h.fail fun _ _ => h
  terminate _ h := ends_terminate h.fail fun ha _ =>
    h.writeRunning .terminated ha ⟨rfl, rfl, rfl⟩ rfl rfl rfl
  activate head _ h := by
    refine ends_activate h.fail (fun top below ha _ _ => ⟨?_, ha⟩) fun b ha _ _ => ⟨?_, ha⟩
    · exact h.writeRunning (.reentered top.advance) ha ⟨rfl, rfl, rfl⟩ rfl rfl rfl
    · exact h.writeRunning (.activated head.id b.count) ha ⟨rfl, rfl, rfl⟩ rfl rfl rfl
  complete id h := by
    refine ends_complete h.fail fun top below ha _ _ => ⟨?_, ha⟩
    exact h.writeRunning (.completed top.advance) ha ⟨rfl, rfl, rfl⟩ rfl rfl rfl
  iteration {f _} h _ := h.1.ends_iteration h.2 f
  exitAhead id h _ := h.1.ends_exit id
  exit id _ h := h.ends_exit id
  openAhead _ h := ends_openSequence ⟨h.1.keep rfl rfl rfl rfl, h.2⟩
  deliver {f _} q body h _ := (h.1.ends_iteration h.2 f).andThen fun _ _ hy =>
    Ends.bind (ends_issue (hy.issue.ends_handOver q _))
  close q _ h := ends_closeSequence
    (h.write (.sequenceClosed q.loop) ⟨rfl, rfl, rfl⟩ rfl rfl rfl fun _ => rfl)
  take q _ h := ends_take? (fun _ => h) (fun _ _ => h.keep rfl rfl rfl rfl) fun _ _ _ _ =>
    h.write (.handedOver q.loop) ⟨rfl, rfl, rfl⟩ rfl rfl rfl fun _ => rfl
  abandon q x h := by
    have hleft : (x.setHandOff q (x.handOff q).abandon).Told given := h.keep rfl rfl rfl rfl
    exact ends_abandon hleft hleft.fail

/-- An instance on which nothing was done. -/
theorem create (i : InstanceId) (bounds : BoundTable) (recorder : Option RecorderId) :
    (Instance.create i bounds recorder).Told [] where
  events := rfl
  uses := by
    refine ⟨[], List.Subset.refl _, rfl, List.nodup_nil, fun id => ?_⟩
    simp [Instance.create, Guards.empty]
  running _ := rfl
  aborted ha := by cases ha

end Told

end Instance

/-! ## The log of a world -/

/-- A line that was written stays. -/
theorem Call.lines_grown (c : Call) (x : Instance) :
    x.lines.toList <+: (c.act.on x).2.lines.toList := by
  have hstable : Stable fun y => x.lines.toList <+: y.lines.toList :=
    { line := fun y l h => by
        rw [Array.toList_push]
        exact h.trans (List.prefix_append _ _)
      event := fun _ _ h => h
      stack := fun _ _ h => h
      abort := fun _ h => h
      issue := fun _ h => h
      spend := fun _ _ _ h => h
      sequences := fun _ _ h => h
      bounds := fun _ _ h => h }
  exact (hstable.invariant.call c).on List.prefix_rfl

namespace World

/-- The lines about an instance in the log. -/
def linesOf (w : World) (i : InstanceId) : List LogLine :=
  (w.log.toList.filter (·.1 = i)).map (·.2)

/-- The log has the lines of every instance, and none besides. -/
def Logs (w : World) : Prop :=
  ∀ i, w.linesOf i = ((w.instance? i).map (·.lines.toList)).getD []

variable {kind : Deed → Prop} {w w' : World} {i j : InstanceId} {x : Instance}

theorem linesOf_publish (w : World) (j : InstanceId) (x : Instance) (events lines : Nat)
    (i : InstanceId) : (w.publish j x events lines).linesOf i =
      w.linesOf i ++ if j = i then x.lines.toList.drop lines else [] := by
  have hnew : (x.lines.extract lines x.lines.size).toList = x.lines.toList.drop lines := by
    simp [List.take_of_length_le]
  simp only [linesOf, publish, Array.toList_append, Array.toList_map, hnew, List.filter_append,
    List.map_append, List.filter_map, List.map_map]
  by_cases hij : j = i
  · simp [hij, Function.comp_def]
  · simp [hij, Function.comp_def]

/-- What a call writes is put into the log. -/
theorem Logs.call (h : w.Logs) (j : InstanceId) (c : Call) : (w.on j c.act).2.Logs := by
  intro i
  cases hx : w.instance? j with
  | none =>
    rw [on_of_none hx]
    exact h i
  | some x =>
    have hlog : (w.on j c.act).2.linesOf i = w.linesOf i ++
        if j = i then (c.act.on x).2.lines.toList.drop x.lines.size else [] := by
      rw [on_eq hx]
      exact linesOf_publish ..
    by_cases hij : j = i
    · subst hij
      obtain ⟨ls, hls⟩ := c.lines_grown x
      simp [hlog, h j, hx, instance?_on_self hx, ← hls]
    · rw [hlog, h, instance?_on_of_ne (Ne.symm hij), if_neg hij, List.append_nil]

/-- **The log of a world keeps up with its instances.** -/
theorem Steps.logs (h : w.Steps kind w') (hw : w.Logs) : w'.Logs := by
  induction h with
  | refl => exact hw
  | @cons w w' e _ _ ih =>
    cases e with
    | clear r => exact ih hw
    | call j c => exact ih (hw.call j c)

/-- An instance is added with the line that tells it. -/
theorem Logs.addInstance (h : w.Logs) (bounds : BoundTable) (recorder : Option RecorderId) :
    (w.addInstance bounds recorder).2.Logs := by
  intro i
  let new : InstanceId := ⟨w.instances.size⟩
  let x := Instance.create new bounds recorder
  have hlog : (w.addInstance bounds recorder).2.linesOf i =
      w.linesOf i ++ if new = i then x.lines.toList.drop 0 else [] := by
    exact linesOf_publish { w with instances := w.instances.push x } new x 0 0 i
  have hinstance : (w.addInstance bounds recorder).2.instance? i =
      if i.index = w.instances.size then some x else w.instance? i := by
    rw [World.instance?, (addInstance_snd w bounds recorder).1, Array.getElem?_push]
    rfl
  rw [hlog, hinstance, h]
  by_cases hi : i.index = w.instances.size
  · obtain rfl : new = i := congrArg InstanceId.mk hi.symm
    simp [World.instance?, new]
  · have hne : new ≠ i := fun e => hi (congrArg InstanceId.index e).symm
    simp [hi, hne]

end World

namespace Session

variable (recorders : Nat) (instances : List (BoundTable × Option RecorderId))

theorem logs_start : (start recorders instances).world.Logs := by
  have hfold : ∀ w : World, w.Logs →
      (instances.foldl (fun w p => (w.addInstance p.1 p.2).2) w).Logs := by
    induction instances with
    | nil => exact fun w h => h
    | cons p rest ih => exact fun w h => ih _ (h.addInstance p.1 p.2)
  refine hfold _ ?_
  rw [repeat_addRecorder]
  exact fun i => rfl

/-- **After any moves the log has the lines of the instances.** -/
theorem linesOf_after (moves : List Move) {i : InstanceId} {x : Instance}
    (hx : ((start recorders instances).after moves).world.instance? i = some x) :
    ((start recorders instances).after moves).world.linesOf i = x.lines.toList := by
  have hsteps := steps_after (start recorders instances) moves
  rw [hsteps.logs (logs_start recorders instances) i, hx]
  rfl

end Session

end LoopProtocol
