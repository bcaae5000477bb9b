import LoopProtocol.Proofs.AbortCause
import LoopProtocol.Proofs.LogLines

/-!
# The log and the events tell one story

A run is written down twice. The lines of an instance that tell events are the events that its
recorder heard, one by one. There is a warning if and only if the instance is aborted, one only and
about the first fault, and after it only uses of states and messages sent are written. And there is
one line for each state that was used.
-/

namespace LoopProtocol

open Act

/-! ## Lines by their messages -/

namespace LogLine

/-- Lines of a kind that always names its instance are found among those that do. -/
theorem filter_named {p q : LogLine → Bool} (hq : ∀ l, p l = true ↔ q l = true)
    (hnames : ∀ l, p l = true → l.namesInstance = true) (lines : List LogLine) :
    (lines.filter namesInstance).filter q = lines.filter p := by
  rw [List.filter_filter]
  refine List.filter_congr fun l _ => ?_
  rw [Bool.eq_iff_iff, Bool.and_eq_true, ← hq]
  exact ⟨fun h => h.1, fun h => ⟨h, hnames l h⟩⟩

/-- Reading only the lines that tell events. -/
theorem map_event?_filter (lines : List LogLine) :
    (lines.filter (·.event?.isSome)).map event? = (lines.filterMap event?).map some := by
  induction lines with
  | nil => rfl
  | cons l lines ih => cases hl : l.event? <;> simp [hl, ih]

theorem namesInstance_of_event? {line : LogLine} (h : line.event?.isSome = true) :
    line.namesInstance = true := by
  cases line <;> first | rfl | cases h

theorem namesInstance_of_isUse {line : LogLine} (h : line.isUse = true) :
    line.namesInstance = true := by
  cases line <;> first | rfl | cases h

theorem fault?_of_isUnchecked {line : LogLine} (h : line.isUnchecked = true) :
    line.fault? = none := by
  cases line <;> first | rfl | cases h

end LogLine

/-! ## The lines that name their instance -/

namespace Instance

variable {x : Instance} {given used : List Token} {e : Fault}

/-- The lines about uses. -/
theorem Uses.named (h : x.Uses used) :
    (x.lines.toList.filter LogLine.namesInstance).filter (·.message = "state consumed") =
      used.map Token.useLine := by
  rw [LogLine.filter_named (p := LogLine.isUse) (by simp [LogLine.isUse_iff])
    (fun _ => LogLine.namesInstance_of_isUse), h.lines]

namespace Told

/-- The lines that tell events. -/
theorem named (h : x.Told given) :
    ((x.lines.toList.filter LogLine.namesInstance).filter
      (·.message ∈ LogLine.eventMessages)).map LogLine.event? = x.events.toList.map some := by
  rw [LogLine.filter_named (p := (·.event?.isSome)) (by simp [LogLine.isSome_event?_iff])
    (fun _ => LogLine.namesInstance_of_event?), LogLine.map_event?_filter, h.events]

/-- An instance that runs has no warning in its log. -/
theorem quiet (h : x.Told given) (hrun : x.aborted = false) :
    ∀ l ∈ x.lines.toList.filter LogLine.namesInstance, l.level ≠ .warn := by
  intro l hl
  have hnone := List.filterMap_eq_nil_iff.1 (h.running hrun)
  exact LogLine.fault?_eq_none_iff.1 (hnone l (List.mem_filter.1 hl).1)

/-- The only warning of an instance is about the fault that it has on record. -/
theorem warned (h : x.Told given) (hfailed : x.Failed e) :
    ∃ early late, x.lines.toList.filter LogLine.namesInstance = early ++ .aborted e :: late ∧
      (∀ l ∈ early, l.level ≠ .warn) ∧
      ∀ l ∈ late, l.message = "state consumed" ∨ l.message = "payload accepted" := by
  obtain ⟨early, late, e', hsplit, hearly, hlate⟩ := h.aborted hfailed.aborted
  have hnone : early.filterMap LogLine.fault? = [] := List.filterMap_eq_nil_iff.2 hearly
  have hnone' : late.filterMap LogLine.fault? = [] :=
    List.filterMap_eq_nil_iff.2 fun l hl => LogLine.fault?_of_isUnchecked (hlate l hl)
  obtain rfl : e' = e := by
    simpa [recorded, hsplit, hnone, hnone', LogLine.fault?] using hfailed.recorded
  refine ⟨early.filter LogLine.namesInstance, late.filter LogLine.namesInstance, ?_, ?_, ?_⟩
  · rw [hsplit, List.filter_append, List.filter_cons_of_pos rfl]
  · exact fun l hl => LogLine.fault?_eq_none_iff.1 (hearly l (List.mem_filter.1 hl).1)
  · intro l hl
    obtain ⟨hmem, hnames⟩ := List.mem_filter.1 hl
    exact (LogLine.isUnchecked_iff hnames).1 (hlate l hmem)

end Told

end Instance

/-! ## Along the deeds of a session -/

/-- Whatever a legal call uses was given. -/
theorem Call.Legal.mem {c : Call} {t : Token} {given : List Token} {begun : List LoopShape}
    (h : c.Legal given begun) (hc : c.uses = some t) : t ∈ given := by
  cases c with
  | use | send | finish | enter | exit | iterate | endIteration | begin | giveBack =>
    cases hc
    first | exact h | exact h.1
  | _ => cases hc

namespace Dealing

variable {d d' : Dealing} {i : InstanceId} {es : List Deed}

/-- The lines of an instance, of which all states that were given may have been used. -/
theorem Runs.told (h : d.Runs es d')
    (hd : ∀ x, d.world.instance? i = some x → x.Told (d.givenBy i)) :
    ∀ x, d'.world.instance? i = some x → x.Told (d'.givenBy i) := by
  induction h with
  | nil => exact hd
  | @cons d d' e es hlegal _ ih =>
    refine ih fun y hy => ?_
    cases e with
    | clear r => exact hd y hy
    | call j c =>
      rcases World.instance?_on hy with ⟨rfl, x, hx, rfl⟩ | ⟨hne, hx⟩
      · have hkeeps := (Instance.Told.invariant (d.givenBy j)).keeps (c := c)
          fun t huses => hlegal.1.mem huses
        rw [givenBy_perform_self hx]
        exact (hkeeps.on (hd x hx)).mono (List.subset_append_left _ _)
      · rw [(perform_of_ne (d := d) (Ne.symm hne) c).1]
        exact hd y hx

end Dealing

/-! ## The lines of a session -/

namespace Session

variable {recorders : Nat} {instances : List (BoundTable × Option RecorderId)} {i : InstanceId}
  {r : RecorderId}

/-- The lines of the log that name the instance. -/
def linesOf (s : Session) (i : InstanceId) : List LogLine :=
  (s.world.linesOf i).filter LogLine.namesInstance

/-- The moves are legal deeds, by which the driver was given every state that it ever held. -/
theorem after_deeds_held {s : Session} {d : Dealing} (hs : d.Covers s) (moves : List Move) :
    ∃ es d', d.Runs es d' ∧ d'.Covers (s.after moves) ∧
      ∀ before later name h, moves = before ++ later →
        (s.after before).vars.get? name = some (.state h) → h ∈ d'.given := by
  induction moves generalizing s d with
  | nil =>
    refine ⟨[], d, .nil d, hs, fun before later name h hsplit hget => ?_⟩
    obtain ⟨rfl, -⟩ := List.append_eq_nil_iff.1 hsplit.symm
    exact hs.mem hget
  | cons m moves ih =>
    obtain ⟨es, d₁, hr, hs₁, -⟩ := SessionM.obeys_move hs m
    obtain ⟨fs, d₂, hr', hs₂, hheld⟩ := ih hs₁
    refine ⟨es ++ fs, d₂, hr.append hr', hs₂, fun before later name h hsplit hget => ?_⟩
    cases before with
    | nil => exact (hr.append hr').extends.given (hs.mem hget)
    | cons m' before =>
      obtain ⟨rfl, rfl⟩ := List.cons_eq_cons.1 hsplit
      exact hheld before later name h rfl hget

/-- What the log tells of the instance `x` at `i` after the moves, of which its recorder heard the
events `heard`. -/
structure SameStory (start : Session) (moves : List Move) (i : InstanceId) (x : Instance)
    (heard : List Event) : Prop where
  /-- The lines that tell events are the events. -/
  events : (((start.after moves).linesOf i).filter (·.message ∈ LogLine.eventMessages)).map
    LogLine.event? = heard.map some
  quiet : x.aborted = false → ∀ l ∈ (start.after moves).linesOf i, l.level ≠ .warn
  /-- The first fault is the only one that is written down, and after it there are no lines but
  those that need no look at the stack. -/
  warned : x.aborted = true → ∃ early warning late e,
    (start.after moves).linesOf i = early ++ warning :: late ∧ start.FirstAbort moves i e ∧
      (warning.level = .warn ∧ warning.message = "protocol instance aborted" ∧
        warning.fields = [("error", e.message)]) ∧
      (∀ l ∈ early, l.level ≠ .warn) ∧
      ∀ l ∈ late, l.message = "state consumed" ∨ l.message = "payload accepted"
  /-- Each state that was used has its line, and one only. -/
  uses : ∃ used : List Token,
    ((start.after moves).linesOf i).filter (·.message = "state consumed") =
        used.map Token.useLine ∧
      (used.map (·.guard)).Nodup ∧
      (∀ id, id ∈ used.map (·.guard) ↔
        id.index < x.guards.spent.size ∧ x.guards.isConsumed id = true) ∧
      ∀ before later name h, moves = before ++ later →
        (start.after before).vars.get? name = some (.state h) → h.owner = i →
          (h.token ∈ used ↔ h.token.isConsumed x = true)

/-- What an instance of the session has in its log. -/
theorem told_after {d : Dealing} {es : List Deed} {x : Instance} {moves : List Move}
    (hr : (Dealing.start (start recorders instances).world).Runs es d)
    (hcov : d.Covers ((start recorders instances).after moves))
    (hx : ((start recorders instances).after moves).world.instance? i = some x) :
    x.Told (d.givenBy i) := by
  refine hr.told (fun y hy => ?_) x (hcov.world ▸ hx)
  rw [Dealing.start, instance?_start, Option.map_eq_some_iff] at hy
  obtain ⟨p, -, rfl⟩ := hy
  exact Instance.Told.create i p.1 p.2

/-- A state that was given was used if and only if it is among those whose lines the instance
has. -/
theorem mem_used_iff {d : Dealing} {x : Instance} {used : List Token} {t : Token}
    (hd : d.Issued) (hx : d.world.instance? i = some x) (hsub : used ⊆ d.givenBy i)
    (huses : x.Uses used) (ht : t ∈ d.givenBy i) : t ∈ used ↔ t.isConsumed x = true := by
  have hlt := hd.index_lt (Dealing.mem_givenBy.1 ht) hx
  have hguard : t.guard ∈ used.map (·.guard) ↔ t.isConsumed x = true :=
    (huses.guards t.guard).trans ⟨fun h => h.2, fun h => ⟨hlt, h⟩⟩
  rw [← hguard, List.mem_map]
  refine ⟨fun h => ⟨t, h, rfl⟩, ?_⟩
  rintro ⟨u, hu, hsame⟩
  have hgiven := Dealing.mem_givenBy.1 (hsub hu)
  cases hd.eq_of_guard_eq hgiven (Dealing.mem_givenBy.1 ht) rfl hsame
  exact hu

/-- **The log and the events tell the same story.** -/
theorem log_tells_events (halone : ReportsAlone recorders instances i r) (moves : List Move)
    (hclear : .act (.clearEvents r) ∉ moves) :
    ∃ x, ((start recorders instances).after moves).world.instance? i = some x ∧
      (start recorders instances).SameStory moves i x
        (((start recorders instances).after moves).world.recorders.events r).toList := by
  have hcov₀ := Dealing.covers_start recorders instances
  -- the recorder has heard the events of the instance
  obtain ⟨es, d, hr, hcov, horders, -⟩ := Session.after_deeds hcov₀ moves
  obtain ⟨-, ⟨x, hx, -, hheard⟩, -⟩ := hr.hears halone.hears_start (clear_not_mem horders hclear)
  rw [hcov.world] at hx hheard
  -- its states were given by the deeds
  obtain ⟨fs, d', hr', hcov', hheld⟩ := after_deeds_held hcov₀ moves
  have htold := told_after hr' hcov' hx
  have hissued := hr'.issued (issued_start recorders instances)
  obtain ⟨used, hsub, huses⟩ := htold.uses
  -- and its lines are in the log
  have hlines : ((start recorders instances).after moves).linesOf i =
      x.lines.toList.filter LogLine.namesInstance := by
    rw [Session.linesOf, linesOf_after recorders instances moves hx]
  refine ⟨x, hx, ?_, fun hrun => ?_, fun ha => ?_, used, ?_, huses.nodup, huses.guards, ?_⟩
  · rw [hlines, htold.named, hheard]
  · rw [hlines]
    exact htold.quiet hrun
  · obtain ⟨bounds, hbounds⟩ := halone.reports
    obtain ⟨hi, -⟩ := List.getElem?_eq_some_iff.1 hbounds
    obtain ⟨x', hx', hsound | ⟨e, hfirst, hfailed⟩⟩ :=
      unfailed_or_firstAbort recorders hi moves
    all_goals obtain rfl := Option.some.inj (hx.symm.trans hx')
    · simp [hsound.running] at ha
    · obtain ⟨early, late, hsplit, hearly, hlate⟩ := htold.warned hfailed
      exact ⟨early, .aborted e, late, e, hlines.trans hsplit, hfirst, ⟨rfl, rfl, rfl⟩, hearly,
        hlate⟩
  · rw [hlines, huses.named]
  · rintro before later name ⟨j, t⟩ hsplit hget rfl
    have hgiven := Dealing.mem_givenBy.2 (hheld before later name ⟨j, t⟩ hsplit hget)
    exact mem_used_iff hissued (hcov'.world ▸ hx) hsub huses hgiven

/-- A loop is left that was not entered, and then a message is sent on the aborted instance. -/
theorem log_tells_events_after_abort :
    let instances := [(BoundTable.ofList [("k", 2)], some ⟨0⟩)]
    let moves : List Move :=
      [.act (.issue (Nested.start .polling) ⟨0⟩ "head"), .act (.exit ⟨"head", false⟩ "after"),
        .act (.issue (Nested.start .polling) ⟨0⟩ "other"), .act (.use "other" (.send "late"))]
    ReportsAlone 1 instances ⟨0⟩ ⟨0⟩ ∧ .act (.clearEvents ⟨0⟩) ∉ moves ∧
    ((start 1 instances).after moves).linesOf ⟨0⟩ =
      [.created, .consumed "Outer" .loopHead, .aborted (.missingFrame Nested.outerId),
        .consumed "Outer" .loopHead, .accepted "late"] ∧
    ∃ x, ((start 1 instances).after moves).world.instance? ⟨0⟩ = some x ∧
      (start 1 instances).SameStory moves ⟨0⟩ x
        (((start 1 instances).after moves).world.recorders.events ⟨0⟩).toList := by
  intro instances moves
  have halone : ReportsAlone 1 instances ⟨0⟩ ⟨0⟩ := reportsAlone_single _
  have hclear : .act (.clearEvents ⟨0⟩) ∉ moves := by simp [moves]
  have hlines : ((start 1 instances).after moves).linesOf ⟨0⟩ =
      [.created, .consumed "Outer" .loopHead, .aborted (.missingFrame Nested.outerId),
        .consumed "Outer" .loopHead, .accepted "late"] := by decide +kernel
  exact ⟨halone, hclear, hlines, log_tells_events halone moves hclear⟩

end Session

end LoopProtocol
