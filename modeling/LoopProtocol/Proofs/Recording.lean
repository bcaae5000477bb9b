import LoopProtocol.Proofs.Growth
import LoopProtocol.Proofs.SessionDeeds

/-!
# What recorders hear

A recorder that a single instance reports to, and that is never cleared, has heard exactly the
events of that instance: `World.Hears` is kept by every deed but a clearing of the recorder. What
is known of the events of an instance is then known of what an observer reads.
-/

namespace LoopProtocol

namespace Recorders

theorem events_hear (rs : Recorders) (r r' : RecorderId) (heard : Array Event) :
    (rs.hear r heard).events r' = if r = r' ∧ r.index < rs.logs.size then rs.events r' ++ heard
      else rs.events r' := by
  obtain ⟨r⟩ := r
  obtain ⟨r'⟩ := r'
  simp only [Recorders.events, Recorders.hear, Array.getD_eq_getD_getElem?, RecorderId.mk.injEq,
    Array.getElem?_modify]
  by_cases hr : r = r'
  · subst hr
    by_cases hlt : r < rs.logs.size
    · simp [hlt]
    · simp [hlt]
  · simp [hr]

theorem hear_nothing (rs : Recorders) (r : RecorderId) : rs.hear r #[] = rs := by
  obtain ⟨logs⟩ := rs
  simp only [Recorders.hear, Array.append_empty, Recorders.mk.injEq]
  refine Array.ext_getElem? fun k => ?_
  rw [Array.getElem?_modify]
  split <;> simp

end Recorders

namespace World

variable {w : World} {i j : InstanceId} {r : RecorderId}

/-- The recorder has heard what the instance reported, and no other instance reports to it. -/
structure Hears (w : World) (r : RecorderId) (i : InstanceId) : Prop where
  mem : r.index < w.recorders.logs.size
  heard : ∃ x, w.instance? i = some x ∧ x.recorder = some r ∧ w.recorders.events r = x.events
  alone : ∀ j y, w.instance? j = some y → y.recorder = some r → j = i

/-- Every instance of a world after an action is one of before, or the one acted on. -/
theorem instance?_on {a : Act Grant} {y : Instance} (hy : (w.on j a).2.instance? i = some y) :
    (j = i ∧ ∃ x, w.instance? i = some x ∧ y = (a.on x).2) ∨ (i ≠ j ∧ w.instance? i = some y) := by
  by_cases hij : i = j
  · subst hij
    cases hx : w.instance? i with
    | none => rw [on_of_none hx, hx] at hy; cases hy
    | some x =>
      rw [instance?_on_self hx] at hy
      exact .inl ⟨rfl, x, rfl, (Option.some.inj hy).symm⟩
  · rw [instance?_on_of_ne hij] at hy
    exact .inr ⟨hij, hy⟩

/-- An instance keeps its recorder. -/
theorem recorder_on {c : Call} {y : Instance} (hy : (w.on j c.act).2.instance? i = some y) :
    ∃ x, w.instance? i = some x ∧ y.recorder = x.recorder := by
  rcases instance?_on hy with ⟨-, x, hx, rfl⟩ | ⟨-, hx⟩
  · exact ⟨x, hx, (c.grown x).recorder⟩
  · exact ⟨y, hx, rfl⟩

/-- The recorder of an instance hears what a call on the instance reports. -/
theorem recorders_call {c : Call} {z : Instance} {es : Array Event} (hz : w.instance? j = some z)
    (hes : (c.act.on z).2.events = z.events ++ es) :
    (w.on j c.act).2.recorders = z.recorder.elim w.recorders (w.recorders.hear · es) := by
  have hnew : (c.act.on z).2.events.extract z.events.size (c.act.on z).2.events.size = es := by
    rw [hes]
    simp
  rw [on_eq hz]
  simp only [publish, (c.grown z).recorder, hnew]
  cases z.recorder <;> rfl

theorem Hears.call (h : w.Hears r i) (j : InstanceId) (c : Call) :
    (w.on j c.act).2.Hears r i := by
  obtain ⟨hmem, ⟨x, hx, hxr, hheard⟩, halone⟩ := h
  have hother : ∀ k y, (w.on j c.act).2.instance? k = some y → y.recorder = some r → k = i := by
    intro k y hy hyr
    obtain ⟨z, hz, hzr⟩ := recorder_on hy
    exact halone k z hz (hzr ▸ hyr)
  cases hz : w.instance? j with
  | none =>
    rw [on_of_none hz] at hother ⊢
    exact ⟨hmem, ⟨x, hx, hxr, hheard⟩, hother⟩
  | some z =>
    have hgrown := c.grown z
    obtain ⟨es, hes⟩ := hgrown.events
    have hrecorders := recorders_call hz hes
    by_cases hij : j = i
    · subst hij
      obtain rfl : x = z := Option.some.inj (hx.symm.trans hz)
      rw [hxr] at hrecorders
      refine ⟨?_, ⟨_, instance?_on_self hx c.act, hgrown.recorder.trans hxr, ?_⟩, hother⟩
      · simpa [hrecorders, Recorders.hear] using hmem
      · rw [hrecorders, Option.elim_some, Recorders.events_hear, if_pos ⟨rfl, hmem⟩, hheard, hes]
    · have hne : i ≠ j := Ne.symm hij
      have hzr : z.recorder ≠ some r := fun e => hij (halone j z hz e)
      refine ⟨?_, ⟨x, (instance?_on_of_ne hne c.act).trans hx, hxr, ?_⟩, hother⟩
      · rw [hrecorders]
        cases z.recorder <;> simpa [Recorders.hear] using hmem
      · rw [hrecorders, ← hheard]
        cases hzr' : z.recorder with
        | none => rfl
        | some r' =>
          have hr : r' ≠ r := fun e => hzr (hzr'.trans (congrArg some e))
          exact (Recorders.events_hear _ _ _ _).trans (if_neg fun h => hr h.1)

theorem Hears.clear (h : w.Hears r i) {r' : RecorderId} (hne : r' ≠ r) :
    { w with recorders := w.recorders.clear r' }.Hears r i := by
  obtain ⟨hmem, ⟨x, hx, hxr, hheard⟩, halone⟩ := h
  have hindex : r'.index ≠ r.index := fun e => hne (congrArg RecorderId.mk e)
  refine ⟨by simpa [Recorders.clear] using hmem, ⟨x, hx, hxr, ?_⟩, halone⟩
  simpa [Recorders.events, Recorders.clear, Array.getD_eq_getD_getElem?,
    Array.getElem?_setIfInBounds_ne hindex] using hheard

end World

/-! ## Along a run -/

namespace Dealing

variable {d d' : Dealing} {es : List Deed}

theorem Runs.hears {r : RecorderId} {i : InstanceId} (h : d.Runs es d') (hd : d.world.Hears r i)
    (hclear : .clear r ∉ es) : d'.world.Hears r i := by
  induction h with
  | nil => exact hd
  | @cons d d' e es _ _ ih =>
    simp only [List.mem_cons, not_or] at hclear
    refine ih ?_ hclear.2
    cases e with
    | call j c => exact hd.call j c
    | clear r' => exact hd.clear fun e => hclear.1 (by rw [e])

/-- Along a run an instance only grows. -/
theorem Runs.grown {i : InstanceId} {x : Instance} (h : d.Runs es d')
    (hx : d.world.instance? i = some x) :
    ∃ y, d'.world.instance? i = some y ∧ x.Grown y := by
  induction h generalizing x with
  | nil => exact ⟨x, hx, .refl x⟩
  | @cons d d' e es _ _ ih =>
    cases e with
    | clear r => exact ih hx
    | call j c =>
      by_cases hij : i = j
      · subst hij
        obtain ⟨y, hy, hgrown⟩ := ih (World.instance?_on_self hx c.act)
        exact ⟨y, hy, (c.grown x).trans hgrown⟩
      · exact ih ((World.instance?_on_of_ne hij c.act).trans hx)

/-- What every call keeps holds of every instance after every run. -/
theorem Runs.forall_instances {P : Instance → Prop} {A : Frame → Instance → Prop}
    (hP : Invariant P A) (h : d.Runs es d') (hd : ∀ j x, d.world.instance? j = some x → P x) :
    ∀ j x, d'.world.instance? j = some x → P x := by
  induction h with
  | nil => exact hd
  | @cons d d' e es _ _ ih =>
    refine ih fun j x hx => ?_
    cases e with
    | clear r => exact hd j x hx
    | call k c =>
      rcases World.instance?_on hx with ⟨-, y, hy, rfl⟩ | ⟨-, hy⟩
      · exact (hP.call c).on (hd j y hy)
      · exact hd j x hy

end Dealing

/-! ## The start of a session -/

namespace World

theorem addInstance_snd (w : World) (bounds : BoundTable) (recorder : Option RecorderId) :
    (w.addInstance bounds recorder).2.instances =
        w.instances.push (Instance.create ⟨w.instances.size⟩ bounds recorder) ∧
      (w.addInstance bounds recorder).2.recorders = w.recorders := by
  constructor
  · refine Array.ext_getElem? fun k => ?_
    simp only [addInstance, publish, Array.getElem?_setIfInBounds, Array.getElem?_push]
    grind
  · cases recorder with
    | none => rfl
    | some r => exact Recorders.hear_nothing w.recorders r

/-- The instances that are added to a world come after those it has, and no recorder hears of
it. -/
theorem foldl_addInstance (instances : List (BoundTable × Option RecorderId)) (w : World) :
    let w' := instances.foldl (fun w (bounds, recorder) => (w.addInstance bounds recorder).2) w
    w'.recorders = w.recorders ∧ (∀ k < w.instances.size, w'.instances[k]? = w.instances[k]?) ∧
      ∀ k, w'.instances[w.instances.size + k]? =
        instances[k]?.map fun p => Instance.create ⟨w.instances.size + k⟩ p.1 p.2 := by
  induction instances generalizing w with
  | nil => simp
  | cons p rest ih =>
    obtain ⟨hinstances, hrecorders⟩ := addInstance_snd w p.1 p.2
    obtain ⟨hr, hold, hnew⟩ := ih (w.addInstance p.1 p.2).2
    simp only [hinstances, Array.size_push] at hold hnew
    refine ⟨hr.trans hrecorders, fun k hk => ?_, fun k => ?_⟩
    · refine (hold k (Nat.lt_succ_of_lt hk)).trans ?_
      rw [Array.getElem?_push, if_neg (Nat.ne_of_lt hk)]
    · cases k with
      | zero =>
        refine (hold w.instances.size (Nat.lt_succ_self _)).trans ?_
        simp
      | succ k =>
        have hk : w.instances.size + (k + 1) = w.instances.size + 1 + k := by omega
        rw [hk]
        exact hnew k

end World

namespace Session

theorem repeat_addRecorder (n : Nat) :
    n.repeat (fun w => w.addRecorder.2) World.empty = ⟨#[], ⟨.replicate n #[]⟩, #[]⟩ := by
  induction n with
  | zero => rfl
  | succ n ih =>
    rw [Nat.repeat, ih]
    simp [World.addRecorder, Recorders.create, Array.replicate_succ]

variable {recorders : Nat} {instances : List (BoundTable × Option RecorderId)}

theorem instance?_start (j : InstanceId) :
    (start recorders instances).world.instance? j =
      instances[j.index]?.map fun p => Instance.create j p.1 p.2 := by
  have h := (World.foldl_addInstance instances (recorders.repeat (·.addRecorder.2) .empty)).2.2
  rw [repeat_addRecorder] at h
  simpa [start, World.instance?, repeat_addRecorder] using h j.index

theorem recorders_start :
    (start recorders instances).world.recorders = ⟨.replicate recorders #[]⟩ := by
  have h := (World.foldl_addInstance instances (recorders.repeat (·.addRecorder.2) .empty)).1
  rw [repeat_addRecorder] at h
  simpa [start, repeat_addRecorder] using h

/-- Of the instances that a session starts with, this one and no other reports to the recorder. -/
structure ReportsAlone (recorders : Nat) (instances : List (BoundTable × Option RecorderId))
    (i : InstanceId) (r : RecorderId) : Prop where
  mem : r.index < recorders
  reports : ∃ bounds, instances[i.index]? = some (bounds, some r)
  alone : ∀ (j : Nat) (p : BoundTable × Option RecorderId),
    instances[j]? = some p → p.2 = some r → j = i.index

variable {i : InstanceId} {r : RecorderId} {moves : List Move}

theorem ReportsAlone.hears_start (h : ReportsAlone recorders instances i r) :
    (start recorders instances).world.Hears r i := by
  obtain ⟨bounds, hbounds⟩ := h.reports
  refine ⟨?_, ⟨Instance.create i bounds (some r), ?_, rfl, ?_⟩, fun j y hy hyr => ?_⟩
  · simpa [recorders_start] using h.mem
  · rw [instance?_start, hbounds]
    rfl
  · simp [recorders_start, Recorders.events, Instance.create, h.mem]
  · rw [instance?_start, Option.map_eq_some_iff] at hy
    obtain ⟨p, hp, rfl⟩ := hy
    have hindex := h.alone j.index p hp hyr
    exact congrArg InstanceId.mk hindex

/-- A session with a single instance. -/
theorem reportsAlone_single (bounds : BoundTable) :
    ReportsAlone 1 [(bounds, some ⟨0⟩)] ⟨0⟩ ⟨0⟩ := by
  refine ⟨Nat.one_pos, ⟨bounds, rfl⟩, fun j p hp _ => ?_⟩
  cases j with
  | zero => rfl
  | succ j => simp at hp

/-- A recorder is cleared only by a move. -/
theorem clear_not_mem {es : List Deed}
    {s : Session} (horders : ∀ e ∈ es, e.isOrder = true → s.Ordered moves e)
    (hclear : .act (.clearEvents r) ∉ moves) : .clear r ∉ es := by
  intro hmem
  obtain ⟨before, m, later, rfl, hord⟩ := horders _ hmem rfl
  obtain rfl := hord.clear
  exact hclear (by simp)

end Session

end LoopProtocol
