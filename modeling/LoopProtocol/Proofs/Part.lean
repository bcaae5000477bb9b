import LoopProtocol.Proofs.Attempt
import LoopProtocol.Proofs.Recording

/-!
# The part of a session that belongs to an instance

Of a session the instance `i` has itself, what its recorder heard, the variables that hold something
of it and the running loops that are its own. `s.Part i t` says that of all this the session `t` has
the same as `s`, and no variables or loops besides.

Nothing else is shared between instances. What is done on `i` in both sessions is answered the same
in both, and what is done on another instance of `s` leaves the part as it is.
-/

namespace LoopProtocol

/-! ## Definitions -/

/-- The instance that a state or a sequence is one of. -/
def Holding.owner : Holding → InstanceId
  | .state h => h.owner
  | .sequence owner _ => owner

/-- The variables that hold something of an instance. -/
def Variables.ofOwner (vs : Variables) (i : InstanceId) : Variables :=
  vs.filter fun p => p.2.owner = i

/-- The two worlds have the same at `i`, and of the instances of `w` no other reports to the
recorder of that one. -/
structure World.Agree (i : InstanceId) (w v : World) : Prop where
  instance? : v.instance? i = w.instance? i
  log : ∀ x r, w.instance? i = some x → x.recorder = some r →
    v.recorders.logs[r.index]? = w.recorders.logs[r.index]?
  alone : ∀ x r j y, w.instance? i = some x → x.recorder = some r → w.instance? j = some y →
    y.recorder = some r → j = i

/-- `t` has of the instance `i` what `s` has of it, and nothing of other instances. -/
structure Session.Part (i : InstanceId) (s t : Session) : Prop where
  world : s.world.Agree i t.world
  vars : t.vars = s.vars.ofOwner i
  running : t.running = s.running.filter (·.owner = i)
  /-- No variable is there twice. -/
  names : (s.vars.map (·.1)).Nodup

/-! ## Variables -/

namespace Variables

variable {vs : Variables} {i : InstanceId} {name : String} {h : Holding}

theorem erase_ofOwner (vs : Variables) (i : InstanceId) (name : String) :
    Variables.ofOwner (Variables.erase vs name) i =
      Variables.erase (Variables.ofOwner vs i) name := by
  unfold ofOwner Variables.erase
  rw [List.filter_filter, List.filter_filter]
  exact List.filter_congr fun p _ => Bool.and_comm _ _

theorem insert_ofOwner (hown : h.owner = i) (vs : Variables) (name : String) :
    Variables.ofOwner (Variables.insert vs name h) i =
      Variables.insert (Variables.ofOwner vs i) name h := by
  unfold Variables.insert
  rw [← erase_ofOwner, ofOwner, List.filter_cons_of_pos (by simpa using hown)]
  rfl

theorem insert_ofOwner_of_ne (hown : h.owner ≠ i) (vs : Variables) (name : String) :
    Variables.ofOwner (Variables.insert vs name h) i =
      Variables.erase (Variables.ofOwner vs i) name := by
  unfold Variables.insert
  rw [← erase_ofOwner, ofOwner, List.filter_cons_of_neg (by simpa using hown)]
  rfl

theorem nodup_erase (hnames : (vs.map (·.1)).Nodup) (name : String) :
    ((Variables.erase vs name).map (·.1)).Nodup :=
  hnames.sublist (List.filter_sublist.map _)

theorem nodup_insert (hnames : (vs.map (·.1)).Nodup) (name : String) (h : Holding) :
    ((Variables.insert vs name h).map (·.1)).Nodup := by
  refine List.nodup_cons.2 ⟨?_, nodup_erase hnames name⟩
  rintro hmem
  obtain ⟨p, hp, hname⟩ := List.mem_map.1 hmem
  exact of_decide_eq_true (List.mem_filter.1 hp).2 hname

theorem erase_of_get?_eq_none (hget : vs.get? name = none) : Variables.erase vs name = vs := by
  refine List.filter_eq_self.2 fun p hp => ?_
  have hne : (name != p.1) = true := List.lookup_eq_none_iff.1 hget p hp
  exact decide_eq_true (Ne.symm (bne_iff_ne.1 hne))

/-- Looking up in the variables of an instance. -/
theorem get?_ofOwner (hnames : (vs.map (·.1)).Nodup) (i : InstanceId) (name : String) :
    (Variables.ofOwner vs i).get? name = (vs.get? name).filter (·.owner = i) := by
  induction vs with
  | nil => rfl
  | cons p vs ih =>
    obtain ⟨key, held⟩ := p
    obtain ⟨hkey, hnames⟩ := List.nodup_cons.1 hnames
    have hcons : ∀ ws : Variables, Variables.get? ((key, held) :: ws) name =
        if name = key then some held else ws.get? name := by
      intro ws
      unfold Variables.get?
      rw [List.lookup_cons]
      by_cases hname : name = key
      · rw [if_pos hname, beq_iff_eq.2 hname]
      · rw [if_neg hname, beq_false_of_ne hname]
    rw [hcons]
    by_cases howner : held.owner = i
    · rw [ofOwner, List.filter_cons_of_pos (by simpa using howner), hcons, ← ofOwner, ih hnames]
      by_cases hname : name = key
      · rw [if_pos hname, if_pos hname, Option.filter_some_pos (by simpa using howner)]
      · rw [if_neg hname, if_neg hname]
    · rw [ofOwner, List.filter_cons_of_neg (by simpa using howner), ← ofOwner, ih hnames]
      by_cases hname : name = key
      · have hnone : Variables.get? vs name = none := by
          refine List.lookup_eq_none_iff.2 fun p hp => bne_iff_ne.2 fun hp' => hkey ?_
          exact List.mem_map.2 ⟨p, hp, hp'.symm.trans hname⟩
        rw [if_pos hname, hnone, Option.filter_some_neg (by simpa using howner)]
        rfl
      · rw [if_neg hname]

/-- A sequence is fed by states of its own instance. -/
theorem feeds_ofOwner (vs : Variables) (i : InstanceId) (q : SequenceId) :
    (Variables.ofOwner vs i).feeds i q = vs.feeds i q := by
  unfold ofOwner Variables.feeds
  rw [List.any_filter]
  congr 1
  funext p
  obtain ⟨name, held⟩ := p
  cases held with
  | state h => by_cases howner : h.owner = i <;> simp [Holding.owner, howner]
  | sequence owner q' => simp

end Variables

/-! ## Worlds -/

namespace World

variable {α : Type} {i j : InstanceId} {w v : World} {a : Act α} {x : Instance}

/-- What an action adds to the logs of the recorders. -/
theorem logs_on (hx : w.instance? j = some x) (r : RecorderId) :
    (w.on j a).2.recorders.logs[r.index]? =
      if (a.on x).2.recorder = some r then
        w.recorders.logs[r.index]?.map
          (· ++ (a.on x).2.events.extract x.events.size (a.on x).2.events.size)
      else w.recorders.logs[r.index]? := by
  rw [on_eq hx]
  unfold publish
  cases (a.on x).2.recorder with
  | none => simp
  | some r' =>
    obtain ⟨r⟩ := r
    obtain ⟨r'⟩ := r'
    simp only [Recorders.hear, Array.getElem?_modify, Option.some.injEq, RecorderId.mk.injEq]

namespace Agree

/-- An action on the instance is answered the same in both worlds. -/
theorem on_self (h : w.Agree i v) (ha : ∀ x, (a.on x).2.recorder = x.recorder) :
    (v.on i a).1 = (w.on i a).1 ∧ (w.on i a).2.Agree i (v.on i a).2 := by
  cases hx : w.instance? i with
  | none =>
    have hy := h.instance?.trans hx
    rw [on_of_none hx, on_of_none hy]
    exact ⟨rfl, h⟩
  | some x =>
    have hy := h.instance?.trans hx
    refine ⟨by rw [on_eq hx, on_eq hy], ?_, fun y r hself hr => ?_,
      fun y r j z hself hr hz hr' => ?_⟩
    · rw [instance?_on_self hx, instance?_on_self hy]
    all_goals
      rw [instance?_on_self hx] at hself
      cases hself
    · rw [logs_on hx, logs_on hy, h.log x r hx ((ha x).symm.trans hr)]
    · by_cases hj : j = i
      · exact hj
      · rw [instance?_on_of_ne hj] at hz
        exact h.alone x r j z hx ((ha x).symm.trans hr) hz hr'

/-- An action on another instance. -/
theorem on_other (h : w.Agree i v) (hne : j ≠ i) (ha : ∀ x, (a.on x).2.recorder = x.recorder) :
    (w.on j a).2.Agree i v := by
  cases hy : w.instance? j with
  | none => rwa [on_of_none hy]
  | some y =>
    have hsame := instance?_on_of_ne (w := w) (Ne.symm hne) a
    refine ⟨h.instance?.trans hsame.symm, fun x r hx hr => ?_, fun x r k z hx hr hz hr' => ?_⟩
    all_goals rw [hsame] at hx
    · have hother : (a.on y).2.recorder ≠ some r := fun hr' =>
        hne (h.alone x r j y hx hr hy ((ha y).symm.trans hr'))
      rw [logs_on hy, if_neg hother]
      exact h.log x r hx hr
    · by_cases hk : k = j
      · subst hk
        rw [instance?_on_self hy] at hz
        cases hz
        exact h.alone x r k y hx hr hy ((ha y).symm.trans hr')
      · rw [instance?_on_of_ne hk] at hz
        exact h.alone x r k z hx hr hz hr'

theorem clear (h : w.Agree i v) (r : RecorderId) :
    Agree i { w with recorders := w.recorders.clear r }
      { v with recorders := v.recorders.clear r } where
  instance? := h.instance?
  log x r' hx hr := by
    have hlog := h.log x r' hx hr
    simp only [Recorders.clear, Array.getElem?_setIfInBounds]
    by_cases hindex : r.index = r'.index
    · have hsize : v.recorders.logs.size ≤ r.index ↔ w.recorders.logs.size ≤ r.index := by
        rw [hindex, ← Array.getElem?_eq_none_iff, ← Array.getElem?_eq_none_iff, hlog]
      rw [if_pos hindex, if_pos hindex]
      simp only [← Nat.not_le, hsize]
    · rw [if_neg hindex, if_neg hindex, hlog]
  alone := h.alone

/-- The recorder of another instance is cleared. -/
theorem clear_other (h : w.Agree i v) {r : RecorderId}
    (hr : ∀ x, w.instance? i = some x → x.recorder ≠ some r) :
    Agree i { w with recorders := w.recorders.clear r } v where
  instance? := h.instance?
  log x r' hx hr' := by
    have hne : r.index ≠ r'.index := fun e => hr x hx (by rw [hr']; cases r; cases r'; simp_all)
    simp only [Recorders.clear, Array.getElem?_setIfInBounds_ne hne]
    exact h.log x r' hx hr'
  alone := h.alone

end Agree

end World

end LoopProtocol
