import LoopProtocol.Proofs.ReaderStage
import Mathlib.Data.List.Induction
import Mathlib.Data.List.Sort

/-!
# The canonical text of a table

A table is determined by the numbers that it gives to names, since it lists them in ascending order
and each once. So its compact text is canonical: it is read back as the same table, and two tables
have one text exactly if they give the same numbers. Other texts describe tables too, and all that
list the same members in the same order describe the same one.
-/

namespace LoopProtocol

namespace BoundEntries

variable {es : BoundEntries} {name : String} {number : UInt64}

/-- A name above all others is put behind them. -/
theorem insert_eq_append (h : ∀ e ∈ es, e.1 < name) :
    BoundEntries.insert name number es = es ++ [(name, number)] := by
  induction es with
  | nil => rfl
  | cons e es ih =>
    have he := h e List.mem_cons_self
    rw [insert, if_neg (String.lt_asymm he), if_pos he,
      ih fun e' he' => h e' (List.mem_cons_of_mem e he'), List.cons_append]

theorem get?_cons (e : String × UInt64) (es : BoundEntries) (name : String) :
    get? name (e :: es) = if e.1 = name then some e.2 else get? name es := by
  by_cases h : e.1 = name <;> simp [get?, h]

/-- Among ascending entries a name has the number of the one entry that holds it. -/
theorem get?_eq_some_iff (h : es.Pairwise (·.1 < ·.1)) :
    get? name es = some number ↔ (name, number) ∈ es := by
  induction es with
  | nil => simp [get?]
  | cons e es ih =>
    obtain ⟨he, hes⟩ := List.pairwise_cons.1 h
    rw [get?_cons, List.mem_cons]
    by_cases hname : e.1 = name
    · have hnot : (name, number) ∉ es := fun hmem =>
        String.lt_irrefl e.1 (hname ▸ he (name, number) hmem)
      rw [if_pos hname, Option.some.injEq, or_iff_left hnot, Prod.ext_iff]
      exact ⟨fun hnumber => ⟨hname.symm, hnumber.symm⟩, fun heq => heq.2.symm⟩
    · have hnot : (name, number) ≠ e := fun heq => hname (congrArg Prod.fst heq).symm
      rw [if_neg hname, ih hes, or_iff_right hnot]

end BoundEntries

namespace BoundTable

theorem entries_ofList {es : BoundEntries} (h : es.Pairwise (·.1 < ·.1)) :
    (ofList es).entries = es := by
  induction es using List.reverseRecOn with
  | nil => rfl
  | append_singleton es e ih =>
    obtain ⟨hes, -, hlast⟩ := List.pairwise_append.1 h
    have habove : ∀ e' ∈ es, e'.1 < e.1 := fun e' he' => hlast e' he' e List.mem_cons_self
    rw [ofList_append_singleton]
    change BoundEntries.insert e.1 e.2 (ofList es).entries = es ++ [e]
    rw [ih hes, BoundEntries.insert_eq_append habove]

theorem eq_of_entries {t u : BoundTable} (h : t.entries = u.entries) : t = u := by
  cases t
  cases u
  cases h
  rfl

/-- A table is that of its own entries. -/
theorem ofList_entries (t : BoundTable) : ofList t.entries = t :=
  eq_of_entries (entries_ofList t.ascending)

theorem get?_eq_some_iff {t : BoundTable} {name : String} {number : UInt64} :
    t.get? name = some number ↔ (name, number) ∈ t.entries :=
  BoundEntries.get?_eq_some_iff t.ascending

/-- **Tables that give every name the same number are equal.** -/
theorem eq_of_get? {t u : BoundTable} (h : ∀ name, t.get? name = u.get? name) : t = u := by
  have hirrefl : Std.Irrefl fun e e' : String × UInt64 => e.1 < e'.1 :=
    ⟨fun e => String.lt_irrefl e.1⟩
  have hantisymm : Std.Antisymm fun e e' : String × UInt64 => e.1 < e'.1 :=
    ⟨fun e e' hlt hgt => absurd hgt (String.lt_asymm hlt)⟩
  refine eq_of_entries (t.ascending.eq_of_mem_iff u.ascending fun e => ?_)
  rw [← get?_eq_some_iff (t := t), ← get?_eq_some_iff (t := u), h]

/-- The last number that a list gives to a name counts. -/
theorem get?_ofList (es : BoundEntries) (name : String) :
    (ofList es).get? name = BoundEntries.get? name es.reverse := by
  induction es using List.reverseRecOn with
  | nil => rfl
  | append_singleton es e ih =>
    rw [ofList_append_singleton, get?_insert, ih, List.reverse_append]
    exact (BoundEntries.get?_cons e _ name).symm

/-- **The texts that describe a table** are the objects whose members give it, in their order. -/
theorem ofJson?_eq_some_iff {text : String} {t : BoundTable} :
    ofJson? text = some t ↔ ∃ es, ObjectText es text.toList ∧ t = ofList es := by
  constructor
  · intro h
    obtain ⟨⟨stage, table⟩, hread, hstage⟩ := Option.bind_eq_some_iff.1 h
    split_ifs at hstage with hclosed
    cases hstage
    cases hclosed
    exact TableReader.objectText_of_read hread
  · rintro ⟨es, hes, rfl⟩
    simp [ofJson?, TableReader.read_objectText hes]

/-- **The compact text of a table is canonical**, for every table, in whatever order its names were
given their numbers. It lists the entries in strict form and is read back as the same table. Two
tables have the same text exactly if they give each name the same number. Every text of an object,
with names listed once or more and in any form, is read as the table made of its members one after
the other, in which the last number of a name counts; and no other text is read. -/
theorem json_canonical :
    (∀ t : BoundTable, ObjectText t.entries t.json.toList ∧ ofJson? t.json = some t) ∧
    (∀ t u : BoundTable, t.json = u.json ↔ ∀ name, t.get? name = u.get? name) ∧
    (∀ (text : String) (t : BoundTable),
      ofJson? text = some t ↔ ∃ es, ObjectText es text.toList ∧ t = ofList es) ∧
    ∀ (es : BoundEntries) (name : String),
      (ofList es).get? name = BoundEntries.get? name es.reverse := by
  have hback (t : BoundTable) : ofJson? t.json = some t :=
    ofJson?_eq_some_iff.2 ⟨t.entries, objectText_json t, (ofList_entries t).symm⟩
  refine ⟨fun t => ⟨objectText_json t, hback t⟩, fun t u => ⟨fun h name => ?_, fun h => ?_⟩,
    fun text t => ofJson?_eq_some_iff, get?_ofList⟩
  · have hsame : some t = some u := by rw [← hback t, ← hback u, h]
    rw [Option.some.inj hsame]
  · rw [eq_of_get? h]

example : ofJson? " \x7b\"k\": 1, \"\\u006B\" :2\x7d" = some (ofList [("k", 2)]) := by
  decide +kernel

end BoundTable

end LoopProtocol
