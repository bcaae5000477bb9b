import LoopProtocol.Fault

/-!
# Bound tables

A table gives each parameter name a number of iterations, and keeps its names in ascending order
of code points, each once. So two tables are equal exactly when they give the same number to every
name. A number is checked to be positive only when it is looked up as a bound.
-/

namespace LoopProtocol

/-- Names with their numbers, in the order of names. -/
abbrev BoundEntries := List (String × UInt64)

/-- Puts a name into its place among sorted entries, or replaces the number it had. -/
def BoundEntries.insert (name : String) (bound : UInt64) : BoundEntries → BoundEntries
  | [] => [(name, bound)]
  | e :: rest =>
    if name < e.1 then (name, bound) :: e :: rest
    else if e.1 < name then e :: insert name bound rest
    else (name, bound) :: rest

theorem BoundEntries.mem_insert {name : String} {bound : UInt64} {es : BoundEntries}
    {e : String × UInt64} (h : e ∈ BoundEntries.insert name bound es) :
    e = (name, bound) ∨ e ∈ es := by
  induction es with
  | nil => simpa [insert] using h
  | cons a rest ih =>
    simp only [insert] at h
    split at h
    · simpa using h
    · split at h
      · rcases List.mem_cons.1 h with h | h
        · simp [h]
        · rcases ih h with h | h <;> simp [h]
      · rcases List.mem_cons.1 h with h | h <;> simp [h]

theorem BoundEntries.pairwise_insert {name : String} {bound : UInt64} {es : BoundEntries}
    (h : es.Pairwise (·.1 < ·.1)) :
    (BoundEntries.insert name bound es).Pairwise (·.1 < ·.1) := by
  induction es with
  | nil => simp [insert]
  | cons a rest ih =>
    obtain ⟨ha, hrest⟩ := List.pairwise_cons.1 h
    simp only [insert]
    split
    · next hlt =>
      refine List.pairwise_cons.2 ⟨fun e he => ?_, h⟩
      rcases List.mem_cons.1 he with rfl | he
      · exact hlt
      · exact String.lt_trans hlt (ha e he)
    · next hnlt =>
      split
      · next hgt =>
        refine List.pairwise_cons.2 ⟨fun e he => ?_, ih hrest⟩
        rcases BoundEntries.mem_insert he with rfl | he
        · exact hgt
        · exact ha e he
      · next hngt =>
        have hname : a.1 = name :=
          String.le_antisymm (String.not_lt.1 hnlt) (String.not_lt.1 hngt)
        exact List.pairwise_cons.2 ⟨fun e he => hname ▸ ha e he, hrest⟩

/-- The number of the first entry with a name. -/
def BoundEntries.get? (name : String) (es : BoundEntries) : Option UInt64 :=
  es.findSome? fun e => if e.1 = name then some e.2 else none

theorem BoundEntries.get?_insert (name name' : String) (bound : UInt64) (es : BoundEntries) :
    (BoundEntries.insert name bound es).get? name' =
      if name = name' then some bound else es.get? name' := by
  induction es with
  | nil => simp [insert, get?]
  | cons e rest ih =>
    simp only [insert]
    split
    · by_cases h : name = name' <;> simp [get?, h]
    · next hnlt =>
      split
      · next hgt =>
        by_cases he : e.1 = name'
        · have hne : name ≠ name' := fun h => String.lt_irrefl _ (h ▸ he ▸ hgt)
          simp [get?, he, hne]
        · simpa [get?, he] using ih
      · next hngt =>
        have hname : e.1 = name :=
          String.le_antisymm (String.not_lt.1 hnlt) (String.not_lt.1 hngt)
        by_cases h : name = name' <;> simp [get?, h, hname]

/-- Numbers by parameter name. -/
structure BoundTable where
  entries : BoundEntries
  ascending : entries.Pairwise (·.1 < ·.1)
deriving DecidableEq

namespace BoundTable

/-- The table without names. -/
def empty : BoundTable := ⟨[], .nil⟩

/-- The number of names. -/
def size (t : BoundTable) : Nat := t.entries.length

/-- Whether no name has a number. -/
def isEmpty (t : BoundTable) : Bool := t.entries.isEmpty

/-- Gives a name a number, in place of the one it had. -/
def insert (t : BoundTable) (name : String) (bound : UInt64) : BoundTable :=
  ⟨t.entries.insert name bound, BoundEntries.pairwise_insert t.ascending⟩

/-- The table of a list of entries, of which a later one replaces an earlier one. -/
def ofList (es : List (String × UInt64)) : BoundTable :=
  es.foldl (fun t e => t.insert e.1 e.2) empty

/-- The number that a name has, positive or not. -/
def get? (t : BoundTable) (name : String) : Option UInt64 := t.entries.get? name

/-- The bound that a name stands for: it must have a number, and a positive one. -/
def bound (t : BoundTable) (name : String) : Except Fault Bound :=
  match t.get? name with
  | none => .error (.unknownParameter name)
  | some count =>
    match Bound.ofCount? count with
    | none => .error (.invalidBound name count)
    | some b => .ok b

@[simp] theorem get?_empty (name : String) : empty.get? name = none := rfl

/-- The last number that a name was given is the number that it has. -/
@[simp] theorem get?_insert (t : BoundTable) (name name' : String) (bound : UInt64) :
    (t.insert name bound).get? name' = if name = name' then some bound else t.get? name' :=
  BoundEntries.get?_insert name name' bound t.entries

end BoundTable

end LoopProtocol
