import LoopProtocol.BoundTable.Printer
import Mathlib.Tactic.SplitIfs

/-!
# The text of an object

Which texts are a JSON object whose members give numbers to names, and which members they list. The
format leaves a writer free in two ways. Blanks may stand between any two parts, and a character of
a name has several forms: itself, a short escape, its code unit in hexadecimal digits of either
case, and, beyond U+FFFF, the code units of two surrogates. A number has one form only, and a name
may be listed more than once.

The compact text of a table is one of them, and it lists the entries of the table in their order.
-/

namespace LoopProtocol

/-- The elements of a list one after another, each in a form of its own. -/
inductive InTurn {α : Type} (form : α → List Char → Prop) : List α → List Char → Prop where
  | nil : InTurn form [] []
  | cons {a : α} {as : List α} {v w : List Char} :
    form a v → InTurn form as w → InTurn form (a :: as) (v ++ w)

/-- Nothing but blanks. -/
def IsBlankText (w : List Char) : Prop := ∀ c ∈ w, c ∈ [' ', '\t', '\n', '\r']

/-! ## Characters -/

/-- The letters that may follow a backslash, each with the character that it stands for. -/
def shortEscapes : List (Char × Char) :=
  [('"', '"'), ('\\', '\\'), ('/', '/'), ('b', '\x08'), ('f', '\x0c'), ('n', '\n'), ('r', '\r'),
    ('t', '\t')]

/-- A hexadecimal digit in lower or upper case. -/
def IsHexDigit (v : Nat) (c : Char) : Prop :=
  v < 16 ∧ (c = v.digitChar ∨ c = v.digitChar.toUpper)

/-- A number in hexadecimal digits, with leading zeros or without. -/
inductive HexText : Nat → List Char → Prop where
  | nil : HexText 0 []
  | snoc {n v : Nat} {w : List Char} {c : Char} :
    HexText n w → IsHexDigit v c → HexText (n * 16 + v) (w ++ [c])

/-- A 16-bit code unit: a backslash, `u` and four digits. -/
def IsCodeUnitText (n : Nat) (w : List Char) : Prop :=
  ∃ digits, HexText n digits ∧ digits.length = 4 ∧ w = '\\' :: 'u' :: digits

/-- The forms that a character of a name may have. -/
inductive CharText : Char → List Char → Prop where
  | plain {c : Char} : 0x20 ≤ c.toNat → c ≠ '"' → c ≠ '\\' → CharText c [c]
  | short {letter c : Char} : (letter, c) ∈ shortEscapes → CharText c ['\\', letter]
  | unit {c : Char} {w : List Char} : IsCodeUnitText c.toNat w → CharText c w
  | pair {c : Char} {lead trail : Nat} {v w : List Char} :
    IsCodeUnitText lead v → IsCodeUnitText trail w →
    0xd800 ≤ lead → lead < 0xdc00 → 0xdc00 ≤ trail → trail < 0xe000 →
    c.toNat = 0x10000 + (lead - 0xd800) * 0x400 + (trail - 0xdc00) → CharText c (v ++ w)

/-! ## Members -/

/-- A name between quotes. -/
inductive NameText : String → List Char → Prop where
  | mk {name : String} {w : List Char} :
    InTurn CharText name.toList w → NameText name ('"' :: w ++ ['"'])

/-- A name, a colon and a number, with blanks around each. -/
inductive MemberText : String × UInt64 → List Char → Prop where
  | mk {name : String} {number : UInt64} {a w b c d : List Char} :
    IsBlankText a → NameText name w → IsBlankText b → IsBlankText c → IsBlankText d →
    MemberText (name, number) (a ++ w ++ b ++ ':' :: c ++ Nat.toDigits 10 number.toNat ++ d)

/-- One member or more, with a comma between each two. -/
inductive MembersText : BoundEntries → List Char → Prop where
  | one {e : String × UInt64} {w : List Char} : MemberText e w → MembersText [e] w
  | snoc {es : BoundEntries} {e : String × UInt64} {v w : List Char} :
    MembersText es v → MemberText e w → MembersText (es ++ [e]) (v ++ ',' :: w)

/-- An object with blanks around it. -/
inductive ObjectText : BoundEntries → List Char → Prop where
  | empty {a b c : List Char} : IsBlankText a → IsBlankText b → IsBlankText c →
    ObjectText [] (a ++ '\x7b' :: b ++ '\x7d' :: c)
  | members {es : BoundEntries} {a w c : List Char} :
    IsBlankText a → MembersText es w → IsBlankText c →
    ObjectText es (a ++ '\x7b' :: w ++ '\x7d' :: c)

/-! ## The compact text of a table -/

theorem isBlankText_nil : IsBlankText [] := fun _ h => nomatch h

theorem isHexDigit_digitChar {v : Nat} (h : v < 16) : IsHexDigit v v.digitChar := ⟨h, .inl rfl⟩

/-- A control character is written by its code unit, of which the first two digits are zeros. -/
theorem isCodeUnitText_control {n : Nat} (h : n < 0x20) :
    IsCodeUnitText n ['\\', 'u', '0', '0', Nat.digitChar (n / 16), Nat.digitChar (n % 16)] := by
  have hzero : IsHexDigit 0 '0' := isHexDigit_digitChar (by omega)
  have hhigh : IsHexDigit (n / 16) (Nat.digitChar (n / 16)) := isHexDigit_digitChar (by omega)
  have hlow : IsHexDigit (n % 16) (Nat.digitChar (n % 16)) := isHexDigit_digitChar (by omega)
  have hall := (((HexText.nil.snoc hzero).snoc hzero).snoc hhigh).snoc hlow
  rw [show (((0 * 16 + 0) * 16 + 0) * 16 + n / 16) * 16 + n % 16 = n by omega] at hall
  exact ⟨_, hall, rfl, rfl⟩

theorem charText_jsonChar (c : Char) : CharText c (jsonChar c) := by
  unfold jsonChar
  split_ifs with hquote hbackslash _ _ _ _ _ hcontrol
  case pos | pos | pos | pos | pos | pos | pos => subst c; exact .short (by decide)
  · exact .unit (isCodeUnitText_control hcontrol)
  · exact .plain (Nat.le_of_not_lt hcontrol) hquote hbackslash

theorem inTurn_flatMap {α : Type} {form : α → List Char → Prop} {write : α → List Char}
    (h : ∀ a, form a (write a)) (as : List α) : InTurn form as (as.flatMap write) := by
  induction as with
  | nil => exact .nil
  | cons a as ih => exact .cons (h a) ih

namespace BoundTable

theorem memberText_memberChars (e : String × UInt64) : MemberText e (memberChars e) := by
  have hname : NameText e.1 ('"' :: e.1.toList.flatMap jsonChar ++ ['"']) :=
    .mk (inTurn_flatMap charText_jsonChar _)
  have hmember : MemberText (e.1, e.2) _ :=
    .mk isBlankText_nil hname isBlankText_nil isBlankText_nil isBlankText_nil
  simpa [memberChars] using hmember

/-- Members are listed from the first on as well as from the last. -/
theorem membersText_cons {e : String × UInt64} {es : BoundEntries} {v w : List Char}
    (he : MemberText e v) (hes : MembersText es w) : MembersText (e :: es) (v ++ ',' :: w) := by
  induction hes with
  | one he' => exact .snoc (.one he) he'
  | snoc _ he' ih => simpa using ih.snoc he'

theorem membersText_membersChars (e : String × UInt64) (es : BoundEntries) :
    MembersText (e :: es) (membersChars (e :: es)) := by
  induction es generalizing e with
  | nil => exact .one (memberText_memberChars e)
  | cons e' es ih => exact membersText_cons (memberText_memberChars e) (ih e')

/-- **The compact text of a table lists its entries in their order.** -/
theorem objectText_json (t : BoundTable) : ObjectText t.entries t.json.toList := by
  rw [json, String.toList_ofList]
  cases hes : t.entries with
  | nil => exact .empty isBlankText_nil isBlankText_nil isBlankText_nil
  | cons e es =>
    exact .members isBlankText_nil (membersText_membersChars e es) isBlankText_nil

end BoundTable

end LoopProtocol
