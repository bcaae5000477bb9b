import LoopProtocol.BoundTable.Reader
import LoopProtocol.Proofs.ObjectText
import Mathlib.Algebra.Group.Nat.Defs
import Mathlib.Tactic.SplitIfs

/-!
# Reading the text of an object

The reader takes one character at a time, so it is followed through a text: every part of an object
leads it from one stage to another, whatever form the part has. At the end the members are in the
table, a later one in the place of an earlier one of its name.
-/

namespace LoopProtocol

open Text

/-! ## Code units -/

namespace Text

theorem isLeadingSurrogate_iff {n : Nat} :
    isLeadingSurrogate n = true ↔ 0xd800 ≤ n ∧ n < 0xdc00 := by simp [isLeadingSurrogate]

theorem isTrailingSurrogate_iff {n : Nat} :
    isTrailingSurrogate n = true ↔ 0xdc00 ≤ n ∧ n < 0xe000 := by simp [isTrailingSurrogate]

/-- A character has a code point outside the surrogates. -/
theorem not_surrogate (c : Char) :
    isLeadingSurrogate c.toNat = false ∧ isTrailingSurrogate c.toNat = false := by
  have hvalid : c.toNat.isValidChar := c.valid
  rw [Nat.isValidChar] at hvalid
  rw [← Bool.not_eq_true, ← Bool.not_eq_true, isLeadingSurrogate_iff, isTrailingSurrogate_iff]
  omega

theorem toNat_ofNat_of_valid {n : Nat} (h : n.isValidChar) : (Char.ofNat n).toNat = n := by
  rw [Char.ofNat, dif_pos h]
  rfl

theorem toNat_ofNat_code {n : Nat} (hlimit : n < 0x10000) (hlead : isLeadingSurrogate n = false)
    (htrail : isTrailingSurrogate n = false) : (Char.ofNat n).toNat = n := by
  rw [← Bool.not_eq_true, isLeadingSurrogate_iff] at hlead
  rw [← Bool.not_eq_true, isTrailingSurrogate_iff] at htrail
  exact toNat_ofNat_of_valid (by rw [Nat.isValidChar]; omega)

theorem toNat_surrogatePair {lead trail : Nat} (hlead : isLeadingSurrogate lead = true)
    (htrail : isTrailingSurrogate trail = true) :
    (surrogatePair lead trail).toNat =
      0x10000 + (lead - 0xd800) * 0x400 + (trail - 0xdc00) := by
  rw [isLeadingSurrogate_iff] at hlead
  rw [isTrailingSurrogate_iff] at htrail
  exact toNat_ofNat_of_valid (by rw [Nat.isValidChar]; omega)

/-- A unit that is no surrogate names a character, whatever follows it. -/
theorem joinUnits_code {n : Nat} (hlead : isLeadingSurrogate n = false)
    (htrail : isTrailingSurrogate n = false) (us : List TextUnit) :
    joinUnits (.code n :: us) = (joinUnits us).map (Char.ofNat n :: ·) := by
  cases us with
  | nil => simp [joinUnits, hlead, htrail]
  | cons u us => cases u <;> simp [joinUnits, hlead, htrail]

theorem joinUnits_pair {lead trail : Nat} (hlead : isLeadingSurrogate lead = true)
    (htrail : isTrailingSurrogate trail = true) (us : List TextUnit) :
    joinUnits (.code lead :: .code trail :: us) =
      (joinUnits us).map (surrogatePair lead trail :: ·) := by
  simp [joinUnits, hlead, htrail]

end Text

/-! ## Single characters -/

theorem isJsonBlank_iff {c : Char} : isJsonBlank c = true ↔ c ∈ [' ', '\t', '\n', '\r'] := by
  simp [isJsonBlank, or_assoc]

theorem shortEscape?_eq_some_iff {letter c : Char} :
    shortEscape? letter = some c ↔ (letter, c) ∈ shortEscapes := by
  unfold shortEscape?
  split <;> simp_all [shortEscapes, eq_comm]

/-- No digit lies beyond the letter `f`, so there are finitely many characters to try. -/
theorem hexDigit?_eq_some_iff {v : Nat} {c : Char} : hexDigit? c = some v ↔ IsHexDigit v c := by
  constructor
  · intro h
    have hlimit : c.toNat < 103 := by
      simp only [hexDigit?, Bool.and_eq_true, decide_eq_true_iff] at h
      have hbelow (d : Char) (hd : d.toNat < 103) (hc : c ≤ d) : c.toNat < 103 :=
        Nat.lt_of_le_of_lt hc hd
      split_ifs at h with hdigit hlower hupper
      · exact hbelow '9' (by decide) hdigit.2
      · exact hbelow 'f' (by decide) hlower.2
      · exact hbelow 'F' (by decide) hupper.2
    have hall : ∀ n < 103, ∀ v ∈ hexDigit? (Char.ofNat n), v < 16 ∧
        (Char.ofNat n = v.digitChar ∨ Char.ofNat n = v.digitChar.toUpper) := by decide
    have hc := hall c.toNat hlimit v
    rw [Char.ofNat_toNat] at hc
    exact hc h
  · rintro ⟨hv, hc⟩
    have hall : ∀ v < 16, hexDigit? v.digitChar = some v ∧
        hexDigit? v.digitChar.toUpper = some v := by decide
    rcases hc with rfl | rfl
    · exact (hall v hv).1
    · exact (hall v hv).2

theorem digitChar_of_isDigit {c : Char} (h : c.isDigit = true) :
    c.toNat - 48 < 10 ∧ (c.toNat - 48).digitChar = c := by
  rw [Char.isDigit, Bool.and_eq_true, decide_eq_true_iff, decide_eq_true_iff] at h
  have hlow : 48 ≤ c.toNat := h.1
  have hhigh : c.toNat ≤ 57 := h.2
  refine ⟨by omega, Char.toNat_inj.1 ?_⟩
  rw [Nat.toNat_digitChar_of_lt_ten (by omega)]
  omega

theorem isJsonBlank_of_isDigit {c : Char} (h : c.isDigit = true) : isJsonBlank c = false := by
  rw [← Bool.not_eq_true, isJsonBlank_iff]
  intro hblank
  simp only [List.mem_cons, List.not_mem_nil, or_false] at hblank
  rcases hblank with rfl | rfl | rfl | rfl <;> simp at h

theorem HexText.lt {n : Nat} {w : List Char} (h : HexText n w) : n < 16 ^ w.length := by
  induction h with
  | nil => simp
  | @snoc n v w c _ hv ih =>
    have := hv.1
    rw [List.length_append, List.length_singleton, pow_succ]
    omega

theorem InTurn.snoc {α : Type} {form : α → List Char → Prop} {as : List α} {a : α}
    {v w : List Char} (h : InTurn form as v) (ha : form a w) :
    InTurn form (as ++ [a]) (v ++ w) := by
  induction h with
  | nil => simpa using InTurn.cons ha .nil
  | cons hb _ ih => simpa using InTurn.cons hb ih

/-! ## From one stage to another -/

namespace TableReader

variable {r r' : TableReader} {t : BoundTable} {units : List TextUnit} {v w : List Char} {c : Char}

@[simp] theorem read_nil (r : TableReader) : r.read [] = some r := rfl

theorem read_cons (r : TableReader) (c : Char) (w : List Char) :
    r.read (c :: w) = (r.step c).bind (·.read w) := rfl

theorem read_append (h : r.read v = some r') : r.read (v ++ w) = r'.read w := by
  rw [read, List.foldlM_append, ← read, h]
  rfl

theorem read_snoc (h : r.read v = some r') : r.read (v ++ [c]) = r'.step c := by
  rw [read_append h, read_cons]
  cases r'.step c <;> rfl

/-- Where blanks may stand, they are passed over. -/
theorem read_blank (h : ∀ c, isJsonBlank c = true → r.step c = some r) (hw : IsBlankText w) :
    r.read w = some r := by
  induction w with
  | nil => rfl
  | cons c w ih =>
    rw [read_cons, h c (isJsonBlank_iff.2 (hw c List.mem_cons_self))]
    exact ih fun d hd => hw d (List.mem_cons_of_mem c hd)

theorem read_hexText {n : Nat} (h : HexText n w) {left : Nat} (hleft : w.length < left) :
    read ⟨.codeUnit units left 0, t⟩ w = some ⟨.codeUnit units (left - w.length) n, t⟩ := by
  induction h with
  | nil => rfl
  | @snoc n v w c _ hv ih =>
    rw [List.length_append, List.length_singleton] at hleft ⊢
    rw [read_snoc (ih (by omega))]
    have hmore : ¬ left - w.length ≤ 1 := by omega
    simp [step, inCodeUnit, hexDigit?_eq_some_iff.2 hv, hmore, goto, Nat.sub_sub]

theorem read_codeUnit {n : Nat} (h : IsCodeUnitText n w) :
    read ⟨.name units, t⟩ w = some ⟨.name (.code n :: units), t⟩ := by
  obtain ⟨digits, hdigits, hlength, rfl⟩ := h
  have hopen : read ⟨.name units, t⟩ ['\\', 'u'] = some ⟨.codeUnit units 4 0, t⟩ := rfl
  refine (read_append (w := digits) hopen).trans ?_
  cases hdigits with
  | nil => cases hlength
  | @snoc n v w c hw hv =>
    rw [List.length_append, List.length_singleton] at hlength
    rw [read_snoc (read_hexText hw (by omega))]
    have hlast : 4 - w.length ≤ 1 := by omega
    simp [step, inCodeUnit, hexDigit?_eq_some_iff.2 hv, hlast, goto]

/-- A form of a character is read as one unit or two, which name the character. -/
theorem read_charText (h : CharText c w) (units : List TextUnit) (t : BoundTable) :
    ∃ us, read ⟨.name units, t⟩ w = some ⟨.name (us.reverse ++ units), t⟩ ∧
      ∀ vs, joinUnits (us ++ vs) = (joinUnits vs).map (c :: ·) := by
  cases h with
  | plain hcontrol hquote hbackslash =>
    refine ⟨[.plain c], ?_, fun vs => rfl⟩
    have hcontrol' : ¬ c.toNat < 0x20 := Nat.not_lt.2 hcontrol
    simp [read_cons, step, inName, hquote, hbackslash, hcontrol', goto]
  | @short letter _ hshort =>
    refine ⟨[.plain c], ?_, fun vs => rfl⟩
    have hletter : letter ≠ 'u' := by
      rintro rfl
      simp [shortEscapes] at hshort
    simp [read_cons, step, inName, inEscape, hletter, shortEscape?_eq_some_iff.2 hshort, goto]
  | unit hunit =>
    obtain ⟨hlead, htrail⟩ := not_surrogate c
    refine ⟨[.code c.toNat], read_codeUnit hunit, fun vs => ?_⟩
    rw [List.singleton_append, joinUnits_code hlead htrail, Char.ofNat_toNat]
  | @pair _ lead trail v w hv hw hlead hlead' htrail htrail' hc =>
    refine ⟨[.code lead, .code trail], ?_, fun vs => ?_⟩
    · rw [read_append (read_codeUnit hv)]
      exact read_codeUnit hw
    · have hleading := isLeadingSurrogate_iff.2 ⟨hlead, hlead'⟩
      have htrailing := isTrailingSurrogate_iff.2 ⟨htrail, htrail'⟩
      have hname : surrogatePair lead trail = c :=
        Char.toNat_inj.1 ((toNat_surrogatePair hleading htrailing).trans hc.symm)
      simp [joinUnits_pair hleading htrailing, hname]

theorem read_chars {cs : List Char} (h : InTurn CharText cs w) (units : List TextUnit)
    (t : BoundTable) :
    ∃ us, read ⟨.name units, t⟩ w = some ⟨.name (us.reverse ++ units), t⟩ ∧
      joinUnits us = some cs := by
  induction h generalizing units with
  | nil => exact ⟨[], rfl, rfl⟩
  | @cons c cs v w hc _ ih =>
    obtain ⟨us, hread, hjoin⟩ := read_charText hc units t
    obtain ⟨vs, hread', hjoin'⟩ := ih (us.reverse ++ units)
    refine ⟨us ++ vs, ?_, ?_⟩
    · rw [read_append hread, hread', List.reverse_append, List.append_assoc]
    · rw [hjoin, hjoin']
      rfl

/-- Whether a name may stand next. -/
def AwaitsName (r : TableReader) : Prop := r.stage = .opened ∨ r.stage = .next

theorem read_nameText {name : String} (hr : r.AwaitsName) (h : NameText name w) :
    r.read w = some ⟨.colon name, r.table⟩ := by
  cases h with
  | @mk w hw =>
    obtain ⟨us, hread, hjoin⟩ := read_chars hw [] r.table
    have hopen : r.read ['"'] = some ⟨.name [], r.table⟩ := by
      rcases hr with hr | hr <;> simp [read_cons, step, hr, isJsonBlank, goto]
    have hname : r.read ('"' :: w) = some ⟨.name (us.reverse ++ []), r.table⟩ :=
      (read_append hopen).trans hread
    rw [read_snoc hname]
    simp [step, inName, hjoin, goto]

/-- A number is read digit by digit. -/
theorem read_number (name : String) (t : BoundTable) {n : Nat} (h : n < UInt64.size) :
    read ⟨.value name, t⟩ (Nat.toDigits 10 n) = some ⟨.number name n, t⟩ := by
  have hdigit {d : Nat} (hd : d < 10) : d.digitChar.isDigit = true := by
    simpa [Nat.isDigit_digitChar] using hd
  have hvalue {d : Nat} (hd : d < 10) : d.digitChar.toNat - '0'.toNat = d :=
    Nat.toNat_digitChar_sub_48_of_lt_ten hd
  -- The digits of `n` are those of `n / 10`, which the reader has taken, and one more.
  induction n using Nat.strongRecOn with
  | ind n ih =>
    by_cases hn : n < 10
    · rw [Nat.toDigits_of_lt_base hn]
      simp only [read_cons, read_nil, Option.bind_some, step, isJsonBlank_of_isDigit (hdigit hn),
        Bool.false_eq_true, if_false, hdigit hn, if_true, hvalue hn, goto]
    · have hlast : n % 10 < 10 := Nat.mod_lt _ (by decide)
      have hpositive : n / 10 ≠ 0 := by omega
      have hgrown : n / 10 * 10 + n % 10 = n := Nat.div_add_mod' n 10
      rw [Nat.toDigits_of_base_le (by decide) (Nat.le_of_not_lt hn),
        read_snoc (ih (n / 10) (by omega) (by omega))]
      simp only [step, inNumber, hdigit hlast, if_true, if_neg hpositive, hvalue hlast, hgrown,
        if_pos h, goto]

/-- What follows a number ends it, and puts the member into the table. -/
theorem read_after_number {name : String} {number : UInt64} (hw : IsBlankText w)
    (hc : c = ',' ∨ c = '\x7d') :
    read ⟨.number name number.toNat, t⟩ (w ++ [c]) =
      between ⟨.between, t.insert name number⟩ c := by
  -- A number has no end of its own, so the next character ends it and is read as what follows.
  have hend (d : Char) (hd : d.isDigit = false) :
      step ⟨.number name number.toNat, t⟩ d = between ⟨.between, t.insert name number⟩ d := by
    simp [step, inNumber, hd, between, goto]
  cases w with
  | nil =>
    have hdigit : c.isDigit = false := by rcases hc with rfl | rfl <;> rfl
    rw [read_snoc (read_nil _), hend c hdigit]
  | cons d w =>
    have hblank := isJsonBlank_iff.2 (hw d List.mem_cons_self)
    have hdigit : d.isDigit = false := by
      rw [← Bool.not_eq_true]
      intro hd
      rw [isJsonBlank_of_isDigit hd] at hblank
      cases hblank
    have hbetween : step ⟨.number name number.toNat, t⟩ d =
        some ⟨.between, t.insert name number⟩ := by
      simp [hend d hdigit, between, hblank, goto]
    have hrest : read ⟨.between, t.insert name number⟩ w = some ⟨.between, t.insert name number⟩ :=
      read_blank (fun e he => by simp [step, between, he, goto])
        fun e he => hw e (List.mem_cons_of_mem d he)
    rw [List.cons_append, read_cons, hbetween, Option.bind_some, read_snoc hrest]
    rfl

theorem read_memberText {e : String × UInt64} (hr : r.AwaitsName) (h : MemberText e w)
    (hc : c = ',' ∨ c = '\x7d') :
    r.read (w ++ [c]) = between ⟨.between, r.table.insert e.1 e.2⟩ c := by
  cases h with
  | @mk name number a w b b' d ha hname hb hb' hd =>
    have hblank : r.read a = some r := by
      refine read_blank (fun e he => ?_) ha
      rcases hr with hr | hr <;> simp [step, hr, he]
    have hcolon : read ⟨.colon name, r.table⟩ b = some ⟨.colon name, r.table⟩ :=
      read_blank (fun e he => by simp [step, he]) hb
    have hvalue : read ⟨.colon name, r.table⟩ [':'] = some ⟨.value name, r.table⟩ := by
      simp [read_cons, step, isJsonBlank, goto]
    have hspace : read ⟨.value name, r.table⟩ b' = some ⟨.value name, r.table⟩ :=
      read_blank (fun e he => by simp [step, he]) hb'
    have hnumber := read_number name r.table number.toNat_lt
    have hparts : a ++ w ++ b ++ ':' :: b' ++ Nat.toDigits 10 number.toNat ++ d ++ [c] =
        a ++ (w ++ (b ++ ([':'] ++ (b' ++ (Nat.toDigits 10 number.toNat ++ (d ++ [c])))))) := by
      simp
    rw [hparts, read_append hblank, read_append (read_nameText hr hname), read_append hcolon,
      read_append hvalue, read_append hspace, read_append hnumber, read_after_number hd hc]

end TableReader

theorem BoundTable.ofList_append_singleton (es : BoundEntries) (e : String × UInt64) :
    ofList (es ++ [e]) = (ofList es).insert e.1 e.2 := by
  simp [ofList]

namespace TableReader

variable {es : BoundEntries} {w : List Char}

theorem read_membersText {c : Char} (h : MembersText es w) (hc : c = ',' ∨ c = '\x7d') :
    read ⟨.opened, .empty⟩ (w ++ [c]) = between ⟨.between, .ofList es⟩ c := by
  induction h generalizing c with
  | one he => exact read_memberText (.inl rfl) he hc
  | @snoc es e v w _ he ih =>
    have hcomma : read ⟨.opened, .empty⟩ (v ++ [',']) = some ⟨.next, .ofList es⟩ := by
      rw [ih (.inl rfl)]
      rfl
    have hparts : v ++ ',' :: w ++ [c] = v ++ [','] ++ (w ++ [c]) := by simp
    rw [hparts, read_append hcomma, read_memberText (.inr rfl) he hc,
      BoundTable.ofList_append_singleton]

/-- **The reader accepts every object, with its members in the table.** -/
theorem read_objectText (h : ObjectText es w) :
    read ⟨.start, .empty⟩ w = some ⟨.closed, .ofList es⟩ := by
  have hstart {a : List Char} (ha : IsBlankText a) :
      read ⟨.start, .empty⟩ (a ++ ['\x7b']) = some ⟨.opened, .empty⟩ := by
    rw [read_snoc (read_blank (fun c hc => by simp [step, hc]) ha)]
    rfl
  have hclosed {c : List Char} (hc : IsBlankText c) (t : BoundTable) :
      read ⟨.closed, t⟩ c = some ⟨.closed, t⟩ :=
    read_blank (fun c hc => by simp [step, hc]) hc
  cases h with
  | @empty a b c ha hb hc =>
    have hblank : read ⟨.opened, .empty⟩ b = some ⟨.opened, .empty⟩ :=
      read_blank (fun c hc => by simp [step, hc]) hb
    have hparts : a ++ '\x7b' :: b ++ '\x7d' :: c = a ++ ['\x7b'] ++ (b ++ (['\x7d'] ++ c)) := by
      simp
    rw [hparts, read_append (hstart ha), read_append hblank]
    exact hclosed hc .empty
  | @members _ a w c ha hw hc =>
    have hbrace : read ⟨.opened, .empty⟩ (w ++ ['\x7d']) = some ⟨.closed, .ofList es⟩ := by
      rw [read_membersText hw (.inr rfl)]
      rfl
    have hparts : a ++ '\x7b' :: w ++ '\x7d' :: c = a ++ ['\x7b'] ++ (w ++ ['\x7d'] ++ c) := by
      simp
    rw [hparts, read_append (hstart ha), read_append hbrace]
    exact hclosed hc _

end TableReader

end LoopProtocol
