import LoopProtocol.Proofs.TableReading

/-!
# What was read

Each stage of the reader tells the form of the text before it: an object up to a place of one kind.
The first character keeps this true and every further one does, so a text that is read to the end is
an object, and the table is that of its members.
-/

namespace LoopProtocol

open Text

/-! ## Units of a name -/

/-- The forms of one unit of a name. -/
inductive UnitText : TextUnit → List Char → Prop where
  | plain {c : Char} : 0x20 ≤ c.toNat → c ≠ '"' → c ≠ '\\' → UnitText (.plain c) [c]
  | short {letter c : Char} : (letter, c) ∈ shortEscapes → UnitText (.plain c) ['\\', letter]
  | code {n : Nat} {w : List Char} : IsCodeUnitText n w → UnitText (.code n) w

theorem IsCodeUnitText.lt {n : Nat} {w : List Char} (h : IsCodeUnitText n w) : n < 0x10000 := by
  obtain ⟨digits, hdigits, hlength, -⟩ := h
  have hlt := hdigits.lt
  rw [hlength] at hlt
  exact hlt

/-- A code unit that is no surrogate is a form of the character that it names. -/
theorem charText_of_code {n : Nat} {w : List Char} (h : IsCodeUnitText n w)
    (hlead : isLeadingSurrogate n = false) (htrail : isTrailingSurrogate n = false) :
    CharText (Char.ofNat n) w :=
  .unit (by rwa [toNat_ofNat_code h.lt hlead htrail])

/-- Units that can be joined are the forms of the characters that they name. -/
theorem inTurn_charText {us : List TextUnit} {cs : List Char} {w : List Char}
    (h : InTurn UnitText us w) (hjoin : joinUnits us = some cs) : InTurn CharText cs w := by
  -- Two surrogates are one character, so the cases are those of joining and not of the list.
  fun_induction joinUnits us generalizing cs w with
  | case1 =>
    cases hjoin
    cases h
    exact .nil
  | case2 c rest ih =>
    obtain ⟨ds, hds, rfl⟩ := Option.map_eq_some_iff.1 hjoin
    cases h with
    | cons hu hrest =>
      refine .cons ?_ (ih hrest hds)
      cases hu with
      | plain hcontrol hquote hbackslash => exact .plain hcontrol hquote hbackslash
      | short hshort => exact .short hshort
  | case3 lead trail rest hlead htrail ih =>
    obtain ⟨ds, hds, rfl⟩ := Option.map_eq_some_iff.1 hjoin
    have hname := toNat_surrogatePair hlead htrail
    obtain ⟨hlow, hhigh⟩ := isLeadingSurrogate_iff.1 hlead
    obtain ⟨hlow', hhigh'⟩ := isTrailingSurrogate_iff.1 htrail
    cases h with
    | cons hu hmore =>
      cases hmore with
      | cons hu' hrest =>
        cases hu with
        | code hv =>
          cases hu' with
          | code hw =>
            rw [← List.append_assoc]
            exact .cons (.pair hv hw hlow hhigh hlow' hhigh' hname) (ih hrest hds)
  | case4 | case5 | case7 => cases hjoin
  | case6 lead trail rest hlead htrail ih =>
    obtain ⟨ds, hds, rfl⟩ := Option.map_eq_some_iff.1 hjoin
    cases h with
    | cons hu hrest =>
      cases hu with
      | code hv =>
        refine .cons (charText_of_code hv ?_ ?_) (ih hrest hds)
        · simpa using hlead
        · simpa using htrail
  | case8 unit rest _ hplain ih =>
    obtain ⟨ds, hds, rfl⟩ := Option.map_eq_some_iff.1 hjoin
    rw [Bool.or_eq_true, not_or, Bool.not_eq_true, Bool.not_eq_true] at hplain
    cases h with
    | cons hu hrest =>
      cases hu with
      | code hv => exact .cons (charText_of_code hv hplain.1 hplain.2) (ih hrest hds)

/-! ## Stages -/

/-- An object up to the place where a name begins, with the members before it. -/
inductive Opening : BoundEntries → List Char → Prop where
  | first {a b : List Char} : IsBlankText a → IsBlankText b → Opening [] (a ++ '\x7b' :: b)
  | next {es : BoundEntries} {a w b : List Char} : IsBlankText a → MembersText es w →
    IsBlankText b → Opening es (a ++ '\x7b' :: w ++ ',' :: b)

/-- An object up to the end of a member. -/
inductive Listed : BoundEntries → List Char → Prop where
  | mk {es : BoundEntries} {a w : List Char} : IsBlankText a → MembersText es w →
    Listed es (a ++ '\x7b' :: w)

/-- What was read before each stage, and which members. -/
inductive Seen : TableReader → List Char → Prop where
  | start {a : List Char} : IsBlankText a → Seen ⟨.start, .empty⟩ a
  | opened {a b : List Char} : IsBlankText a → IsBlankText b →
    Seen ⟨.opened, .empty⟩ (a ++ '\x7b' :: b)
  | next {es : BoundEntries} {v b : List Char} : Listed es v → IsBlankText b →
    Seen ⟨.next, .ofList es⟩ (v ++ ',' :: b)
  | name {es : BoundEntries} {v w : List Char} {units : List TextUnit} : Opening es v →
    InTurn UnitText units.reverse w → Seen ⟨.name units, .ofList es⟩ (v ++ '"' :: w)
  | escape {es : BoundEntries} {v w : List Char} {units : List TextUnit} : Opening es v →
    InTurn UnitText units.reverse w → Seen ⟨.escape units, .ofList es⟩ (v ++ '"' :: w ++ ['\\'])
  | codeUnit {es : BoundEntries} {v w digits : List Char} {units : List TextUnit} {left n : Nat} :
    Opening es v → InTurn UnitText units.reverse w → HexText n digits →
    0 < left → digits.length + left = 4 →
    Seen ⟨.codeUnit units left n, .ofList es⟩ (v ++ '"' :: w ++ '\\' :: 'u' :: digits)
  | colon {es : BoundEntries} {v w b : List Char} {name : String} : Opening es v →
    NameText name w → IsBlankText b → Seen ⟨.colon name, .ofList es⟩ (v ++ w ++ b)
  | value {es : BoundEntries} {v w b c : List Char} {name : String} : Opening es v →
    NameText name w → IsBlankText b → IsBlankText c →
    Seen ⟨.value name, .ofList es⟩ (v ++ w ++ b ++ ':' :: c)
  | number {es : BoundEntries} {v w b c : List Char} {name : String} {n : Nat} : Opening es v →
    NameText name w → IsBlankText b → IsBlankText c → n < UInt64.size →
    Seen ⟨.number name n, .ofList es⟩ (v ++ w ++ b ++ ':' :: c ++ Nat.toDigits 10 n)
  | between {es : BoundEntries} {v : List Char} : Listed es v → Seen ⟨.between, .ofList es⟩ v
  | closed {es : BoundEntries} {v : List Char} : ObjectText es v → Seen ⟨.closed, .ofList es⟩ v

theorem IsBlankText.snoc {w : List Char} {c : Char} (h : IsBlankText w)
    (hc : isJsonBlank c = true) : IsBlankText (w ++ [c]) := by
  intro d hd
  rcases List.mem_append.1 hd with hd | hd
  · exact h d hd
  · rw [List.mem_singleton.1 hd]
    exact isJsonBlank_iff.1 hc

/-- A member after an opening is listed. -/
theorem Opening.listed {es : BoundEntries} {v w b c d : List Char} {name : String}
    (h : Opening es v) (number : UInt64) (hw : NameText name w) (hb : IsBlankText b)
    (hc : IsBlankText c) (hd : IsBlankText d) :
    Listed (es ++ [(name, number)])
      (v ++ w ++ b ++ ':' :: c ++ Nat.toDigits 10 number.toNat ++ d) := by
  cases h with
  | first ha hv => simpa using Listed.mk ha (.one (.mk hv hw hb hc hd))
  | next ha hes hv => simpa using Listed.mk ha (.snoc hes (.mk hv hw hb hc hd))

theorem MemberText.snoc_blank {e : String × UInt64} {w : List Char} {c : Char}
    (h : MemberText e w) (hc : isJsonBlank c = true) : MemberText e (w ++ [c]) := by
  cases h with
  | mk ha hw hb hb' hd => simpa using MemberText.mk ha hw hb hb' (hd.snoc hc)

theorem Listed.snoc_blank {es : BoundEntries} {w : List Char} {c : Char} (h : Listed es w)
    (hc : isJsonBlank c = true) : Listed es (w ++ [c]) := by
  cases h with
  | mk ha hes =>
    cases hes with
    | one he => simpa using Listed.mk ha (.one (he.snoc_blank hc))
    | snoc hes he => simpa using Listed.mk ha (.snoc hes (he.snoc_blank hc))

namespace Seen

variable {r r' : TableReader} {v w : List Char} {c : Char} {es : BoundEntries}

/-- What may follow a member. -/
theorem after_member (h : Listed es v) {stage : ReaderStage}
    (hr : TableReader.between ⟨stage, .ofList es⟩ c = some r') : Seen r' (v ++ [c]) := by
  unfold TableReader.between TableReader.goto at hr
  split_ifs at hr with hblank hcomma hbrace <;> cases hr
  · exact .between (h.snoc_blank hblank)
  · subst hcomma
    exact .next h isBlankText_nil
  · subst hbrace
    cases h with
    | mk ha hes => simpa using Seen.closed (.members ha hes isBlankText_nil)

theorem in_name {units : List TextUnit} (hv : Opening es v) (hw : InTurn UnitText units.reverse w)
    (hr : TableReader.inName ⟨.name units, .ofList es⟩ units c = some r') :
    Seen r' (v ++ '"' :: w ++ [c]) := by
  unfold TableReader.inName TableReader.goto at hr
  split_ifs at hr with hquote hbackslash hcontrol
  · obtain ⟨cs, hcs, hr⟩ := Option.bind_eq_some_iff.1 hr
    cases hr
    have hname : NameText (String.ofList cs) ('"' :: w ++ ['"']) :=
      .mk (by rw [String.toList_ofList]; exact inTurn_charText hw hcs)
    subst hquote
    simpa using Seen.colon hv hname isBlankText_nil
  · cases hr
    subst hbackslash
    exact .escape hv hw
  · cases hr
    have hmore : InTurn UnitText (TextUnit.plain c :: units).reverse (w ++ [c]) := by
      rw [List.reverse_cons]
      exact hw.snoc (.plain (Nat.not_lt.1 hcontrol) hquote hbackslash)
    simpa using Seen.name hv hmore

theorem in_escape {units : List TextUnit} (hv : Opening es v)
    (hw : InTurn UnitText units.reverse w)
    (hr : TableReader.inEscape ⟨.escape units, .ofList es⟩ units c = some r') :
    Seen r' (v ++ '"' :: w ++ ['\\'] ++ [c]) := by
  unfold TableReader.inEscape TableReader.goto at hr
  split_ifs at hr with hu
  · cases hr
    subst hu
    simpa using Seen.codeUnit hv hw .nil (by decide : 0 < 4) rfl
  · obtain ⟨e, he, hr⟩ := Option.bind_eq_some_iff.1 hr
    cases hr
    have hmore : InTurn UnitText (TextUnit.plain e :: units).reverse (w ++ ['\\', c]) := by
      rw [List.reverse_cons]
      exact hw.snoc (.short (shortEscape?_eq_some_iff.1 he))
    simpa using Seen.name hv hmore

theorem in_codeUnit {units : List TextUnit} {digits : List Char} {left n : Nat}
    (hv : Opening es v) (hw : InTurn UnitText units.reverse w) (hn : HexText n digits)
    (hleft : 0 < left) (hlength : digits.length + left = 4)
    (hr : TableReader.inCodeUnit ⟨.codeUnit units left n, .ofList es⟩ units left n c = some r') :
    Seen r' (v ++ '"' :: w ++ '\\' :: 'u' :: digits ++ [c]) := by
  obtain ⟨d, hd, hr⟩ := Option.bind_eq_some_iff.1 hr
  have hdigits := hn.snoc (hexDigit?_eq_some_iff.1 hd)
  have hlength' : (digits ++ [c]).length = digits.length + 1 := by simp
  unfold TableReader.goto at hr
  split_ifs at hr with hlast <;> cases hr
  · have hmore : InTurn UnitText (TextUnit.code (n * 16 + d) :: units).reverse
        (w ++ '\\' :: 'u' :: (digits ++ [c])) := by
      rw [List.reverse_cons]
      exact hw.snoc (.code ⟨_, hdigits, by omega, rfl⟩)
    simpa using Seen.name hv hmore
  · have hmore : Seen ⟨.codeUnit units (left - 1) (n * 16 + d), .ofList es⟩ _ :=
      .codeUnit hv hw hdigits (by omega) (by omega)
    simpa using hmore

theorem in_number {b d : List Char} {name : String} {n : Nat} (hv : Opening es v)
    (hw : NameText name w) (hb : IsBlankText b) (hd : IsBlankText d) (hn : n < UInt64.size)
    (hr : TableReader.inNumber ⟨.number name n, .ofList es⟩ name n c = some r') :
    Seen r' (v ++ w ++ b ++ ':' :: d ++ Nat.toDigits 10 n ++ [c]) := by
  unfold TableReader.inNumber at hr
  split_ifs at hr with hdigit hzero
  · obtain ⟨hlt, hc⟩ := digitChar_of_isDigit hdigit
    have hgrown : Nat.toDigits 10 n ++ [c] = Nat.toDigits 10 (n * 10 + (c.toNat - 48)) := by
      rw [Nat.mul_comm, ← Nat.toDigits_append_toDigits (by decide) (by omega) hlt,
        Nat.toDigits_of_lt_base hlt, hc]
    simp only [TableReader.goto] at hr
    split_ifs at hr with hlimit
    cases hr
    rw [List.append_assoc, hgrown]
    exact .number hv hw hb hd hlimit
  · have hlisted := hv.listed (UInt64.ofNat n) hw hb hd isBlankText_nil
    rw [List.append_nil, UInt64.toNat_ofNat_of_lt' hn] at hlisted
    rw [← BoundTable.ofList_append_singleton es (name, UInt64.ofNat n)] at hr
    exact after_member hlisted hr

/-- **Every character that the reader takes keeps what its stage tells.** -/
theorem step (h : Seen r w) (hr : r.step c = some r') : Seen r' (w ++ [c]) := by
  cases h with
  | start ha =>
    simp only [TableReader.step, TableReader.goto] at hr
    split_ifs at hr with hblank hbrace <;> cases hr
    · exact .start (ha.snoc hblank)
    · subst hbrace
      exact .opened ha isBlankText_nil
  | opened ha hb =>
    simp only [TableReader.step, TableReader.goto] at hr
    split_ifs at hr with hblank hquote hbrace <;> cases hr
    · simpa using Seen.opened ha (hb.snoc hblank)
    · subst hquote
      exact .name (.first ha hb) .nil
    · subst hbrace
      have hclosed : Seen ⟨.closed, .empty⟩ _ := .closed (.empty ha hb isBlankText_nil)
      simpa using hclosed
  | next hv hb =>
    simp only [TableReader.step, TableReader.goto] at hr
    split_ifs at hr with hblank hquote <;> cases hr
    · simpa using Seen.next hv (hb.snoc hblank)
    · subst hquote
      cases hv with
      | mk ha hes => exact .name (.next ha hes hb) .nil
  | name hv hw => exact in_name hv hw hr
  | escape hv hw => exact in_escape hv hw hr
  | codeUnit hv hw hn hleft hlength => exact in_codeUnit hv hw hn hleft hlength hr
  | colon hv hw hb =>
    simp only [TableReader.step, TableReader.goto] at hr
    split_ifs at hr with hblank hcolon <;> cases hr
    · simpa using Seen.colon hv hw (hb.snoc hblank)
    · subst hcolon
      exact .value hv hw hb isBlankText_nil
  | value hv hw hb hd =>
    simp only [TableReader.step, TableReader.goto] at hr
    split_ifs at hr with hblank hdigit <;> cases hr
    · simpa using Seen.value hv hw hb (hd.snoc hblank)
    · obtain ⟨hlt, hc⟩ := digitChar_of_isDigit hdigit
      have hone := Seen.number (n := c.toNat - 48) hv hw hb hd
        (Nat.lt_trans hlt (by decide))
      rwa [Nat.toDigits_of_lt_base hlt, hc] at hone
  | number hv hw hb hd hn => exact in_number hv hw hb hd hn hr
  | between hv => exact after_member hv hr
  | closed hv =>
    simp only [TableReader.step] at hr
    split_ifs at hr with hblank
    cases hr
    refine .closed ?_
    cases hv with
    | empty ha hb hd => simpa using ObjectText.empty ha hb (hd.snoc hblank)
    | members ha hes hd => simpa using ObjectText.members ha hes (hd.snoc hblank)

/-- What every stage tells is kept while a text is read. -/
theorem read (h : Seen r v) (hr : r.read w = some r') : Seen r' (v ++ w) := by
  induction w generalizing r v with
  | nil =>
    cases hr
    rwa [List.append_nil]
  | cons c w ih =>
    rw [TableReader.read_cons] at hr
    obtain ⟨q, hq, hr⟩ := Option.bind_eq_some_iff.1 hr
    simpa using ih (h.step hq) hr

end Seen

/-- **The reader accepts nothing but objects, and finds their members.** -/
theorem TableReader.objectText_of_read {w : List Char} {t : BoundTable}
    (h : read ⟨.start, .empty⟩ w = some ⟨.closed, t⟩) :
    ∃ es, ObjectText es w ∧ t = .ofList es := by
  have hseen : Seen ⟨.closed, t⟩ w := Seen.read (.start isBlankText_nil) h
  cases hseen with
  | @closed es _ hes => exact ⟨es, hes, rfl⟩

end LoopProtocol
