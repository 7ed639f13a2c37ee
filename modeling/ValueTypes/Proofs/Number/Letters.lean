import ValueTypes.Proofs.Number.Spelling

/-! The characters of decimal numerals: digits, signs, the point and the mark of an exponent. Blanks,
radix marks and the letters of words are not among them, so the filter of letters turns away every
word that the parser of floats knows, and no numeral. -/

namespace ValueTypes

/-! ### Characters -/

/-- The characters that decimal numerals are written in. -/
inductive NumeralChar : Char → Prop where
  | digit {c} (h : c.isDigit = true) : NumeralChar c
  | plus : NumeralChar '+'
  | minus : NumeralChar '-'
  | point : NumeralChar '.'
  | mark {c} (h : c = 'e' ∨ c = 'E') : NumeralChar c

namespace NumeralChar

variable {c : Char}

theorem digit_range (h : c.isDigit = true) : 48 ≤ c.toNat ∧ c.toNat ≤ 57 := by
  rw [Char.isDigit, Bool.and_eq_true, decide_eq_true_iff, decide_eq_true_iff] at h
  exact h

theorem isAlpha_of_isDigit (h : c.isDigit = true) : c.isAlpha = false := by
  have hrange := digit_range h
  have hupper : ¬ (65 ≤ c.toNat ∧ c.toNat ≤ 90) := by omega
  have hlower : ¬ 97 ≤ c.toNat := by omega
  exact Bool.or_eq_false_iff.mpr
    ⟨decide_eq_false hupper, Bool.and_eq_false_iff.mpr (.inl (decide_eq_false hlower))⟩

theorem isForeignLetter_eq (h : NumeralChar c) : isForeignLetter c = false := by
  cases h with
  | digit h =>
      rw [isForeignLetter, isAlpha_of_isDigit h]
      rfl
  | plus => rfl
  | minus => rfl
  | point => rfl
  | mark h => rcases h with rfl | rfl <;> rfl

theorem isBlank_eq (h : NumeralChar c) : Text.isBlank c = false := by
  cases h with
  | digit h =>
      have hrange := digit_range h
      simp only [Text.isBlank, Text.blankRanges, List.any_cons, List.any_nil, Bool.or_false,
        Bool.or_eq_false_iff, Bool.and_eq_false_imp, decide_eq_true_eq, decide_eq_false_iff_not,
        not_le]
      omega
  | plus => rfl
  | minus => rfl
  | point => rfl
  | mark h => rcases h with rfl | rfl <;> rfl

theorem radixOfMark?_eq (h : NumeralChar c) : radixOfMark? c = none := by
  cases h with
  | digit h =>
      have hmark : ∀ mark : Char, mark.isDigit = false → c ≠ mark := by
        rintro mark hmark rfl
        rw [h] at hmark
        cases hmark
      simp [radixOfMark?, hmark]
  | plus => rfl
  | minus => rfl
  | point => rfl
  | mark h => rcases h with rfl | rfl <;> rfl

end NumeralChar

namespace Numeral

theorem numeralChar_signChars (sign : Option Bool) : ∀ c ∈ signChars sign, NumeralChar c := by
  cases sign with
  | none => exact List.forall_mem_nil _
  | some negative =>
      cases negative with
      | false => exact List.forall_mem_singleton.mpr .plus
      | true => exact List.forall_mem_singleton.mpr .minus

theorem Digits.numeralChar (ds : Digits) : ∀ c ∈ ds.chars, NumeralChar c := by
  intro c hc
  exact .digit (ds.isDigit c hc)

theorem Exponent.numeralChar (e : Exponent) : ∀ c ∈ e.text, NumeralChar c := by
  rw [Exponent.text, List.forall_mem_cons, List.forall_mem_append]
  exact ⟨.mark e.isMark, numeralChar_signChars e.sign, e.digits.numeralChar⟩

theorem Spelling.numeralChar (s : Spelling) : ∀ c ∈ s.text, NumeralChar c := by
  have hfraction : ∀ c ∈ s.fraction.elim [] fun ds => '.' :: ds.chars, NumeralChar c := by
    cases s.fraction with
    | none => exact List.forall_mem_nil _
    | some ds => exact List.forall_mem_cons.mpr ⟨.point, ds.numeralChar⟩
  have hexponent : ∀ c ∈ s.exponentText, NumeralChar c := by
    rw [Spelling.exponentText]
    cases s.exponent with
    | none => exact List.forall_mem_nil _
    | some e => exact e.numeralChar
  rw [Spelling.text, Spelling.tail, List.forall_mem_append, List.forall_mem_append,
    List.forall_mem_append]
  exact ⟨numeralChar_signChars s.sign, s.whole.numeralChar, hfraction, hexponent⟩

/-- What is read as a numeral has no other characters. -/
theorem numeralChar_of_parse? {cs : List Char} {n : Numeral} (h : parse? cs = some n) :
    ∀ c ∈ cs, NumeralChar c := by
  rcases parse?_eq_some_iff.mp h with ⟨s, rfl, _⟩
  exact s.numeralChar

end Numeral

/-! ### The filter -/

theorem any_isForeignLetter {cs : List Char} (h : ∀ c ∈ cs, NumeralChar c) :
    cs.any isForeignLetter = false := by
  rw [List.any_eq_false]
  intro c hc
  rw [(h c hc).isForeignLetter_eq]
  exact Bool.false_ne_true

/-- Every word of the parser has this letter. -/
theorem isForeignLetter_of_toLower {c : Char} (h : c.toLower = 'n') : isForeignLetter c = true := by
  by_cases hupper : c.isUpper = true
  · have halpha : c.isAlpha = true := Bool.or_eq_true_iff.mpr (.inl hupper)
    have hsmall : c ≠ 'e' := by
      rintro rfl
      cases hupper
    have hlarge : c ≠ 'E' := by
      rintro rfl
      cases h
    simp [isForeignLetter, halpha, hsmall, hlarge]
  · have hsame : c.toLower = c := dif_neg fun h => hupper (decide_eq_true h)
    rw [hsame] at h
    rw [h]
    rfl

namespace Double

theorem ofWord?_eq_none {cs : List Char} (h : ∀ c ∈ cs, isForeignLetter c = false)
    (negative : Bool) : ofWord? negative cs = none := by
  have hword : ∀ word : String, 'n' ∈ word.toList → String.ofList (cs.map Char.toLower) ≠ word := by
    intro word hn heq
    rw [← heq, String.toList_ofList] at hn
    rcases List.mem_map.mp hn with ⟨c, hc, hlower⟩
    have hforeign := isForeignLetter_of_toLower hlower
    rw [h c hc] at hforeign
    cases hforeign
  rw [ofWord?, if_neg (not_or.mpr ⟨hword "inf" (by decide), hword "infinity" (by decide)⟩),
    if_neg (hword "nan" (by decide))]

/-- The filter turns away all words, and nothing that is read as a numeral. -/
theorem filter_parse? (cs : List Char) :
    (if cs.any isForeignLetter then nan else (parse? cs).getD nan) =
      (Numeral.parse? cs).elim nan Numeral.toDouble := by
  cases hn : Numeral.parse? cs with
  | some n =>
      rw [any_isForeignLetter (Numeral.numeralChar_of_parse? hn), parse?, hn]
      rfl
  | none =>
      by_cases hforeign : cs.any isForeignLetter = true
      · rw [if_pos hforeign]
        rfl
      · obtain ⟨sign, hcs, _⟩ := Numeral.exists_sign cs
        have hrest : ∀ c ∈ (Numeral.splitSign cs).2, isForeignLetter c = false := by
          intro c hc
          rw [Bool.not_eq_true, List.any_eq_false] at hforeign
          have hmem : c ∈ cs := by
            rw [hcs]
            exact List.mem_append_right _ hc
          exact Bool.eq_false_of_not_eq_true (hforeign c hmem)
        rw [if_neg hforeign, parse?, hn]
        dsimp only
        rw [ofWord?_eq_none hrest]
        rfl

end Double

end ValueTypes
