import ValueTypes.Proofs.Number.Printing
import ValueTypes.Proofs.Primitive.Integers
import ValueTypes.Proofs.Primitive.Text
import ValueTypes.Proofs.Value.Like

/-! Numbers survive the way through text. Of a printer it is asked that it writes integers in full,
and doubles in decimal numerals that are parsed as the same double. Then what is printed for a number
is read back as that number, but for the sign of zero, and a number and its text convert alike to
every numeric kind. Printing by shortest decimals is of this kind. -/

namespace ValueTypes

attribute [local instance (2000)] instPowNat

open Numeral (Spelling)

/-! ### Reading what is spelled -/

namespace Text

theorem dropWhile_isBlank {cs : List Char} (h : ∀ c ∈ cs, isBlank c = false) :
    cs.dropWhile isBlank = cs := by
  cases cs with
  | nil => rfl
  | cons c cs => rw [List.dropWhile_cons, h c (List.mem_cons_self ..), if_neg Bool.false_ne_true]

theorem trim_eq_self {cs : List Char} (h : ∀ c ∈ cs, isBlank c = false) : trim cs = cs := by
  rw [trim, dropWhile_isBlank h, dropWhile_isBlank, List.reverse_reverse]
  intro c hc
  exact h c (List.mem_reverse.mp hc)

/-- A text in the characters of decimal numerals passes by blanks, radix marks, words and the filter
of letters, and is read as it is parsed. -/
theorem ofText_of_parse? {text : String} (hchars : ∀ c ∈ text.toList, NumeralChar c) {f : Double}
    (h : Double.parse? text.toList = some f) : Double.ofText text = f := by
  have htrim : trim text.toList = text.toList :=
    trim_eq_self fun c hc => (hchars c hc).isBlank_eq
  have hempty : text.toList ≠ [] := by
    intro hempty
    rw [hempty] at h
    cases h
  rw [ofText_decimal (by rwa [htrim]) (by rw [htrim, splitRadix?_eq_none hchars])
    (by rw [htrim, infinityOfWord?_eq_none hchars]), htrim, ← Double.filter_parse?,
    any_isForeignLetter hchars, h]
  rfl

/-- A spelling is read as the double nearest to the number that it writes. -/
theorem nearest_ofText (s : Spelling) (h : s.Moderate) :
    Double.Nearest s.negative s.magnitude (.ofText (String.ofList s.text)) := by
  have hread : Double.ofText (String.ofList s.text) = s.counted.toDouble := by
    apply ofText_of_parse?
    · rw [String.toList_ofList]
      exact s.numeralChar
    · rw [String.toList_ofList, Double.parse?, s.parse?_text]
  rw [hread]
  exact Spelling.counted_nearest h

end Text

/-! ### Reading what is printed -/

/-- What is asked of a way to print: integers in full, and doubles in the characters of decimal
numerals, such that they are parsed as they were. -/
structure Printer.Faithful (printer : Printer) : Prop where
  integer : ∀ i, printer.integer i = toString i
  numeralChar : ∀ negative a, a.units ≠ 0 →
    ∀ c ∈ (printer.finite negative a).toList, NumeralChar c
  parse : ∀ negative a, a.units ≠ 0 →
    Double.parse? (printer.finite negative a).toList = some (.finite negative a)

namespace Double

theorem ofText_toString (i : ℤ) : ofText (toString i) = ofInt i := by
  have hmoderate : (wholeSpelling (minus (decide (i < 0))) i.natAbs).Moderate := by
    left
    rintro e ⟨⟩
  have hnearest := Text.nearest_ofText _ hmoderate
  have hsign : (wholeSpelling (minus (decide (i < 0))) i.natAbs).negative = decide (i < 0) :=
    getD_minus _
  rw [text_wholeSpelling, ← toList_toString_int, String.ofList_toList, magnitude_wholeSpelling,
    hsign] at hnearest
  exact hnearest.unique (nearest_whole _ _)

/-- An integer is the double of its sign and its magnitude, and zero has no sign. -/
theorem ofInt_signed (negative : Bool) (n : ℕ) :
    ofInt (if negative then -(n : ℤ) else n) = nearest (negative && decide (n ≠ 0)) n 1 := by
  have hsign : decide ((if negative then -(n : ℤ) else n) < 0) = (negative && decide (n ≠ 0)) := by
    cases negative with
    | false => simp
    | true => simp [Nat.pos_iff_ne_zero]
  have habs : (if negative then -(n : ℤ) else n).natAbs = n := by
    cases negative <;> simp
  rw [ofInt, hsign, habs]

variable {printer : Printer}

/-- A finite double is read back from its text. Only zero loses its sign. -/
theorem ofText_textWith_finite (hprinter : printer.Faithful) (negative : Bool)
    (a : Magnitude binary64) :
    ofText ((finite negative a).textWith printer) =
      finite (negative && decide (a.units ≠ 0)) a := by
  rw [textWith]
  split
  · -- Printed as an integer, which has no sign if it is zero.
    rename_i hwhole
    have hunits : a.units / binary64.scale * binary64.scale = a.units :=
      Nat.div_mul_cancel (Nat.dvd_of_mod_eq_zero hwhole.1)
    have hzero : decide (a.units / binary64.scale ≠ 0) = decide (a.units ≠ 0) := by
      rw [decide_eq_decide, ← hunits, Nat.mul_div_cancel _ binary64.scale_pos, Nat.mul_ne_zero_iff,
        and_iff_left binary64.scale_pos.ne']
    dsimp only
    rw [hprinter.integer, ofText_toString, ofInt_signed, hzero]
    apply nearest_of_units _ a Nat.one_pos
    rw [hunits, Nat.mul_one]
  · -- Printed by itself, which zero never is.
    rename_i hother
    have hunits : a.units ≠ 0 := by
      intro hzero
      apply hother
      rw [hzero]
      exact ⟨Nat.zero_mod _, Nat.mul_pos (by decide) binary64.scale_pos⟩
    rw [decide_eq_true hunits, Bool.and_true]
    exact Text.ofText_of_parse? (hprinter.numeralChar negative a hunits)
      (hprinter.parse negative a hunits)

theorem ofText_textWith_nan : ofText (nan.textWith printer) = nan := by
  change ofText "NaN" = nan
  decide

theorem ofText_textWith_infinity (negative : Bool) :
    ofText ((infinity negative).textWith printer) = infinity negative := by
  change ofText (signed negative "Infinity".toList) = _
  cases negative <;> decide

/-- What is read back from the text of a double is not-a-number only if the double is, and equal to
the double otherwise. -/
theorem ofText_textWith (hprinter : printer.Faithful) (f : Double) :
    f = nan ∧ ofText (f.textWith printer) = nan ∨
      f.numEq (ofText (f.textWith printer)) = true := by
  cases f with
  | nan => exact .inl ⟨rfl, ofText_textWith_nan⟩
  | infinity negative =>
      right
      rw [ofText_textWith_infinity, numEq_self]
      intro h
      cases h
  | finite negative a =>
      right
      rw [ofText_textWith_finite hprinter, numEq_iff]
      right
      by_cases hunits : a.units = 0
      · refine ⟨0, ?_, ?_⟩ <;> cases negative <;> simp [units?, hunits]
      · rw [decide_eq_true hunits, Bool.and_true]
        cases negative with
        | false => exact ⟨_, rfl, rfl⟩
        | true => exact ⟨_, rfl, rfl⟩

/-- No text of a double is read as a negative zero. -/
theorem ofText_textWith_zero (hprinter : printer.Faithful) {f : Double}
    (h : (ofText (f.textWith printer)).numEq zero = true) :
    ofText (f.textWith printer) = zero := by
  cases f with
  | nan =>
      rw [ofText_textWith_nan] at h
      cases h
  | infinity negative =>
      rw [ofText_textWith_infinity, zero_eq] at h
      cases h
  | finite negative a =>
      rw [ofText_textWith_finite hprinter] at h ⊢
      rcases eq_or_zero_of_numEq h with heq | ⟨s, t, b, hleft, hright, hzero⟩
      · exact heq
      · cases hleft
        rw [zero_eq] at hright
        cases hright
        rw [zero_eq, decide_eq_false (not_not.mpr hzero), Bool.and_false]

end Double

/-! ### Shortest decimals -/

namespace Printer

/-- What is printed for a double is a spelling of its shortest decimal. -/
theorem exists_spells_shortest (negative : Bool) (a : Magnitude binary64) :
    ∃ s, (a.shortest .toEven).Spells (minus negative) (a.shortest .toEven).compact s ∧
      (shortest.finite negative a).toList = s.text := by
  obtain ⟨s, hs⟩ := (a.shortest .toEven).exists_compact (minus negative)
  refine ⟨s, hs, ?_⟩
  change (Double.signed negative _).toList = _
  rw [hs.text, Double.signed, String.toList_ofList]
  cases negative <;> rfl

/-- Integers in plain digits and doubles by shortest decimals are read back. -/
theorem shortest_faithful : shortest.Faithful where
  integer _ := rfl
  numeralChar negative a _ := by
    obtain ⟨s, _, htext⟩ := exists_spells_shortest negative a
    rw [htext]
    exact s.numeralChar
  parse negative a hunits := by
    obtain ⟨s, hs, htext⟩ := exists_spells_shortest negative a
    have hshortest := a.nearest_shortest .toEven negative
    have hsign : s.negative = negative := by
      rw [Spelling.negative, hs.sign, getD_minus]
    have hnearest := Spelling.counted_nearest (hs.moderate (Decimal.natAbs_point_le hunits hshortest))
    rw [hs.magnitude, hsign] at hnearest
    rw [htext, Double.parse?, s.parse?_text]
    dsimp only
    rw [hnearest.unique hshortest]

end Printer

/-! ### Conversion of numbers -/

namespace PrimitiveKind

variable {kind : PrimitiveKind}

theorem convert?_of_isNumeric (hkind : kind.isNumeric = true) (mode : CoercionMode) (v : Value) :
    kind.convert? mode v =
      if kind.isInteger then kind.toInteger? mode v else kind.toFloat? mode v := by
  cases kind with
  | string => cases hkind
  | boolean => cases hkind
  | symbol => cases hkind
  | _ => rfl

/-- A text converts as the double does that it is read as. -/
theorem convert?_str (hkind : kind.isNumeric = true) (text : String) :
    kind.convert? .lenient (.str text) = kind.convert? .lenient (.float (.ofText text)) := by
  have hnumber : numberOf? .lenient (.str text) = numberOf? .lenient (.float (.ofText text)) := rfl
  rw [convert?_of_isNumeric hkind, convert?_of_isNumeric hkind, toInteger?, toInteger?, toFloat?,
    toFloat?, hnumber]

/-- An integer that is a double converts as that double does. -/
theorem convert?_int (hkind : kind.isNumeric = true) (mode : CoercionMode) {i : ℤ}
    (h : (Double.ofInt i).toInt? = some i) :
    kind.convert? mode (.int i) = kind.convert? mode (.float (.ofInt i)) := by
  rw [convert?_of_isNumeric hkind, convert?_of_isNumeric hkind, toInteger?_int, toInteger?_float,
    toFloat?_int, toFloat?_float,
    kind.ofDouble?_eq_ofInt? mode (Double.toInt?_eq_some_iff_value?.mp h)]

theorem exists_convert?_float (hkind : kind.isNumeric = true) (f : Double) :
    ∃ x, kind.convert? .lenient (.float f) = some x := by
  cases kind with
  | string => cases hkind
  | boolean => cases hkind
  | symbol => cases hkind
  | _ => exact ⟨_, rfl⟩

end PrimitiveKind

/-! ### Numbers and their texts -/

namespace Value

/-- Whether a double is the number that a value holds. -/
inductive SameNumber : Value → Double → Prop where
  | int {i : ℤ} {g : Double} (h : g.toInt? = some i) : SameNumber (.int i) g
  | float {f g : Double} (h : f.numEq g = true) : SameNumber (.float f) g
  | nan : SameNumber (.float .nan) .nan

/-- The text of a number is read as that number, and as the positive zero if it is zero. -/
theorem exists_text {printer : Printer} (hprinter : printer.Faithful) {v : Value}
    (hnumber : v.isNumber = true) (hsmall : ∀ i, v = .int i → i.natAbs ≤ 2 ^ 53) :
    ∃ text, v.textWith? printer = some text ∧ v.SameNumber (.ofText text) ∧
      ((Double.ofText text).numEq .zero = true → Double.ofText text = .zero) := by
  cases v with
  | int i =>
      have hexact : (Double.ofInt i).toInt? = some i := Double.toInt?_ofInt (hsmall i rfl)
      refine ⟨toString i, congrArg some (hprinter.integer i), ?_, ?_⟩
      · rw [Double.ofText_toString]
        exact .int hexact
      · rw [Double.ofText_toString]
        intro hequal
        have hzero : Double.zero.toInt? = some 0 := Double.toInt?_ofInt (Nat.zero_le _)
        rw [Double.toInt?_eq_of_numEq hequal, hzero] at hexact
        cases hexact
        rfl
  | float f =>
      refine ⟨f.textWith printer, rfl, ?_, Double.ofText_textWith_zero hprinter⟩
      rcases Double.ofText_textWith hprinter f with ⟨rfl, hnan⟩ | hequal
      · rw [hnan]
        exact .nan
      · exact .float hequal
  | _ => cases hnumber

/-- No conversion tells the number from the value. -/
theorem SameNumber.exists_like {v : Value} {g : Double} (h : v.SameNumber g) :
    ∃ f, (Value.float g).Like (fun _ => False) (.float f) ∧
      ∀ kind : PrimitiveKind, kind.isNumeric = true →
        ∀ mode, kind.convert? mode v = kind.convert? mode (.float f) := by
  cases h with
  | @int i g h =>
      have hequal := Double.numEq_ofInt_of_toInt? h
      have hexact : (Double.ofInt i).toInt? = some i := by
        rw [Double.toInt?_eq_of_numEq hequal]
        exact h
      refine ⟨.ofInt i, .leaf (.float ?_), ?_⟩
      · rw [Double.numEq_comm]
        exact hequal
      · intro kind hkind mode
        exact PrimitiveKind.convert?_int hkind mode hexact
  | @float f g h =>
      rw [Double.numEq_comm] at h
      exact ⟨f, .leaf (.float h), fun _ _ _ => rfl⟩
  | nan => exact ⟨.nan, .nan, fun _ _ _ => rfl⟩

theorem Like.strictEquals_or {u v : Value} (h : u.Like (fun _ => False) v) :
    u.strictEquals v = true ∨ u = .float .nan ∧ v = .float .nan := by
  cases h with
  | leaf h => exact .inl h.strictEquals
  | nan => exact .inr ⟨rfl, rfl⟩
  | inst left => exact left.elim

end Value

namespace PrimitiveKind

/-- Whatever prints the text of a number, what is read from it is that number, with zero made
positive, and the number and its text convert alike to every numeric kind. -/
theorem number_through_printed {printer : Printer} (hprinter : printer.Faithful) {v : Value}
    (hnumber : v.isNumber = true) (hsmall : ∀ i, v = .int i → i.natAbs ≤ 2 ^ 53) (field : String) :
    ∃ text, v.textWith? printer = some text ∧
      (∃ g, float64.coerce .lenient field (.str text) = .ok (.float g) ∧ v.SameNumber g ∧
        (g.numEq .zero = true → g = .zero)) ∧
      ∀ kind : PrimitiveKind, kind.isNumeric = true →
        ∃ x y, kind.coerce .lenient field (.str text) = .ok x ∧
          kind.coerce .lenient field v = .ok y ∧
          (x.strictEquals y = true ∨ x = .float .nan ∧ y = .float .nan) := by
  obtain ⟨text, htext, hsame, hzero⟩ := Value.exists_text hprinter hnumber hsmall
  obtain ⟨f, hlike, hconvert⟩ := hsame.exists_like
  refine ⟨text, htext, ⟨.ofText text, coerce_float64_str field text, hsame, hzero⟩, ?_⟩
  intro kind hkind
  obtain ⟨x, hx⟩ := exists_convert?_float hkind (.ofText text)
  have hrel := hlike.convert? kind .lenient
  obtain ⟨y, hy, hxy⟩ := exists_of_rel_left hrel hx
  rw [← convert?_str hkind] at hx
  rw [← hconvert kind hkind] at hy
  exact ⟨x, y, coerce_of_convert? hx field, coerce_of_convert? hy field, hxy.strictEquals_or⟩

/-- Numbers survive the way through text. What is read from the text of a number is that number,
with zero made positive, and the number and its text convert alike to every numeric kind. -/
theorem number_through_text {v : Value} (hnumber : v.isNumber = true)
    (hsmall : ∀ i, v = .int i → i.natAbs ≤ 2 ^ 53) (field : String) :
    ∃ text, v.text? = some text ∧ string.coerce .lenient field v = .ok (.str text) ∧
      (∃ g, float64.coerce .lenient field (.str text) = .ok (.float g) ∧ v.SameNumber g ∧
        (g.numEq .zero = true → g = .zero)) ∧
      ∀ kind : PrimitiveKind, kind.isNumeric = true →
        ∃ x y, kind.coerce .lenient field (.str text) = .ok x ∧
          kind.coerce .lenient field v = .ok y ∧
          (x.strictEquals y = true ∨ x = .float .nan ∧ y = .float .nan) := by
  obtain ⟨text, htext, hread, hconvert⟩ :=
    number_through_printed Printer.shortest_faithful hnumber hsmall field
  have hstring : string.convert? .lenient v = some (.str text) := by
    cases v with
    | int i => exact congrArg (Option.map Value.str) htext
    | float f => exact congrArg (Option.map Value.str) htext
    | _ => cases hnumber
  exact ⟨text, htext, coerce_of_convert? hstring field, hread, hconvert⟩

namespace Sample

/-- The negative double of least magnitude. -/
def leastNegative : Double :=
  .finite true ⟨1, 0, by decide⟩

/-- A double whose text has an exponent, and the least of the integers. -/
theorem number_through_text_least :
    string.coerce .lenient "x" (.float leastNegative) = .ok (.str "-5e-324") ∧
      float64.coerce .lenient "x" (.str "-5e-324") = .ok (.float leastNegative) ∧
      string.coerce .lenient "x" (.int (-9007199254740992)) = .ok (.str "-9007199254740992") ∧
      ∃ g, float64.coerce .lenient "x" (.str "-9007199254740992") = .ok (.float g) ∧
        g.toInt? = some (-9007199254740992) := by
  have hfloat : (Value.float leastNegative).text? = some "-5e-324" :=
    congrArg some (by decide +kernel)
  have hint : (Value.int (-9007199254740992)).text? = some "-9007199254740992" :=
    congrArg some (by decide +kernel)
  obtain ⟨text, htext, hstring, ⟨g, hread, hsame, -⟩, -⟩ :=
    number_through_text (v := .float leastNegative) rfl (by rintro i ⟨⟩) "x"
  obtain ⟨text', htext', hstring', ⟨g', hread', hsame', -⟩, -⟩ :=
    number_through_text (v := .int (-9007199254740992)) rfl (by rintro i ⟨⟩; decide) "x"
  cases htext.symm.trans hfloat
  cases htext'.symm.trans hint
  have hleast : leastNegative = g := by
    cases hsame with
    | float hequal =>
        rcases Double.eq_or_zero_of_numEq hequal with heq | ⟨s, t, a, hleft, _, hzero⟩
        · exact heq
        · cases hleft
          exact absurd hzero (by decide)
  rw [← hleast] at hread
  cases hsame' with
  | int hexact => exact ⟨hstring, hread, hstring', g', hread', hexact⟩

end Sample

end PrimitiveKind

end ValueTypes
