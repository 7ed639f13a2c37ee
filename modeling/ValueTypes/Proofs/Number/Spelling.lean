import Mathlib.Data.List.Induction
import ValueTypes.Proofs.Number.Decimal

/-! The spellings of decimal numerals. A text is read as a numeral exactly if it is one of them, and
the double that it is read as is nearest to the number that the spelling writes, unless an exponent
that is not counted in full meets as many digits as it is large. -/

namespace ValueTypes

namespace Numeral

/-! ### Spellings -/

/-- A run of decimal digits. -/
structure Digits where
  chars : List Char
  isDigit : ∀ c ∈ chars, c.isDigit = true

def Digits.value (ds : Digits) : ℕ :=
  ofDigits ds.chars

def signChars : Option Bool → List Char
  | none => []
  | some false => ['+']
  | some true => ['-']

def applySign (sign : Option Bool) (n : ℕ) : ℤ :=
  if sign.getD false then -n else n

/-- An exponent: a mark, an optional sign and at least one digit. -/
structure Exponent where
  mark : Char
  sign : Option Bool
  digits : Digits
  isMark : mark = 'e' ∨ mark = 'E'
  nonempty : digits.chars ≠ []

namespace Exponent

def text (e : Exponent) : List Char :=
  e.mark :: (signChars e.sign ++ e.digits.chars)

def value (e : Exponent) : ℤ :=
  applySign e.sign e.digits.value

/-- The exponent as far as its digits are counted. -/
def counted (e : Exponent) : ℤ :=
  applySign e.sign (exponentOfDigits e.digits.chars)

end Exponent

/-- A decimal numeral as it is written: an optional sign, digits with an optional point, at least one
digit in all, and an optional exponent. -/
structure Spelling where
  sign : Option Bool
  whole : Digits
  fraction : Option Digits
  exponent : Option Exponent
  nonempty : whole.chars ++ fraction.elim [] Digits.chars ≠ []

namespace Spelling

/-- The digits behind the point. -/
def places (s : Spelling) : List Char :=
  s.fraction.elim [] Digits.chars

def exponentText (s : Spelling) : List Char :=
  s.exponent.elim [] Exponent.text

/-- What stands behind the digits in front of the point. -/
def tail (s : Spelling) : List Char :=
  s.fraction.elim [] (fun ds => '.' :: ds.chars) ++ s.exponentText

def text (s : Spelling) : List Char :=
  signChars s.sign ++ (s.whole.chars ++ s.tail)

def negative (s : Spelling) : Bool :=
  s.sign.getD false

/-- The number that a spelling writes, without its sign. -/
def magnitude (s : Spelling) : ℚ :=
  (s.whole.value + ofDigits s.places / (10 : ℚ) ^ s.places.length) *
    (10 : ℚ) ^ s.exponent.elim 0 Exponent.value

/-- The digits of a spelling with a given exponent. -/
def numeral (s : Spelling) (exponent : ℤ) : Numeral :=
  ⟨s.negative, ofDigits (s.whole.chars ++ s.places), exponent - s.places.length⟩

/-- The numeral that is read. -/
def counted (s : Spelling) : Numeral :=
  s.numeral (s.exponent.elim 0 Exponent.counted)

end Spelling

/-! ### Reading a spelling -/

theorem splitSign_append (sign : Option Bool) {cs : List Char}
    (h : ∀ c ∈ cs.head?, c ≠ '+' ∧ c ≠ '-') :
    splitSign (signChars sign ++ cs) = (sign.getD false, cs) := by
  cases sign with
  | some negative => cases negative <;> rfl
  | none =>
      change splitSign cs = _
      unfold splitSign
      split
      · exact absurd rfl (h '+' rfl).1
      · exact absurd rfl (h '-' rfl).2
      · rfl

theorem splitDigits_append {ds rest : List Char} (h : ∀ c ∈ ds, c.isDigit = true)
    (hrest : ∀ c ∈ rest.head?, c.isDigit = false) : splitDigits (ds ++ rest) = (ds, rest) := by
  have hstop : rest.takeWhile Char.isDigit = [] ∧ rest.dropWhile Char.isDigit = rest := by
    cases rest with
    | nil => exact ⟨rfl, rfl⟩
    | cons c rest =>
        have hc := hrest c rfl
        rw [List.takeWhile_cons, List.dropWhile_cons, hc]
        exact ⟨rfl, rfl⟩
  rw [splitDigits, List.takeWhile_append_of_pos h, List.dropWhile_append_of_pos h, hstop.1,
    hstop.2, List.append_nil]

theorem splitFraction_of_head {cs : List Char} (h : ∀ c ∈ cs.head?, c ≠ '.') :
    splitFraction cs = ([], cs) := by
  unfold splitFraction
  split
  · exact absurd rfl (h '.' rfl)
  · rfl

theorem ne_sign_of_isDigit {c : Char} (h : c.isDigit = true) : c ≠ '+' ∧ c ≠ '-' := by
  constructor <;> rintro rfl <;> exact absurd h (by decide)

theorem head?_isDigit {ds : List Char} (h : ∀ c ∈ ds, c.isDigit = true) :
    ∀ c ∈ ds.head?, c.isDigit = true := by
  intro c hc
  exact h c (List.mem_of_mem_head? hc)

namespace Exponent

theorem splitSign_text (e : Exponent) :
    splitSign (signChars e.sign ++ e.digits.chars) = (e.sign.getD false, e.digits.chars) :=
  splitSign_append e.sign fun c hc => ne_sign_of_isDigit (head?_isDigit e.digits.isDigit c hc)

theorem exponent?_text (e : Exponent) : exponent? e.text = some e.counted := by
  have hdigits : splitDigits e.digits.chars = (e.digits.chars, []) := by
    have happend : splitDigits (e.digits.chars ++ []) = (e.digits.chars, []) :=
      splitDigits_append e.digits.isDigit nofun
    rwa [List.append_nil] at happend
  rw [text, exponent?, e.splitSign_text]
  dsimp only
  rw [hdigits, if_pos ⟨e.isMark, e.nonempty, rfl⟩]
  rfl

/-- The exponent that a text writes is one only. -/
theorem value_eq_of_text {e e' : Exponent} (h : e.text = e'.text) : e.value = e'.value := by
  have hsplit := e'.splitSign_text
  rw [← (List.cons.inj h).2, e.splitSign_text, Prod.mk.injEq] at hsplit
  rw [value, value, applySign, applySign, Digits.value, Digits.value, hsplit.1, hsplit.2]

end Exponent

namespace Spelling

theorem head?_exponentText (s : Spelling) :
    ∀ c ∈ s.exponentText.head?, c.isDigit = false ∧ c ≠ '.' := by
  rw [exponentText]
  cases s.exponent with
  | none => nofun
  | some e =>
      rintro c hc
      cases hc
      rcases e.isMark with hmark | hmark <;> rw [hmark] <;> exact ⟨by decide, by decide⟩

theorem head?_tail (s : Spelling) : ∀ c ∈ s.tail.head?, c.isDigit = false := by
  rw [tail]
  cases s.fraction with
  | none => exact fun c hc => (s.head?_exponentText c hc).1
  | some ds =>
      rintro c hc
      cases hc
      decide

theorem head?_body (s : Spelling) :
    ∀ c ∈ (s.whole.chars ++ s.tail).head?, c ≠ '+' ∧ c ≠ '-' := by
  intro c hc
  have hnonempty := s.nonempty
  cases hwhole : s.whole.chars with
  | cons d ds =>
      rw [hwhole] at hc
      cases hc
      exact ne_sign_of_isDigit (s.whole.isDigit c (by rw [hwhole]; exact List.mem_cons_self))
  | nil =>
      rw [hwhole] at hc hnonempty
      rw [tail] at hc
      cases hfraction : s.fraction with
      | none =>
          rw [hfraction] at hnonempty
          exact absurd rfl hnonempty
      | some ds =>
          rw [hfraction] at hc
          cases hc
          exact ⟨by decide, by decide⟩

theorem splitSign_text (s : Spelling) :
    splitSign s.text = (s.negative, s.whole.chars ++ s.tail) :=
  splitSign_append s.sign s.head?_body

theorem splitDigits_body (s : Spelling) :
    splitDigits (s.whole.chars ++ s.tail) = (s.whole.chars, s.tail) :=
  splitDigits_append s.whole.isDigit s.head?_tail

theorem splitFraction_tail (s : Spelling) : splitFraction s.tail = (s.places, s.exponentText) := by
  rw [tail, places]
  cases s.fraction with
  | some ds => exact splitDigits_append ds.isDigit fun c hc => (s.head?_exponentText c hc).1
  | none =>
      rw [Option.elim_none, Option.elim_none, List.nil_append]
      exact splitFraction_of_head fun c hc => (s.head?_exponentText c hc).2

/-- A spelling is read, as the numeral that it counts to. -/
theorem parse?_text (s : Spelling) : parse? s.text = some s.counted := by
  have hexponent : exponent? s.exponentText = some (s.exponent.elim 0 Exponent.counted) := by
    rw [exponentText]
    cases s.exponent with
    | none => rfl
    | some e => exact e.exponent?_text
  have hnonempty : s.whole.chars ++ s.places ≠ [] := s.nonempty
  rw [parse?, s.splitSign_text]
  dsimp only
  rw [s.splitDigits_body]
  dsimp only
  rw [s.splitFraction_tail]
  dsimp only
  rw [if_neg hnonempty, hexponent]
  rfl

/-- The number that a text writes is one only. -/
theorem eq_of_text {s t : Spelling} (h : s.text = t.text) :
    s.negative = t.negative ∧ s.magnitude = t.magnitude := by
  have hsign := t.splitSign_text
  rw [← h, s.splitSign_text, Prod.mk.injEq] at hsign
  have hwhole := t.splitDigits_body
  rw [← hsign.2, s.splitDigits_body, Prod.mk.injEq] at hwhole
  have hplaces := t.splitFraction_tail
  rw [← hwhole.2, s.splitFraction_tail, Prod.mk.injEq] at hplaces
  have hexponent : s.exponent.elim 0 Exponent.value = t.exponent.elim 0 Exponent.value := by
    have htext := hplaces.2
    rw [exponentText, exponentText] at htext
    cases hs : s.exponent with
    | none =>
        cases ht : t.exponent with
        | none => rfl
        | some e =>
            rw [hs, ht] at htext
            cases htext
    | some e =>
        cases ht : t.exponent with
        | none =>
            rw [hs, ht] at htext
            cases htext
        | some e' =>
            rw [hs, ht] at htext
            exact Exponent.value_eq_of_text htext
  refine ⟨hsign.1, ?_⟩
  rw [magnitude, magnitude, hexponent, hplaces.1, Digits.value, Digits.value, hwhole.1]

end Spelling

/-! ### Spellings of what is read -/

theorem exists_sign (cs : List Char) :
    ∃ sign, cs = signChars sign ++ (splitSign cs).2 ∧ (splitSign cs).1 = sign.getD false := by
  unfold splitSign
  split
  · exact ⟨some false, rfl, rfl⟩
  · exact ⟨some true, rfl, rfl⟩
  · exact ⟨none, rfl, rfl⟩

theorem exists_digits (cs : List Char) :
    ∃ ds : Digits, ds.chars = (splitDigits cs).1 ∧ cs = ds.chars ++ (splitDigits cs).2 := by
  have hall : ∀ c ∈ cs.takeWhile Char.isDigit, c.isDigit = true :=
    List.all_eq_true.mp List.all_takeWhile
  exact ⟨⟨_, hall⟩, rfl, List.takeWhile_append_dropWhile.symm⟩

theorem exists_fraction (cs : List Char) :
    ∃ fraction : Option Digits, fraction.elim [] Digits.chars = (splitFraction cs).1 ∧
      cs = fraction.elim [] (fun ds => '.' :: ds.chars) ++ (splitFraction cs).2 := by
  unfold splitFraction
  split
  · rename_i rest
    obtain ⟨ds, hchars, hrest⟩ := exists_digits rest
    exact ⟨some ds, hchars, congrArg (List.cons '.') hrest⟩
  · exact ⟨none, rfl, rfl⟩

theorem exists_exponent {cs : List Char} {p : ℤ} (h : exponent? cs = some p) :
    ∃ exponent : Option Exponent, exponent.elim [] Exponent.text = cs ∧
      exponent.elim 0 Exponent.counted = p := by
  cases cs with
  | nil =>
      cases h
      exact ⟨none, rfl, rfl⟩
  | cons mark rest =>
      rw [exponent?] at h
      obtain ⟨sign, hrest, hsign⟩ := exists_sign rest
      obtain ⟨ds, hchars, hdigits⟩ := exists_digits (splitSign rest).2
      split at h
      · rename_i hparts
        obtain ⟨hmark, hne, hend⟩ := hparts
        rw [← hchars] at h hne
        rw [hend, List.append_nil] at hdigits
        rw [hdigits] at hrest
        refine ⟨some ⟨mark, sign, ds, hmark, hne⟩, congrArg (List.cons mark) hrest.symm, ?_⟩
        rw [hsign] at h
        exact Option.some.inj h
      · cases h

/-- A text is read as a numeral exactly if it is a spelling of one. -/
theorem parse?_eq_some_iff {cs : List Char} {n : Numeral} :
    parse? cs = some n ↔ ∃ s : Spelling, s.text = cs ∧ s.counted = n := by
  constructor
  · intro h
    rw [parse?] at h
    split at h
    · cases h
    · rename_i hne
      obtain ⟨p, hp, rfl⟩ := Option.map_eq_some_iff.mp h
      obtain ⟨sign, hcs, hsign⟩ := exists_sign cs
      obtain ⟨whole, hwhole, hbody⟩ := exists_digits (splitSign cs).2
      obtain ⟨fraction, hfraction, htail⟩ := exists_fraction (splitDigits (splitSign cs).2).2
      obtain ⟨exponent, hexponent, rfl⟩ := exists_exponent hp
      rw [← hwhole, ← hfraction] at hne
      refine ⟨⟨sign, whole, fraction, exponent, hne⟩, ?_, ?_⟩
      · rw [Spelling.text, Spelling.tail, Spelling.exponentText, hexponent, ← htail, ← hbody, ← hcs]
      · rw [← hwhole, ← hfraction, hsign]
        rfl
  · rintro ⟨s, rfl, rfl⟩
    exact s.parse?_text

/-! ### What is read -/

theorem ofDigits_append (cs ds : List Char) :
    ofDigits (cs ++ ds) = 10 ^ ds.length * ofDigits cs + ofDigits ds := by
  rw [ofDigits, Nat.ofDigitChars_append, Nat.ofDigitChars_eq_ofDigitChars_zero]
  rfl

theorem ofDigits_lt {ds : List Char} (h : ∀ c ∈ ds, c.isDigit = true) :
    ofDigits ds < 10 ^ ds.length := by
  induction ds with
  | nil => exact Nat.one_pos
  | cons c ds ih =>
      have hrest := ih fun d hd => h d (List.mem_cons_of_mem c hd)
      have hdigit : c.toNat - '0'.toNat ≤ 9 := by
        have hc := h c List.mem_cons_self
        rw [Char.isDigit, Bool.and_eq_true, decide_eq_true_iff, decide_eq_true_iff] at hc
        exact Nat.sub_le_of_le_add hc.2
      have hsplit : ofDigits (c :: ds) = 10 ^ ds.length * (c.toNat - '0'.toNat) + ofDigits ds := by
        rw [ofDigits, Nat.ofDigitChars_cons, Nat.ofDigitChars_eq_ofDigitChars_zero, Nat.mul_zero,
          Nat.zero_add]
        rfl
      rw [hsplit, List.length_cons, Nat.pow_succ]
      have hle := Nat.mul_le_mul_left (10 ^ ds.length) hdigit
      omega

theorem Spelling.magnitude_numeral (s : Spelling) :
    (s.numeral (s.exponent.elim 0 Exponent.value)).magnitude = s.magnitude := by
  have hten : (10 : ℚ) ≠ 0 := by norm_num
  rw [Numeral.magnitude, numeral, Spelling.magnitude, ofDigits_append, zpow_sub₀ hten,
    zpow_natCast, Digits.value]
  push_cast
  field_simp

theorem exponentOfDigits_concat (cs : List Char) (c : Char) :
    exponentOfDigits (cs ++ [c]) =
      if exponentOfDigits cs < 0x10000 then 10 * exponentOfDigits cs + (c.toNat - '0'.toNat)
      else exponentOfDigits cs :=
  List.foldl_concat _ _ _ _

/-- Where the count of an exponent has stopped, the exponent has outgrown it. -/
theorem exponentOfDigits_eq_or (cs : List Char) :
    exponentOfDigits cs = ofDigits cs ∨
      0x10000 ≤ exponentOfDigits cs ∧ 10 * 0x10000 ≤ ofDigits cs := by
  induction cs using List.reverseRecOn with
  | nil => exact .inl rfl
  | append_singleton cs c ih =>
      have hdigit : ofDigits (cs ++ [c]) = 10 * ofDigits cs + (c.toNat - '0'.toNat) := by
        rw [ofDigits, Nat.ofDigitChars_append]
        rfl
      rw [exponentOfDigits_concat, hdigit]
      rcases ih with heq | ⟨hcounted, hexact⟩
      · rw [heq]
        split
        · exact .inl rfl
        · exact .inr ⟨by omega, by omega⟩
      · rw [if_neg (by omega)]
        exact .inr ⟨hcounted, by omega⟩

namespace Spelling

/-- Whether the exponent of a spelling is counted in full, or has more weight than the digits. -/
def Moderate (s : Spelling) : Prop :=
  (∀ e ∈ s.exponent, e.digits.value < 10 * 0x10000) ∨ (s.whole.chars ++ s.places).length ≤ 65000

/-- The exponents of all but very long texts do. -/
theorem moderate_of_length_text {s : Spelling} (h : s.text.length ≤ 65000) : s.Moderate := by
  have hplaces : s.places.length ≤ s.tail.length := by
    rw [places, tail]
    cases s.fraction with
    | none => exact Nat.zero_le _
    | some ds =>
        rw [Option.elim_some, Option.elim_some, List.length_append, List.length_cons]
        omega
  refine .inr ?_
  rw [text, List.length_append, List.length_append] at h
  rw [List.length_append]
  omega

theorem isDigit_places (s : Spelling) : ∀ c ∈ s.places, c.isDigit = true := by
  rw [places]
  cases s.fraction with
  | none => exact List.forall_mem_nil _
  | some ds => exact ds.isDigit

theorem length_toDigits_le (s : Spelling) :
    (Nat.toDigits 10 (ofDigits (s.whole.chars ++ s.places))).length ≤
      (s.whole.chars ++ s.places).length := by
  refine (Nat.length_toDigits_le_iff (by decide) (List.length_pos_iff.mpr s.nonempty)).mpr ?_
  exact ofDigits_lt (List.forall_mem_append.mpr ⟨s.whole.isDigit, s.isDigit_places⟩)

/-- The double that a spelling is read as is nearest to the number that it writes. -/
theorem counted_nearest {s : Spelling} (h : s.Moderate) :
    Double.Nearest s.negative s.magnitude s.counted.toDouble := by
  rw [← s.magnitude_numeral]
  cases hexponent : s.exponent with
  | none =>
      rw [counted, hexponent]
      exact toDouble_nearest (s.numeral 0)
  | some e =>
      rw [counted, hexponent, Option.elim_some, Option.elim_some]
      rcases exponentOfDigits_eq_or e.digits.chars with heq | ⟨hcounted, hexact⟩
      · have hvalue : e.counted = e.value := by rw [Exponent.counted, heq]; rfl
        rw [hvalue]
        exact toDouble_nearest (s.numeral e.value)
      · have hlength : (s.whole.chars ++ s.places).length ≤ 65000 := by
          rcases h with hsmall | hlength
          · exact absurd (hsmall e hexponent) (Nat.not_lt.mpr hexact)
          · exact hlength
        refine toDouble_nearest_of_size (n := s.numeral e.value) rfl rfl ?_
        have hdigits := s.length_toDigits_le
        have hpos : 0 < (Nat.toDigits 10 (ofDigits (s.whole.chars ++ s.places))).length :=
          Nat.length_toDigits_pos
        have hplaces : s.places.length ≤ (s.whole.chars ++ s.places).length := by
          rw [List.length_append]
          omega
        rw [size, size, numeral, numeral]
        dsimp only
        rw [Exponent.counted, Exponent.value, applySign, applySign, Digits.value]
        split <;> omega

end Spelling

end Numeral

end ValueTypes
