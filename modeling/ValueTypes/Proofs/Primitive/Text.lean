import Mathlib.Data.Nat.Digits.Defs
import ValueTypes.Coercion
import ValueTypes.Proofs.Number.Letters

/-! Text as a number. The rule says which texts write a number and which number that is; the double
is the nearest one, and all other texts are not-a-number. Conversion keeps the rule except behind a
radix mark, where digits are read as a 64-bit integer: a plus sign is let in, and numbers that do not
fit are lost. -/

namespace ValueTypes

open Numeral (Spelling)

/-! ### Digits of a radix -/

/-- Whether digits of a radix write a number, the most significant digit first. -/
def WritesInRadix (radix : ℕ) (cs : List Char) (n : ℕ) : Prop :=
  cs ≠ [] ∧ ∃ ds : List ℕ, cs.map digitValue? = ds.map some ∧ (∀ d ∈ ds, d < radix) ∧
    Nat.ofDigits radix ds.reverse = n

theorem ofRadixDigits?_concat (radix : ℕ) (cs : List Char) (c : Char) :
    ofRadixDigits? radix (cs ++ [c]) = (ofRadixDigits? radix cs).bind fun total =>
      (digitValue? c).bind fun d => if d < radix then some (total * radix + d) else none := by
  rw [ofRadixDigits?, List.foldlM_append]
  refine congrArg _ (funext fun total => ?_)
  rw [List.foldlM_cons]
  exact bind_pure _

theorem ofRadixDigits?_eq_some_iff {radix n : ℕ} {cs : List Char} :
    ofRadixDigits? radix cs = some n ↔
      ∃ ds : List ℕ, cs.map digitValue? = ds.map some ∧ (∀ d ∈ ds, d < radix) ∧
        Nat.ofDigits radix ds.reverse = n := by
  induction cs using List.reverseRecOn generalizing n with
  | nil =>
      constructor
      · intro h
        cases h
        exact ⟨[], rfl, List.forall_mem_nil _, rfl⟩
      · rintro ⟨ds, hds, _, rfl⟩
        rw [List.map_nil, eq_comm, List.map_eq_nil_iff] at hds
        rw [hds]
        rfl
  | append_singleton cs c ih =>
      rw [ofRadixDigits?_concat]
      constructor
      · intro h
        obtain ⟨total, htotal, h⟩ := Option.bind_eq_some_iff.mp h
        obtain ⟨d, hd, h⟩ := Option.bind_eq_some_iff.mp h
        obtain ⟨ds, hds, hlt, hvalue⟩ := ih.mp htotal
        split at h
        · rename_i hdigit
          cases h
          refine ⟨ds ++ [d], ?_, ?_, ?_⟩
          · rw [List.map_append, List.map_append, hds, List.map_singleton, hd, List.map_singleton]
          · exact List.forall_mem_append.mpr ⟨hlt, List.forall_mem_singleton.mpr hdigit⟩
          · rw [List.reverse_append, List.reverse_singleton, List.singleton_append,
              Nat.ofDigits_cons, hvalue, Nat.mul_comm, Nat.add_comm]
        · cases h
      · rintro ⟨ds, hds, hlt, rfl⟩
        rw [List.map_append, List.map_singleton, List.append_eq_map_iff] at hds
        obtain ⟨ds, last, rfl, hinit, hlast⟩ := hds
        obtain ⟨d, rfl, hd⟩ := List.map_eq_singleton_iff.mp hlast
        obtain ⟨hlt, hdigit⟩ := List.forall_mem_append.mp hlt
        rw [ih.mpr ⟨ds, hinit.symm, hlt, rfl⟩, Option.bind_some, ← hd, Option.bind_some,
          if_pos (List.forall_mem_singleton.mp hdigit), List.reverse_append, List.reverse_singleton,
          List.singleton_append, Nat.ofDigits_cons, Nat.mul_comm, Nat.add_comm]

theorem writesInRadix_iff {radix n : ℕ} {cs : List Char} :
    WritesInRadix radix cs n ↔ cs ≠ [] ∧ ofRadixDigits? radix cs = some n := by
  rw [WritesInRadix, ofRadixDigits?_eq_some_iff]

/-- Digits write one number only. -/
theorem WritesInRadix.unique {radix m n : ℕ} {cs : List Char} (hm : WritesInRadix radix cs m)
    (hn : WritesInRadix radix cs n) : m = n :=
  Option.some.inj ((writesInRadix_iff.mp hm).2.symm.trans (writesInRadix_iff.mp hn).2)

/-- A plus sign is not a digit. -/
theorem not_writesInRadix_plus {radix n : ℕ} {cs : List Char} :
    ¬ WritesInRadix radix ('+' :: cs) n := by
  rintro ⟨_, ds, hds, _⟩
  cases ds with
  | nil => cases hds
  | cons d ds =>
      have hdigit : digitValue? '+' = some d := (List.cons.inj hds).1
      cases hdigit

/-- What is read behind a radix mark: digits, or digits behind a plus sign, of a number that fits
into 64 bits. -/
theorem ofRadix?_eq_some_iff {radix n : ℕ} {cs : List Char} :
    ofRadix? radix cs = some n ↔ n < UInt64.size ∧
      (WritesInRadix radix cs n ∨ ∃ digits, cs = '+' :: digits ∧ WritesInRadix radix digits n) := by
  have hread : ∀ digits : List Char, (if digits = [] then none
      else (ofRadixDigits? radix digits).filter fun n => decide (n < UInt64.size)) = some n ↔
        n < UInt64.size ∧ WritesInRadix radix digits n := by
    intro digits
    rw [writesInRadix_iff]
    split
    · rename_i hempty
      exact iff_of_false nofun fun h => h.2.1 hempty
    · rename_i hne
      rw [Option.filter_eq_some_iff, decide_eq_true_iff]
      exact ⟨fun h => ⟨h.2, hne, h.1⟩, fun h => ⟨h.2.2, h.1⟩⟩
  by_cases hplus : ∃ digits, cs = '+' :: digits
  · obtain ⟨digits, rfl⟩ := hplus
    refine (hread digits).trans (and_congr_right fun _ => ⟨fun h => .inr ⟨digits, rfl, h⟩, ?_⟩)
    rintro (h | ⟨_, heq, h⟩)
    · exact absurd h not_writesInRadix_plus
    · cases heq
      exact h
  · have hself : ofRadix? radix cs = if cs = [] then none
        else (ofRadixDigits? radix cs).filter fun n => decide (n < UInt64.size) := by
      unfold ofRadix?
      extract_lets digits
      have hdigits : digits = cs := by
        unfold digits
        split
        · exact absurd ⟨_, rfl⟩ hplus
        · rfl
      simp only [hdigits]
    rw [hself, hread cs]
    refine and_congr_right fun _ => ⟨.inl, ?_⟩
    rintro (h | ⟨digits, heq, _⟩)
    · exact h
    · exact absurd ⟨digits, heq⟩ hplus

/-! ### The rule -/

namespace Text

/-- Whether a text is what is left of another one without the blanks at its ends. -/
structure Trims (text cs : List Char) : Prop where
  blanks : ∃ front back, text = front ++ cs ++ back ∧
    (∀ c ∈ front, isBlank c = true) ∧ ∀ c ∈ back, isBlank c = true
  head : ∀ c ∈ cs.head?, isBlank c = false
  last : ∀ c ∈ cs.getLast?, isBlank c = false

/-- The numbers that texts without blanks at their ends write. -/
inductive Writes : List Char → Double → Prop where
  | blank {f} (zero : f = .zero) : Writes [] f
  | infinity {cs} (word : cs = "Infinity".toList ∨ cs = "+Infinity".toList) :
      Writes cs (.infinity false)
  | negativeInfinity {cs} (word : cs = "-Infinity".toList) : Writes cs (.infinity true)
  | radix {mark radix digits n f} (hmark : radixOfMark? mark = some radix)
      (hdigits : WritesInRadix radix digits n) (hf : Double.Nearest false n f) :
      Writes ('0' :: mark :: digits) f
  | decimal {cs f} (s : Spelling) (text : s.text = cs)
      (hf : Double.Nearest s.negative s.magnitude f) : Writes cs f

/-- Whether a double is what a text stands for: the number that it writes, or not-a-number if it
writes none. -/
def StandsFor (cs : List Char) (f : Double) : Prop :=
  Writes cs f ∨ f = .nan ∧ ∀ g, ¬ Writes cs g

/-- The texts that conversion reads against the rule. -/
inductive Misread : List Char → Prop where
  | sign {mark radix digits n} (hmark : radixOfMark? mark = some radix)
      (hdigits : WritesInRadix radix digits n) (hn : n < UInt64.size) :
      Misread ('0' :: mark :: '+' :: digits)
  | size {mark radix digits n} (hmark : radixOfMark? mark = some radix)
      (hdigits : WritesInRadix radix digits n) (hn : UInt64.size ≤ n) :
      Misread ('0' :: mark :: digits)

/-! #### One form at a time -/

theorem splitRadix?_eq_some_iff {cs digits : List Char} {radix : ℕ} :
    splitRadix? cs = some (radix, digits) ↔
      ∃ mark, cs = '0' :: mark :: digits ∧ radixOfMark? mark = some radix := by
  constructor
  · intro h
    unfold splitRadix? at h
    split at h
    · rename_i mark rest
      obtain ⟨r, hr, heq⟩ := Option.map_eq_some_iff.mp h
      cases heq
      exact ⟨mark, rfl, hr⟩
    · cases h
  · rintro ⟨mark, rfl, hmark⟩
    exact Option.map_eq_some_iff.mpr ⟨radix, hmark, rfl⟩

theorem splitRadix?_eq_none {cs : List Char} (h : ∀ c ∈ cs, NumeralChar c) :
    splitRadix? cs = none := by
  cases hsplit : splitRadix? cs with
  | none => rfl
  | some split =>
      obtain ⟨mark, rfl, hmark⟩ := splitRadix?_eq_some_iff.mp hsplit
      have hmem : mark ∈ '0' :: mark :: split.2 := List.mem_cons_of_mem _ (List.mem_cons_self ..)
      rw [(h mark hmem).radixOfMark?_eq] at hmark
      cases hmark

theorem splitRadix?_text (s : Spelling) : splitRadix? s.text = none :=
  splitRadix?_eq_none s.numeralChar

/-- A radix mark does not open a decimal numeral. -/
theorem text_ne_radix {mark : Char} {radix : ℕ} (hmark : radixOfMark? mark = some radix)
    (s : Spelling) (digits : List Char) : s.text ≠ '0' :: mark :: digits := by
  intro htext
  have hsplit := splitRadix?_text s
  rw [htext, splitRadix?_eq_some_iff.mpr ⟨mark, rfl, hmark⟩] at hsplit
  cases hsplit

theorem text_ne_nil (s : Spelling) : s.text ≠ [] := by
  intro htext
  have hparse := s.parse?_text
  rw [htext] at hparse
  cases hparse

theorem writes_nil_iff {f : Double} : Writes [] f ↔ f = .zero := by
  constructor
  · intro h
    cases h with
    | blank zero => exact zero
    | infinity word => rcases word with word | word <;> cases word
    | negativeInfinity word => cases word
    | decimal s text _ => exact absurd text (text_ne_nil s)
  · exact .blank

theorem writes_radix_iff {mark : Char} {radix : ℕ} (hmark : radixOfMark? mark = some radix)
    {digits : List Char} {f : Double} :
    Writes ('0' :: mark :: digits) f ↔
      ∃ n : ℕ, WritesInRadix radix digits n ∧ Double.Nearest false n f := by
  constructor
  · intro h
    cases h with
    | infinity word => rcases word with word | word <;> cases word
    | negativeInfinity word => cases word
    | radix hmark' hdigits hf =>
        cases Option.some.inj (hmark'.symm.trans hmark)
        exact ⟨_, hdigits, hf⟩
    | decimal s text _ => exact absurd text (text_ne_radix hmark s digits)
  · rintro ⟨n, hdigits, hf⟩
    exact .radix hmark hdigits hf

theorem infinityOfWord?_eq_some_iff {cs : List Char} {f : Double} :
    infinityOfWord? (String.ofList cs) = some f ↔
      (cs = "Infinity".toList ∨ cs = "+Infinity".toList) ∧ f = .infinity false ∨
        cs = "-Infinity".toList ∧ f = .infinity true := by
  have hspell : ∀ word : String, String.ofList cs = word ↔ cs = word.toList := by
    intro word
    rw [← String.toList_inj, String.toList_ofList]
  simp only [infinityOfWord?, hspell]
  split
  · rename_i hword
    have hnot : cs ≠ "-Infinity".toList := by
      rcases hword with rfl | rfl <;> decide
    rw [Option.some.injEq, eq_comm]
    exact ⟨fun h => .inl ⟨hword, h⟩, fun h => h.elim And.right fun h => absurd h.1 hnot⟩
  · rename_i hword
    split
    · rename_i hminus
      rw [Option.some.injEq, eq_comm]
      exact ⟨fun h => .inr ⟨hminus, h⟩, fun h => h.elim (fun h => absurd h.1 hword) And.right⟩
    · rename_i hminus
      exact iff_of_false nofun (not_or.mpr ⟨fun h => hword h.1, fun h => hminus h.1⟩)

/-- The words for the infinities have a letter that no decimal numeral has. -/
theorem infinityOfWord?_eq_none {cs : List Char} (h : ∀ c ∈ cs, NumeralChar c) :
    infinityOfWord? (String.ofList cs) = none := by
  cases hfound : infinityOfWord? (String.ofList cs) with
  | none => rfl
  | some f =>
      have hmem : 'I' ∈ cs := by
        rcases infinityOfWord?_eq_some_iff.mp hfound with ⟨rfl | rfl, _⟩ | ⟨rfl, _⟩ <;> decide
      have hforeign := (h 'I' hmem).isForeignLetter_eq
      cases hforeign

theorem infinityOfWord?_text (s : Spelling) : infinityOfWord? (String.ofList s.text) = none :=
  infinityOfWord?_eq_none s.numeralChar

theorem writes_word_iff {cs : List Char} {f g : Double}
    (hword : infinityOfWord? (String.ofList cs) = some f) : Writes cs g ↔ g = f := by
  have hcases := infinityOfWord?_eq_some_iff.mp hword
  constructor
  · intro h
    cases h with
    | blank => rcases hcases with ⟨word | word, _⟩ | ⟨word, _⟩ <;> cases word
    | infinity word =>
        rcases hcases with ⟨_, rfl⟩ | ⟨rfl, _⟩
        · rfl
        · exact absurd word (by decide)
    | negativeInfinity word =>
        rcases hcases with ⟨rfl | rfl, _⟩ | ⟨_, rfl⟩
        · exact absurd word (by decide)
        · exact absurd word (by decide)
        · rfl
    | radix => rcases hcases with ⟨word | word, _⟩ | ⟨word, _⟩ <;> cases word
    | decimal s text _ =>
        rw [← text, infinityOfWord?_text] at hword
        cases hword
  · rintro rfl
    rcases hcases with ⟨word, rfl⟩ | ⟨word, rfl⟩
    · exact .infinity word
    · exact .negativeInfinity word

theorem writes_decimal_iff {cs : List Char} {f : Double} (hempty : cs ≠ [])
    (hradix : splitRadix? cs = none) (hword : infinityOfWord? (String.ofList cs) = none) :
    Writes cs f ↔
      ∃ s : Spelling, s.text = cs ∧ Double.Nearest s.negative s.magnitude f := by
  constructor
  · intro h
    cases h with
    | blank => exact absurd rfl hempty
    | infinity word =>
        rw [infinityOfWord?_eq_some_iff.mpr (.inl ⟨word, rfl⟩)] at hword
        cases hword
    | negativeInfinity word =>
        rw [infinityOfWord?_eq_some_iff.mpr (.inr ⟨word, rfl⟩)] at hword
        cases hword
    | radix hmark =>
        rw [splitRadix?_eq_some_iff.mpr ⟨_, rfl, hmark⟩] at hradix
        cases hradix
    | decimal s text hf => exact ⟨s, text, hf⟩
  · rintro ⟨s, text, hf⟩
    exact .decimal s text hf

/-- A text writes one number only. -/
theorem Writes.unique {cs : List Char} {f g : Double} (hf : Writes cs f) (hg : Writes cs g) :
    f = g := by
  by_cases hempty : cs = []
  · subst hempty
    exact (writes_nil_iff.mp hf).trans (writes_nil_iff.mp hg).symm
  · cases hradix : splitRadix? cs with
    | some split =>
        obtain ⟨mark, rfl, hmark⟩ := splitRadix?_eq_some_iff.mp hradix
        obtain ⟨m, hm, hf⟩ := (writes_radix_iff hmark).mp hf
        obtain ⟨n, hn, hg⟩ := (writes_radix_iff hmark).mp hg
        cases hm.unique hn
        exact hf.unique hg
    | none =>
        cases hword : infinityOfWord? (String.ofList cs) with
        | some word => exact ((writes_word_iff hword).mp hf).trans ((writes_word_iff hword).mp hg).symm
        | none =>
            obtain ⟨s, hs, hf⟩ := (writes_decimal_iff hempty hradix hword).mp hf
            obtain ⟨t, ht, hg⟩ := (writes_decimal_iff hempty hradix hword).mp hg
            obtain ⟨hnegative, hmagnitude⟩ := Spelling.eq_of_text (hs.trans ht.symm)
            rw [hnegative, hmagnitude] at hf
            exact hf.unique hg

theorem Writes.ne_nan {cs : List Char} {f : Double} (h : Writes cs f) : f ≠ .nan := by
  rintro rfl
  cases h with
  | blank zero =>
      rw [Double.zero_eq] at zero
      cases zero
  | radix _ _ hf => cases hf
  | decimal _ _ hf => cases hf

/-- A text stands for one double only. -/
theorem StandsFor.unique {cs : List Char} {f g : Double} (hf : StandsFor cs f)
    (hg : StandsFor cs g) : f = g := by
  rcases hf with hf | ⟨rfl, hf⟩
  · rcases hg with hg | ⟨rfl, hg⟩
    · exact hf.unique hg
    · exact absurd hf (hg f)
  · rcases hg with hg | ⟨rfl, _⟩
    · exact absurd hg (hf g)
    · rfl

/-! #### What is read -/

theorem isBlank_head_dropWhile {cs : List Char} {c : Char}
    (h : c ∈ (cs.dropWhile isBlank).head?) : isBlank c = false := by
  have hhead := List.head?_dropWhile_not isBlank cs
  rwa [Option.mem_def.mp h] at hhead

theorem trims_trim (text : List Char) : Trims text (trim text) := by
  obtain ⟨rest, hrest⟩ : ∃ rest, rest = text.dropWhile isBlank := ⟨_, rfl⟩
  have htrim : trim text = (rest.reverse.dropWhile isBlank).reverse := by rw [trim, hrest]
  have hback : rest = trim text ++ (rest.reverse.takeWhile isBlank).reverse := by
    rw [htrim, ← List.reverse_append, List.takeWhile_append_dropWhile, List.reverse_reverse]
  refine ⟨⟨text.takeWhile isBlank, (rest.reverse.takeWhile isBlank).reverse, ?_, ?_, ?_⟩, ?_, ?_⟩
  · rw [List.append_assoc, ← hback, hrest, List.takeWhile_append_dropWhile]
  · exact List.all_eq_true.mp List.all_takeWhile
  · intro c hc
    exact List.all_eq_true.mp List.all_takeWhile c (List.mem_reverse.mp hc)
  · intro c hc
    have hhead : c ∈ rest.head? := by
      rw [hback]
      exact List.mem_head?_append_of_mem_head? hc
    rw [hrest] at hhead
    exact isBlank_head_dropWhile hhead
  · intro c hc
    rw [htrim, List.getLast?_reverse] at hc
    exact isBlank_head_dropWhile hc

theorem nearest_ofInt (n : ℕ) : Double.Nearest false n (.ofInt n) :=
  Double.nearest_whole false n

theorem ofText_nil {text : String} (h : trim text.toList = []) : Double.ofText text = .zero :=
  if_pos h

theorem ofText_radix {text : String} {mark : Char} {radix : ℕ} {digits : List Char}
    (h : trim text.toList = '0' :: mark :: digits) (hmark : radixOfMark? mark = some radix) :
    Double.ofText text = (ofRadix? radix digits).elim .nan fun n => .ofInt n := by
  rw [Double.ofText, h, splitRadix?, hmark]
  exact if_neg nofun

theorem ofText_word {text : String} {f : Double} (hempty : trim text.toList ≠ [])
    (hradix : splitRadix? (trim text.toList) = none)
    (hword : infinityOfWord? (String.ofList (trim text.toList)) = some f) :
    Double.ofText text = f := by
  rw [Double.ofText, hradix, hword]
  exact if_neg hempty

theorem ofText_decimal {text : String} (hempty : trim text.toList ≠ [])
    (hradix : splitRadix? (trim text.toList) = none)
    (hword : infinityOfWord? (String.ofList (trim text.toList)) = none) :
    Double.ofText text = (Numeral.parse? (trim text.toList)).elim .nan Numeral.toDouble := by
  rw [← Double.filter_parse?, Double.ofText, hradix, hword]
  exact if_neg hempty

/-- Conversion keeps the rule, but for the texts that it misreads. -/
theorem standsFor_ofText {text : String} (hread : ¬ Misread (trim text.toList))
    (hmoderate : ∀ s : Spelling, s.text = trim text.toList → s.Moderate) :
    StandsFor (trim text.toList) (.ofText text) := by
  by_cases hempty : trim text.toList = []
  · rw [ofText_nil hempty, hempty]
    exact .inl (.blank rfl)
  · cases hradix : splitRadix? (trim text.toList) with
    | some split =>
        obtain ⟨radix, digits⟩ := split
        obtain ⟨mark, htrim, hmark⟩ := splitRadix?_eq_some_iff.mp hradix
        rw [ofText_radix htrim hmark, htrim]
        rw [htrim] at hread
        cases hn : ofRadix? radix digits with
        | some n =>
            rw [Option.elim_some]
            obtain ⟨hlt, hdigits | ⟨digits, rfl, hdigits⟩⟩ := ofRadix?_eq_some_iff.mp hn
            · exact .inl (.radix hmark hdigits (nearest_ofInt n))
            · exact absurd (.sign hmark hdigits hlt) hread
        | none =>
            rw [Option.elim_none]
            refine .inr ⟨rfl, fun g hg => ?_⟩
            obtain ⟨n, hdigits, _⟩ := (writes_radix_iff hmark).mp hg
            rcases Nat.lt_or_ge n UInt64.size with hlt | hle
            · rw [ofRadix?_eq_some_iff.mpr ⟨hlt, .inl hdigits⟩] at hn
              cases hn
            · exact hread (.size hmark hdigits hle)
    | none =>
        cases hword : infinityOfWord? (String.ofList (trim text.toList)) with
        | some word =>
            rw [ofText_word hempty hradix hword]
            exact .inl ((writes_word_iff hword).mpr rfl)
        | none =>
            rw [ofText_decimal hempty hradix hword]
            cases hn : Numeral.parse? (trim text.toList) with
            | some n =>
                rw [Option.elim_some]
                obtain ⟨s, hs, rfl⟩ := Numeral.parse?_eq_some_iff.mp hn
                exact .inl (.decimal s hs (Spelling.counted_nearest (hmoderate s hs)))
            | none =>
                rw [Option.elim_none]
                refine .inr ⟨rfl, fun g hg => ?_⟩
                obtain ⟨s, hs, _⟩ := (writes_decimal_iff hempty hradix hword).mp hg
                rw [← hs, s.parse?_text] at hn
                cases hn

/-- What conversion gives for a text that it misreads is not what the text stands for. -/
theorem not_standsFor_ofText {text : String} (hread : Misread (trim text.toList)) :
    ¬ StandsFor (trim text.toList) (.ofText text) := by
  generalize htrim : trim text.toList = cs at hread
  cases hread with
  | @sign mark radix digits n hmark hdigits hn =>
      rw [ofText_radix htrim hmark, ofRadix?_eq_some_iff.mpr ⟨hn, .inr ⟨_, rfl, hdigits⟩⟩,
        Option.elim_some]
      rintro (h | ⟨hnan, _⟩)
      · obtain ⟨_, hplus, _⟩ := (writes_radix_iff hmark).mp h
        exact not_writesInRadix_plus hplus
      · have hnearest := nearest_ofInt n
        rw [hnan] at hnearest
        cases hnearest
  | @size mark radix digits n hmark hdigits hn =>
      have hnone : ofRadix? radix digits = none := by
        cases hm : ofRadix? radix digits with
        | none => rfl
        | some m =>
            obtain ⟨hlt, hm | ⟨_, rfl, _⟩⟩ := ofRadix?_eq_some_iff.mp hm
            · cases hm.unique hdigits
              exact absurd hn (Nat.not_le.mpr hlt)
            · exact absurd hdigits not_writesInRadix_plus
      rw [ofText_radix htrim hmark, hnone, Option.elim_none]
      rintro (h | ⟨_, h⟩)
      · exact h.ne_nan rfl
      · exact h _ (.radix hmark hdigits (nearest_ofInt n))

end Text

namespace PrimitiveKind

theorem coerce_float64_str (field text : String) :
    float64.coerce .lenient field (.str text) = .ok (.float (.ofText text)) := rfl

/-- Every text converts to a double: to what it stands for, once trimmed, but for misread texts and
exponents of very long texts. -/
theorem text_to_double (field text : String) :
    Text.Trims text.toList (Text.trim text.toList) ∧
      ∃ f, float64.coerce .lenient field (.str text) = .ok (.float f) ∧
        (Text.Misread (Text.trim text.toList) → ¬ Text.StandsFor (Text.trim text.toList) f) ∧
        (¬ Text.Misread (Text.trim text.toList) →
          (∀ s : Spelling, s.text = Text.trim text.toList → s.Moderate) →
            ∀ g, Text.StandsFor (Text.trim text.toList) g ↔ g = f) := by
  refine ⟨Text.trims_trim _, .ofText text, coerce_float64_str field text,
    Text.not_standsFor_ofText, ?_⟩
  intro hread hmoderate g
  have hself := Text.standsFor_ofText hread hmoderate
  constructor
  · intro h
    exact h.unique hself
  · rintro rfl
    exact hself

namespace Sample

/-- A sign behind a radix mark is let in, and a number of 65 bits is lost. -/
theorem text_to_double_radix :
    float64.coerce .lenient "x" (.str "0x+10") = .ok (.float (.ofInt 16)) ∧
      Text.StandsFor "0x+10".toList .nan ∧ ¬ Text.StandsFor "0x+10".toList (.ofInt 16) ∧
      float64.coerce .lenient "x" (.str "0x10000000000000000") = .ok (.float .nan) ∧
      Text.StandsFor "0x10000000000000000".toList (.ofInt 18446744073709551616) ∧
      ¬ Text.StandsFor "0x10000000000000000".toList .nan := by
  have hmark : radixOfMark? 'x' = some 16 := rfl
  have hplus : Text.StandsFor "0x+10".toList .nan := by
    refine .inr ⟨rfl, fun g hg => ?_⟩
    obtain ⟨_, hdigits, _⟩ := (Text.writes_radix_iff hmark).mp hg
    exact not_writesInRadix_plus hdigits
  have hsixteen : Double.ofText "0x+10" = .ofInt 16 := by
    have hread : ofRadix? 16 "+10".toList = some 16 := by decide
    have htrim : Text.trim "0x+10".toList = '0' :: 'x' :: "+10".toList := by decide
    rw [Text.ofText_radix htrim hmark, hread, Option.elim_some, Nat.cast_ofNat]
  have hnan : Double.ofText "0x10000000000000000" = .nan := by
    have hread : ofRadix? 16 "10000000000000000".toList = none := by rfl
    have htrim : Text.trim "0x10000000000000000".toList =
        '0' :: 'x' :: "10000000000000000".toList := by decide
    rw [Text.ofText_radix htrim hmark, hread, Option.elim_none]
  have hwrites : WritesInRadix 16 "10000000000000000".toList 18446744073709551616 :=
    writesInRadix_iff.mpr ⟨by decide, by rfl⟩
  have hlong : Text.Writes "0x10000000000000000".toList (.ofInt 18446744073709551616) :=
    .radix hmark hwrites (Text.nearest_ofInt 18446744073709551616)
  have hnumber : ∀ n : ℕ, Double.nan ≠ .ofInt n := by
    intro n hn
    have hnearest := Text.nearest_ofInt n
    rw [← hn] at hnearest
    cases hnearest
  rw [coerce_float64_str, coerce_float64_str, hsixteen, hnan]
  refine ⟨rfl, hplus, ?_, rfl, .inl hlong, ?_⟩
  · intro h
    exact hnumber 16 (hplus.unique h)
  · intro h
    exact hnumber 18446744073709551616 (h.unique (.inl hlong))

/-- A decimal numeral between blanks. -/
theorem text_to_double_decimal :
    ∃ f, float64.coerce .lenient "x" (.str " -12.5E1\n") = .ok (.float f) ∧
      ∀ g, Text.StandsFor "-12.5E1".toList g ↔ g = f := by
  obtain ⟨_, f, hcoerce, _, hstands⟩ := text_to_double "x" " -12.5E1\n"
  have htrim : Text.trim " -12.5E1\n".toList = "-12.5E1".toList := by decide
  rw [htrim] at hstands
  refine ⟨f, hcoerce, hstands ?_ ?_⟩
  · intro h
    cases h
  · intro s hs
    refine Spelling.moderate_of_length_text ?_
    rw [hs]
    decide

end Sample

end PrimitiveKind

end ValueTypes
