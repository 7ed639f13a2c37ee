import ValueTypes.Proofs.Value.Path

/-! Equality of the values that come about in a run. On instances it is deep structural equality.
On all values it is symmetric, and transitive but for two integers that round to one double. -/

namespace ValueTypes

variable {μ : Type}

theorem Value.exists_inst_of_strictEquals {i : Instance} {b : Value}
    (h : (Value.inst i).strictEquals b = true) : ∃ j, b = .inst j := by
  by_contra hnot
  rw [strictEquals_inst_left i fun j hj => hnot ⟨j, hj⟩] at h
  cases h

/-- The one way in which equality fails to be transitive. -/
theorem Realms.Sound.strictEquals_trans_iff {rs : Realms μ} (hrs : rs.Sound) {a b c : Value}
    (ha : rs.scope.Sound (.value a)) (hb : rs.scope.Sound (.value b))
    (hc : rs.scope.Sound (.value c)) (hab : a.strictEquals b = true)
    (hbc : b.strictEquals c = true) :
    a.strictEquals c = true ↔ ¬ ∃ i f j, a = .int i ∧ b = .float f ∧ c = .int j ∧ i ≠ j := by
  by_cases hinst : ∃ i, a = .inst i
  · rcases hinst with ⟨i, rfl⟩
    rcases Value.exists_inst_of_strictEquals hab with ⟨j, rfl⟩
    rcases Value.exists_inst_of_strictEquals hbc with ⟨k, rfl⟩
    rw [Value.strictEquals_inst] at hab hbc ⊢
    refine iff_of_true (hrs.equals_trans ha hb hc hab hbc) ?_
    rintro ⟨_, _, _, hi, _⟩
    cases hi
  · have ha : ∀ i, a ≠ .inst i := fun i h => hinst ⟨i, h⟩
    have hb : ∀ j, b ≠ .inst j := by
      rintro j rfl
      rw [Value.strictEquals_comm] at hab
      exact hinst (Value.exists_inst_of_strictEquals hab)
    rw [Value.strictEquals_of_not_inst ha] at hab ⊢
    rw [Value.strictEquals_of_not_inst hb] at hbc
    constructor
    · rintro hac ⟨i, f, j, rfl, rfl, rfl, hne⟩
      exact hne (eq_of_beq hac)
    · intro hnot
      rcases Value.plainEquals_trans_or hab hbc with hac | ⟨i, f, j, rfl, rfl, rfl⟩
      · exact hac
      · by_contra hne
        refine hnot ⟨i, f, j, rfl, rfl, rfl, ?_⟩
        rintro rfl
        exact hne (beq_self_eq_true i)

namespace World

/-- Equality of instances is deep structural equality: their types are equivalent, and every path of
field names that leads to a leaf in one leads to an equal leaf of the same sort in the other. It is
symmetric and transitive, and an instance is equal to itself exactly if no leaf is not-a-number. -/
theorem equals_iff_leaves {w : World μ} (hw : w.Reachable) {i j : Instance}
    (hi : w.Gave (.value (.inst i))) (hj : w.Gave (.value (.inst j))) :
    (i.equals j = true ↔ i.type.equivalent j.type = true ∧
      ∀ path u, w.realms.store.read? (.inst i) path = some u → u.Plain →
        ∃ v, w.realms.store.read? (.inst j) path = some v ∧ u.SameLeaf v) ∧
    i.equals j = j.equals i ∧
    (∀ k, w.Gave (.value (.inst k)) → i.equals j = true → j.equals k = true →
      i.equals k = true) ∧
    (i.equals i = true ↔
      ∀ path f, w.realms.store.read? (.inst i) path = some (.float f) → f ≠ .nan) := by
  have hrealms := hw.sound.realms
  have hi := hw.sound.gave _ hi
  have hj := hw.sound.gave _ hj
  refine ⟨hrealms.equals_iff_agree _ hi hj, i.equals_comm j, fun k hk => ?_,
    hrealms.equals_self_iff _ hi⟩
  exact hrealms.equals_trans hi hj (hw.sound.gave _ hk)

/-- Equality of values is symmetric. It is transitive but where two different integers are equal to
one double between them. An integer and a double are equal as numbers, that is, the double has the
integer as its exact value, except where the integer is no double itself and rounds to the other;
up to two to the 53rd power every integer is a double. -/
theorem strictEquals_partialEquiv {w : World μ} (hw : w.Reachable) :
    (∀ a b : Value, a.strictEquals b = true → b.strictEquals a = true) ∧
    (∀ a b c, w.Holds (.value a) → w.Holds (.value b) → w.Holds (.value c) →
      a.strictEquals b = true → b.strictEquals c = true →
        (a.strictEquals c = true ↔
          ¬ ∃ i f j, a = .int i ∧ b = .float f ∧ c = .int j ∧ i ≠ j)) ∧
    (∀ i f, ((Value.int i).strictEquals (.float f) = true ↔ f.toInt? = some i) ↔
      ((Double.ofInt i).toInt? = some i ∨ (Double.ofInt i).numEq f = false)) ∧
    ∀ i : Int, i.natAbs ≤ 9007199254740992 → (Double.ofInt i).toInt? = some i := by
  have hsound := hw.sound
  refine ⟨fun a b h => ?_, fun a b c ha hb hc => ?_, Double.numEq_ofInt_iff,
    fun i => Double.toInt?_ofInt⟩
  · rw [Value.strictEquals_comm]
    exact h
  · exact hsound.realms.strictEquals_trans_iff (hsound.holds ha) (hsound.holds hb)
      (hsound.holds hc)

namespace Sample

/-- What is made of the first instance as a source. -/
def copy : Instance :=
  ⟨3, pixel, [.inst ⟨1, color, [.int 0]⟩, .int 7]⟩

/-- The world in which the copy was constructed. -/
def copies : World Unit :=
  shots.perform (.construct pixel (some (.inst shot)))

theorem copies_reachable : copies.Reachable := by
  refine shots_reachable.leads (.step .refl _ ?_)
  exact List.forall_mem_cons.mpr ⟨.given (gave_at 1 0 rfl rfl),
    List.forall_mem_singleton.mpr (.given (gave_at 0 0 rfl rfl))⟩

/-- An instance and its copy are equal, and agree at all leaves. -/
theorem equals_iff_leaves_copies : copies.Reachable ∧ copies.Gave (.value (.inst shot)) ∧
    copies.Gave (.value (.inst copy)) ∧ shot.equals copy = true ∧ copy.equals shot = true ∧
    ∀ path u, copies.realms.store.read? (.inst shot) path = some u → u.Plain →
      ∃ v, copies.realms.store.read? (.inst copy) path = some v ∧ u.SameLeaf v := by
  have hshot : copies.Gave (.value (.inst shot)) := gave_at 1 0 rfl rfl
  have hcopy : copies.Gave (.value (.inst copy)) := gave_at 0 0 rfl rfl
  have hequal : shot.equals copy = true := rfl
  obtain ⟨hiff, hcomm, _, _⟩ := equals_iff_leaves copies_reachable hshot hcopy
  exact ⟨copies_reachable, hshot, hcopy, hequal, hcomm ▸ hequal, (hiff.mp hequal).2⟩

/-- An integer that rounds is equal to a double with another value, and through it to another
integer. -/
theorem strictEquals_rounded :
    (¬ ∀ (i : Int) (f : Double), -9223372036854775808 ≤ i → i ≤ 9223372036854775807 →
      ((Value.int i).strictEquals (.float f) = true ↔ f.toInt? = some i)) ∧
    ¬ ∀ a b c : Value, a.strictEquals b = true → b.strictEquals c = true →
      a.strictEquals c = true := by
  have hbelow : (Value.int 9007199254740992).strictEquals
      (.float (Double.ofInt 9007199254740992)) = true := by decide +kernel
  have habove : (Value.int 9007199254740993).strictEquals
      (.float (Double.ofInt 9007199254740992)) = true := by decide +kernel
  constructor
  · intro h
    have hexact := (h 9007199254740993 _ (by decide) (by decide)).mp habove
    rw [Double.toInt?_ofInt (by decide)] at hexact
    cases hexact
  · intro h
    rw [Value.strictEquals_comm] at habove
    cases h _ _ _ hbelow habove

/-- Two integers are equal to one double, and not to each other; an instance, its copy and the
instance again are no such case. -/
theorem strictEquals_partialEquiv_copies : copies.Reachable ∧
    copies.Holds (.value (.inst shot)) ∧ copies.Holds (.value (.inst copy)) ∧
    (Value.inst shot).strictEquals (.inst copy) = true ∧
    (Value.inst copy).strictEquals (.inst shot) = true ∧
    (Value.inst shot).strictEquals (.inst shot) = true ∧
    (Value.int 9007199254740992).strictEquals (.int 9007199254740993) = false := by
  have hshot : copies.Holds (.value (.inst shot)) := .given (gave_at 1 0 rfl rfl)
  have hcopy : copies.Holds (.value (.inst copy)) := .given (gave_at 0 0 rfl rfl)
  have hequal : (Value.inst shot).strictEquals (.inst copy) = true := rfl
  have hbelow : (Value.int 9007199254740992).strictEquals
      (.float (Double.ofInt 9007199254740992)) = true := by decide +kernel
  have habove : (Value.float (Double.ofInt 9007199254740992)).strictEquals
      (.int 9007199254740993) = true := by decide +kernel
  obtain ⟨hsymm, htrans, _, _⟩ := strictEquals_partialEquiv copies_reachable
  have hback := hsymm _ _ hequal
  refine ⟨copies_reachable, hshot, hcopy, hequal, hback, ?_, ?_⟩
  · refine (htrans _ _ _ hshot hcopy hshot hequal hback).mpr ?_
    rintro ⟨_, _, _, hinst, _⟩
    cases hinst
  · rw [← Bool.not_eq_true, htrans _ _ _ (.plain (.int _)) (.plain (.float _)) (.plain (.int _))
      hbelow habove, not_not]
    exact ⟨_, _, _, rfl, rfl, rfl, by decide⟩

end Sample

end World

end ValueTypes
