import Mathlib.Logic.Function.Iterate
import ValueTypes.Definition.Induction
import ValueTypes.Value.Equality

/-! Levels of instances in a value, and comparison level by level. The comparison of two instances
goes no deeper than the first of them is nested. -/

namespace ValueTypes

/-! ### Levels -/

mutual

/-- How many instances lie one inside the other in a value, at the most. -/
def Value.levels : Value → Nat
  | .inst ⟨_, _, slots⟩ => slotLevels slots + 1
  | _ => 0
termination_by structural v => v

def slotLevels : List Value → Nat
  | [] => 0
  | v :: slots => max v.levels (slotLevels slots)
termination_by structural slots => slots

end

theorem Value.levels_inst (i : Instance) : (Value.inst i).levels = slotLevels i.slots + 1 := by
  cases i; rfl

theorem Value.levels_eq_zero {v : Value} (hv : ∀ i, v ≠ .inst i) : v.levels = 0 := by
  cases v with
  | inst i => exact absurd rfl (hv i)
  | _ => rfl

theorem levels_le_slotLevels {v : Value} {slots : List Value} (hv : v ∈ slots) :
    v.levels ≤ slotLevels slots := by
  induction slots with
  | nil => cases hv
  | cons u slots ih =>
      rw [slotLevels]
      rcases List.mem_cons.mp hv with rfl | hv
      · exact Nat.le_max_left ..
      · exact Nat.le_trans (ih hv) (Nat.le_max_right ..)

/-! ### Comparison level by level -/

/-- Equality of values, where `equal` compares instances. -/
def Value.equalsWith (equal : Instance → Instance → Bool) : Value → Value → Bool
  | .inst i, .inst j => equal i j
  | .inst _, _ => false
  | a, b => a.plainEquals b

/-- Equality of slots, where `equal` compares the instances in them. -/
def slotsEqualWith (equal : Instance → Instance → Bool) : List Value → List Value → Bool
  | [], vs => vs.isEmpty
  | _ :: _, [] => false
  | u :: us, v :: vs => u.equalsWith equal v && slotsEqualWith equal us vs

/-- One level of the equality of instances, where `equal` compares those of the next level. -/
def Instance.equalsWith (equal : Instance → Instance → Bool) (i j : Instance) : Bool :=
  i.type.equivalent j.type && slotsEqualWith equal i.slots j.slots

theorem Value.equalsWith_eq {equal : Instance → Instance → Bool} {a : Value}
    (h : ∀ i, a = .inst i → ∀ j, equal i j = i.equals j) (b : Value) :
    a.equalsWith equal b = a.strictEquals b := by
  cases a with
  | inst i =>
      cases b with
      | inst j => exact (h i rfl j).trans (strictEquals_inst i j).symm
      | _ => cases i; rfl
  | _ => cases b <;> rfl

theorem slotsEqualWith_eq {equal : Instance → Instance → Bool} {us : List Value}
    (h : ∀ u ∈ us, ∀ i, u = .inst i → ∀ j, equal i j = i.equals j) (vs : List Value) :
    slotsEqualWith equal us vs = slotsEqual us vs := by
  induction us generalizing vs with
  | nil => cases vs <;> rfl
  | cons u us ih =>
      cases vs with
      | nil => rfl
      | cons v vs =>
          rw [slotsEqualWith, slotsEqual_cons, Value.equalsWith_eq (h u (List.mem_cons_self ..)),
            ih fun w hw => h w (List.mem_cons_of_mem u hw)]

/-- As many levels of comparison as the first instance has decide equality, whatever would be asked
of the levels below. -/
theorem Instance.equalsWith_iterate (stop : Instance → Instance → Bool) {n : Nat} {i : Instance}
    (hn : (Value.inst i).levels ≤ n) (j : Instance) : equalsWith^[n] stop i j = i.equals j := by
  induction n generalizing i j with
  | zero =>
      rw [Value.levels_inst] at hn
      exact absurd hn (Nat.not_succ_le_zero _)
  | succ n ih =>
      rw [Value.levels_inst] at hn
      rw [Function.iterate_succ_apply', equalsWith, slotsEqualWith_eq, equals]
      rintro u hu k rfl l
      exact ih (Nat.le_trans (levels_le_slotLevels hu) (Nat.le_of_succ_le_succ hn)) l

end ValueTypes
