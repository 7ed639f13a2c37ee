import Mathlib.Data.List.Pairwise
import ValueTypes.Proofs.Definition.Shape
import ValueTypes.Registry

/-! Buckets represent a list of definitions if each symbol finds the definitions under it, in order,
and no two buckets are of one symbol. Putting one more definition under its symbol represents the
list with that definition behind it. -/

namespace ValueTypes

/-! ### Distinct keys -/

namespace Entries

variable {κ α : Type} [BEq κ]

/-- Whether no key is there twice. -/
def Distinct (entries : List (κ × α)) : Prop :=
  entries.Pairwise fun a b => (a.1 == b.1) = false

theorem key_of_mem_insert {entries : List (κ × α)} {key : κ} {value : α} {e : κ × α}
    (h : e ∈ insert entries key value) : e.1 = key ∨ ∃ old ∈ entries, e.1 = old.1 := by
  induction entries with
  | nil =>
      rw [List.mem_singleton.mp h]
      exact .inl rfl
  | cons entry rest ih =>
      rw [insert] at h
      split at h
      · -- The entry of the key keeps the key under which it came.
        rcases List.mem_cons.mp h with rfl | h
        · exact .inr ⟨entry, List.mem_cons_self .., rfl⟩
        · exact .inr ⟨e, List.mem_cons_of_mem _ h, rfl⟩
      · rcases List.mem_cons.mp h with rfl | h
        · exact .inr ⟨e, List.mem_cons_self .., rfl⟩
        · rcases ih h with hkey | ⟨old, hold, hkey⟩
          · exact .inl hkey
          · exact .inr ⟨old, List.mem_cons_of_mem _ hold, hkey⟩

theorem Distinct.insert {entries : List (κ × α)} (h : Distinct entries) (key : κ) (value : α) :
    Distinct (Entries.insert entries key value) := by
  induction entries with
  | nil => exact List.pairwise_singleton ..
  | cons entry rest ih =>
      rcases List.pairwise_cons.mp h with ⟨hfirst, hrest⟩
      rw [Entries.insert]
      split
      · exact List.pairwise_cons.mpr ⟨hfirst, hrest⟩
      · rename_i hkey
        refine List.pairwise_cons.mpr ⟨fun e he => ?_, ih hrest⟩
        rcases key_of_mem_insert he with heq | ⟨old, hold, heq⟩
        · rw [heq]
          exact Bool.not_eq_true _ ▸ hkey
        · rw [heq]
          exact hfirst old hold

theorem Distinct.lookup [EquivBEq κ] {entries : List (κ × α)} (h : Distinct entries) {e : κ × α}
    (he : e ∈ entries) : entries.lookup e.1 = some e.2 := by
  induction entries with
  | nil => cases he
  | cons entry rest ih =>
      rcases List.pairwise_cons.mp h with ⟨hfirst, hrest⟩
      rw [List.lookup_cons]
      rcases List.mem_cons.mp he with rfl | he
      · rw [BEq.rfl]
      · rw [BEq.comm, hfirst e he]
        exact ih hrest he

theorem exists_of_lookup {entries : List (κ × α)} {key : κ} {value : α}
    (h : entries.lookup key = some value) :
    ∃ e ∈ entries, (key == e.1) = true ∧ e.2 = value := by
  rw [List.lookup_eq_findSome?] at h
  rcases List.exists_of_findSome?_eq_some h with ⟨e, he, hfound⟩
  by_cases hkey : (key == e.1) = true
  · exact ⟨e, he, hkey, by simpa [hkey] using hfound⟩
  · simp [hkey] at hfound

theorem Distinct.eq_of_key [EquivBEq κ] {entries : List (κ × α)} (h : Distinct entries)
    {e e' : κ × α} (he : e ∈ entries) (he' : e' ∈ entries) (hkey : (e.1 == e'.1) = true) :
    e = e' := by
  by_contra hne
  have hsymm : Std.Symm fun a b : κ × α => (a.1 == b.1) = false :=
    ⟨fun a b hab => by rw [BEq.comm, hab]⟩
  rw [List.Pairwise.forall h he he' hne] at hkey
  cases hkey

end Entries

namespace Buckets

variable {buckets buckets' : Buckets} {definitions definitions' : List ValueType}

theorem bucket_push (buckets : Buckets) (symbol : Symbol) (t : ValueType) (other : Symbol) :
    (buckets.push symbol t).bucket other =
      buckets.bucket other ++ if symbol == other then [t] else [] := by
  rw [bucket, push, Entries.lookup_insert, BEq.comm]
  by_cases h : (symbol == other) = true
  · rw [if_pos h, if_pos h, Option.getD_some, bucket, Entries.lookup_congr _ h, bucket]
  · rw [if_neg h, if_neg h, List.append_nil, bucket]

/-- Whether buckets hold the definitions of a list, and nothing else: each under its own symbol, in
order, and with one bucket for each symbol. -/
structure Represent (buckets : Buckets) (definitions : List ValueType) : Prop where
  bucket : ∀ symbol, buckets.bucket symbol = definitions.filter (·.symbol == symbol)
  distinct : Entries.Distinct buckets.entries

theorem Represent.empty : Represent {} [] where
  bucket _ := rfl
  distinct := .nil

theorem Represent.push (h : buckets.Represent definitions) (t : ValueType) :
    (buckets.push t.symbol t).Represent (definitions ++ [t]) where
  bucket symbol := by
    rw [bucket_push, h.bucket, List.filter_append, List.filter_cons, List.filter_nil]
  distinct := h.distinct.insert ..

/-- Putting definitions under their symbols one after another represents all of them. -/
theorem Represent.foldl (h : buckets.Represent definitions) (added : List ValueType) :
    (added.foldl (fun buckets t => buckets.push t.symbol t) buckets).Represent
      (definitions ++ added) := by
  induction added generalizing buckets definitions with
  | nil =>
      rw [List.append_nil]
      exact h
  | cons t added ih =>
      rw [List.append_cons]
      exact ih (h.push t)

namespace Represent

theorem mem_bucket (h : buckets.Represent definitions) {symbol : Symbol} {t : ValueType} :
    t ∈ buckets.bucket symbol ↔ t ∈ definitions ∧ t.symbol.id = symbol.id := by
  rw [h.bucket, List.mem_filter, Symbol.beq_iff]

theorem pairwise_key (h : buckets.Represent definitions) :
    buckets.entries.Pairwise fun a b => a.1.id ≠ b.1.id := by
  refine List.Pairwise.imp (fun {a b} hab heq => ?_) h.distinct
  rw [(Symbol.beq_iff _ _).mpr heq] at hab
  cases hab

/-- Every bucket is found under its symbol. -/
theorem bucket_entry (h : buckets.Represent definitions) {e : Symbol × List ValueType}
    (he : e ∈ buckets.entries) : buckets.bucket e.1 = e.2 := by
  rw [Buckets.bucket, h.distinct.lookup he, Option.getD_some]

/-- A definition is in one bucket and in no other. -/
theorem existsUnique_entry (h : buckets.Represent definitions) {t : ValueType}
    (ht : t ∈ definitions) : ∃! e, e ∈ buckets.entries ∧ t ∈ e.2 := by
  have hmem : t ∈ buckets.bucket t.symbol := h.mem_bucket.mpr ⟨ht, rfl⟩
  have hsymbol : ∀ e ∈ buckets.entries, t ∈ e.2 → (t.symbol == e.1) = true := by
    intro e he hte
    rw [← h.bucket_entry he] at hte
    exact (Symbol.beq_iff _ _).mpr (h.mem_bucket.mp hte).2
  rw [Buckets.bucket] at hmem
  cases hlookup : buckets.entries.lookup t.symbol with
  | none =>
      rw [hlookup] at hmem
      cases hmem
  | some members =>
      rw [hlookup, Option.getD_some] at hmem
      rcases Entries.exists_of_lookup hlookup with ⟨e, he, hkey, rfl⟩
      refine ⟨e, ⟨he, hmem⟩, fun e' ⟨he', hte'⟩ => h.distinct.eq_of_key he' he ?_⟩
      exact PartialEquivBEq.trans (PartialEquivBEq.symm (hsymbol e' he' hte')) hkey

/-- What is appended to the definitions is appended to their buckets. -/
theorem bucket_prefix (h : buckets.Represent definitions) (h' : buckets'.Represent definitions')
    (hgrows : definitions <+: definitions') (symbol : Symbol) :
    buckets.bucket symbol <+: buckets'.bucket symbol := by
  rw [h.bucket, h'.bucket]
  exact hgrows.filter _

end Represent

end Buckets

end ValueTypes
