import Mathlib.Data.List.Basic

/-!
# Searching a table for a folded word

A word is matched to the keys of a table up to a folding, such as the case of its
letters. When the search folds the word and compares it with the keys as they stand,
an entry is found exactly when its key is a folded word itself: the other keys equal
no folded word, whatever word is given.
-/

namespace WhirlpoolAc.FoldedLookup

variable {κ ν : Type}

/-- No two entries of a table have keys that agree up to folding. -/
def Distinct (fold : κ → κ) (table : List (κ × ν)) : Prop :=
  ∀ first ∈ table, ∀ second ∈ table, fold first.1 = fold second.1 → first = second

instance [DecidableEq κ] [DecidableEq ν] (fold : κ → κ) (table : List (κ × ν)) :
    Decidable (Distinct fold table) := by
  unfold Distinct
  infer_instance

/-- A folding that leaves folded words alone. -/
def Idempotent (fold : κ → κ) : Prop := ∀ word, fold (fold word) = fold word

/-- A search that succeeds has found an entry of the table. -/
theorem lookup_mem [BEq κ] [LawfulBEq κ] (table : List (κ × ν)) (word : κ) (value : ν)
    (found : table.lookup word = some value) : (word, value) ∈ table := by
  obtain ⟨before, rest, split, _⟩ := List.lookup_eq_some_iff.mp found
  rw [split]
  exact List.mem_append_right before List.mem_cons_self

section Folding

variable [BEq κ] [LawfulBEq κ] (fold : κ → κ) (idempotent : Idempotent fold)
  (table : List (κ × ν)) (word : κ)
include idempotent

/-- What a search for the folded word finds has a key that matches the word. -/
theorem lookup_matches (value : ν) (found : table.lookup (fold word) = some value) :
    ∃ entry ∈ table, fold word = fold entry.1 ∧ fold entry.1 = entry.1 ∧ entry.2 = value := by
  have present : (fold word, value) ∈ table := lookup_mem table (fold word) value found
  exact ⟨(fold word, value), present, (idempotent word).symm, idempotent word, rfl⟩

/-- A word that matches no key is not found. -/
theorem lookup_unmatched (unmatched : ∀ entry ∈ table, fold word ≠ fold entry.1) :
    table.lookup (fold word) = none := by
  cases found : table.lookup (fold word) with
  | none => rfl
  | some value =>
    obtain ⟨entry, present, agrees, _, _⟩ :=
      lookup_matches fold idempotent table word value found
    exact absurd agrees (unmatched entry present)

/-- A word that matches a key is found exactly when the key is folded already. -/
theorem lookup_matched [DecidableEq κ] (distinct : Distinct fold table) (entry : κ × ν)
    (present : entry ∈ table) (agrees : fold word = fold entry.1) :
    table.lookup (fold word) = if fold entry.1 = entry.1 then some entry.2 else none := by
  cases found : table.lookup (fold word) with
  | none =>
    have missed := List.lookup_eq_none_iff.mp found entry present
    have unfolded : fold entry.1 ≠ entry.1 := by
      rw [← agrees]
      simpa using missed
    rw [if_neg unfolded]
  | some value =>
    obtain ⟨other, inside, matching, folded, carried⟩ :=
      lookup_matches fold idempotent table word value found
    have same : entry = other := distinct entry present other inside (agrees.symm.trans matching)
    subst same
    rw [if_pos folded, carried]

end Folding

end WhirlpoolAc.FoldedLookup
