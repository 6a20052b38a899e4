import WhirlpoolAc.PackedFields

/-!
# Sequences of writes to disjoint places

Named fields have places in a packed storage, and different names have disjoint
places. After a sequence of writes each field holds the value written to it last,
truncated to its size, or what it held before when nothing was written to it. Each
bit therefore comes from the last write to the field that owns it, and two
sequences that agree on the last value of every field build the same storage.
-/

namespace WhirlpoolAc.PackedWrites

open PackedFields

universe u
variable {words width : Nat} {φ : Type u}

/-- Write to several fields in order. -/
def perform (place : φ → Place words width) (writes : List (φ × Nat))
    (storage : Storage words width) : Storage words width :=
  writes.foldl (fun storage entry => write (place entry.1) entry.2 storage) storage

/-- Sequences of writes compose. -/
theorem perform_append (place : φ → Place words width) (first second : List (φ × Nat))
    (storage : Storage words width) :
    perform place (first ++ second) storage =
      perform place second (perform place first storage) :=
  List.foldl_append

/-- A bit that no written field owns keeps its value. -/
theorem perform_unowned (place : φ → Place words width) (writes : List (φ × Nat))
    (storage : Storage words width) (word : Fin words) (index : Nat)
    (unowned : ∀ entry ∈ writes, ¬ Owns (place entry.1) word index) :
    wordBit (perform place writes storage) word index = wordBit storage word index := by
  induction writes generalizing storage with
  | nil => rfl
  | cons entry rest ih =>
    have kept : wordBit (write (place entry.1) entry.2 storage) word index =
        wordBit storage word index :=
      wordBit_write_unowned (place entry.1) entry.2 storage word index
        (unowned entry List.mem_cons_self)
    have later := ih (write (place entry.1) entry.2 storage)
      fun other member => unowned other (List.mem_cons_of_mem entry member)
    exact later.trans kept

section LastValues

variable [DecidableEq φ]

/-- The value written last to a field, if any was. -/
def lastValue (field : φ) : List (φ × Nat) → Option Nat
  | [] => none
  | entry :: rest => (lastValue field rest).or (if entry.1 = field then some entry.2 else none)

/-- Later writes take precedence. -/
theorem lastValue_append (field : φ) (first second : List (φ × Nat)) :
    lastValue field (first ++ second) = (lastValue field second).or (lastValue field first) := by
  induction first with
  | nil => exact Option.or_none.symm
  | cons entry rest ih => rw [List.cons_append, lastValue, ih, lastValue, Option.or_assoc]

/-- There is no last value exactly when no write is to the field. -/
theorem lastValue_none_iff (field : φ) (writes : List (φ × Nat)) :
    lastValue field writes = none ↔ ∀ entry ∈ writes, entry.1 ≠ field := by
  induction writes with
  | nil => simp [lastValue]
  | cons entry rest ih => simp [lastValue, ih, and_comm]

/-- A last value was written to its field. -/
theorem lastValue_mem (field : φ) (writes : List (φ × Nat)) (value : Nat)
    (last : lastValue field writes = some value) : (field, value) ∈ writes := by
  induction writes with
  | nil => cases last
  | cons entry rest ih =>
    rw [lastValue, Option.or_eq_some_iff] at last
    rcases last with later | ⟨_, here⟩
    · exact List.mem_cons_of_mem entry (ih later)
    · rw [Option.ite_none_right_eq_some] at here
      obtain ⟨rfl, stored⟩ := here
      rw [← Option.some.inj stored]
      exact List.mem_cons_self

variable (place : φ → Place words width)
  (apart : ∀ first second, first ≠ second → Disjoint (place first) (place second))

include apart in
/-- After a sequence of writes a field holds its last value. Induction on the writes
carries the storage along: the rest of the sequence decides where it writes the field,
and otherwise the first write does. -/
theorem perform_read (writes : List (φ × Nat)) (storage : Storage words width) (field : φ) :
    read (place field) (perform place writes storage) =
      match lastValue field writes with
      | some value => value % 2 ^ (place field).size
      | none => read (place field) storage := by
  induction writes generalizing storage with
  | nil => rfl
  | cons entry rest ih =>
    have later := ih (write (place entry.1) entry.2 storage)
    rw [lastValue]
    cases decided : lastValue field rest with
    | some value =>
      rw [decided] at later
      exact later
    | none =>
      rw [decided] at later
      by_cases same : entry.1 = field
      · subst same
        simp only [Option.none_or, if_true]
        exact later.trans (read_write_same (place entry.1) entry.2 storage)
      · simp only [Option.none_or, if_neg same]
        exact later.trans
          (read_write_disjoint (place field) (place entry.1) entry.2 storage
            (apart field entry.1 (Ne.symm same)))

include apart in
/-- Each bit of a field comes from the last value written to the field. -/
theorem perform_bit (writes : List (φ × Nat)) (storage : Storage words width) (field : φ)
    (word : Fin words) (index : Nat) (owned : Owns (place field) word index) :
    wordBit (perform place writes storage) word index =
      match lastValue field writes with
      | some value => value.testBit (index - (place field).low)
      | none => wordBit storage word index := by
  have within : index - (place field).low < (place field).size := by
    have low := owned.2.1
    have high := owned.2.2
    omega
  rw [wordBit_owned _ _ word index owned, perform_read place apart]
  cases lastValue field writes with
  | some value => simp [Nat.testBit_mod_two_pow, within]
  | none => exact (wordBit_owned _ _ word index owned).symm

include apart in
/-- Sequences with the same last value for every field build the same storage. -/
theorem perform_congr (first second : List (φ × Nat)) (storage : Storage words width)
    (same : ∀ field, lastValue field first = lastValue field second) :
    perform place first storage = perform place second storage := by
  apply storage_ext
  intro word index _
  by_cases owner : ∃ field, Owns (place field) word index
  · obtain ⟨field, owned⟩ := owner
    rw [perform_bit place apart first storage field word index owned,
      perform_bit place apart second storage field word index owned, same field]
  · have unowned (writes : List (φ × Nat)) :
        ∀ entry ∈ writes, ¬ Owns (place entry.1) word index :=
      fun entry _ owned => owner ⟨entry.1, owned⟩
    rw [perform_unowned place first storage word index (unowned first),
      perform_unowned place second storage word index (unowned second)]

include apart in
/-- Sequences that share no field commute. -/
theorem perform_comm (first second : List (φ × Nat)) (storage : Storage words width)
    (separate : ∀ entry ∈ first, ∀ other ∈ second, entry.1 ≠ other.1) :
    perform place second (perform place first storage) =
      perform place first (perform place second storage) := by
  rw [← perform_append, ← perform_append]
  apply perform_congr place apart
  intro field
  rw [lastValue_append, lastValue_append]
  cases fromFirst : lastValue field first with
  | none => simp
  | some value =>
    have wrote : (field, value) ∈ first := lastValue_mem field first value fromFirst
    have absent : lastValue field second = none := by
      rw [lastValue_none_iff]
      intro other member
      exact (separate (field, value) wrote other member).symm
    simp [absent]

end LastValues

end WhirlpoolAc.PackedWrites
