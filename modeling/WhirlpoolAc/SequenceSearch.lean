import Mathlib.Data.List.Infix

/-!
# Searching and cutting sequences

`find` returns the first position, at or after a start, where a needle occurs;
`substr` cuts a piece out of a sequence and refuses a start past the end. These
are the two operations a scanning loop is built from. Positions count from the
front of the whole sequence, also when the search starts in the middle.

The laws describe a found position by the split it makes: everything before it,
the needle, and the rest, with no earlier occurrence. Elements are arbitrary;
only their equality is decided.
-/

namespace WhirlpoolAc.SequenceSearch

universe u
variable {α : Type u} [DecidableEq α]

/-- First occurrence of the needle in a suffix whose front has position `at_`. -/
def findFrom (needle : List α) : List α → Nat → Option Nat
  | [], at_ => if needle = [] then some at_ else none
  | first :: rest, at_ =>
      if needle <+: first :: rest then some at_ else findFrom needle rest (at_ + 1)

/-- First occurrence at or after `from_`. A start past the end finds nothing, not
even an empty needle. -/
def find (string needle : List α) (from_ : Nat) : Option Nat :=
  if from_ ≤ string.length then findFrom needle (string.drop from_) from_ else none

/-- Cut `count` elements from `pos`, or everything up to the end when no count is
given. A start past the end is refused; a long count is clipped. -/
def substr {α : Type u} (string : List α) (pos : Nat) (count : Option Nat) : Option (List α) :=
  if pos ≤ string.length then
    match count with
    | none => some (string.drop pos)
    | some size => some ((string.drop pos).take size)
  else none

/-- A found position splits the suffix around the needle, and no occurrence
starts earlier. Induction follows the scan: a refused front adds one element to
the part before the occurrence. -/
theorem findFrom_some (needle suffix : List α) (at_ found : Nat)
    (search : findFrom needle suffix at_ = some found) :
    ∃ before after, suffix = before ++ needle ++ after ∧ found = at_ + before.length ∧
      ∀ earlier later, suffix = earlier ++ needle ++ later → before.length ≤ earlier.length := by
  induction suffix generalizing at_ with
  | nil =>
    by_cases vacant : needle = []
    · simp only [findFrom, vacant, if_true, Option.some.injEq] at search
      exact ⟨[], [], by simp [vacant], by simp [search], by simp⟩
    · simp [findFrom, vacant] at search
  | cons first rest ih =>
    by_cases here : needle <+: first :: rest
    · simp only [findFrom, here, if_true, Option.some.injEq] at search
      obtain ⟨after, split⟩ := here
      exact ⟨[], after, by simp [split], by simp [search], by simp⟩
    · simp only [findFrom, here, if_false] at search
      obtain ⟨before, after, split, position, least⟩ := ih (at_ + 1) search
      refine ⟨first :: before, after, by simp [split], ?_, ?_⟩
      · simp only [List.length_cons, position]
        omega
      · intro earlier later occurrence
        cases earlier with
        | nil => exact absurd ⟨later, by simpa using occurrence.symm⟩ here
        | cons other others =>
          have tail : rest = others ++ needle ++ later := by
            simpa using (List.cons.inj occurrence).2
          exact Nat.succ_le_succ (least others later tail)

/-- The search fails exactly when the needle occurs nowhere in the suffix. -/
theorem findFrom_none_iff (needle suffix : List α) (at_ : Nat) :
    findFrom needle suffix at_ = none ↔ ¬ needle <:+: suffix := by
  induction suffix generalizing at_ with
  | nil => simp [findFrom]
  | cons first rest ih =>
    by_cases here : needle <+: first :: rest
    · simp [findFrom, here, List.infix_cons_iff]
    · simp [findFrom, here, ih, List.infix_cons_iff]

/-- A search of the whole sequence fails exactly when the needle is no infix. -/
theorem find_zero_none_iff (string needle : List α) :
    find string needle 0 = none ↔ ¬ needle <:+: string := by
  simp [find, findFrom_none_iff]

/-- A search of the rest fails only when the needle occurs nowhere in it. -/
theorem find_none (string needle : List α) (from_ : Nat) (inside : from_ ≤ string.length)
    (search : find string needle from_ = none) : ¬ needle <:+: string.drop from_ := by
  rw [find, if_pos inside] at search
  exact (findFrom_none_iff needle (string.drop from_) from_).mp search

/-- A successful search cuts the rest at the first occurrence of the needle. -/
theorem find_some (string needle : List α) (from_ found : Nat) (inside : from_ ≤ string.length)
    (search : find string needle from_ = some found) :
    ∃ before after, string.drop from_ = before ++ needle ++ after ∧
      found = from_ + before.length ∧
      ∀ earlier later, string.drop from_ = earlier ++ needle ++ later →
        before.length ≤ earlier.length := by
  rw [find, if_pos inside] at search
  exact findFrom_some needle (string.drop from_) from_ found search

/-- The occurrences a scan from left to right meets when it jumps behind each one
it meets; `skipped` elements of the sequence belong to the one met last. -/
def occurrences (needle : List α) : List α → Nat → Nat
  | [], _ => 0
  | _ :: rest, skipped + 1 => occurrences needle rest skipped
  | first :: rest, 0 =>
      if needle <+: first :: rest then occurrences needle rest (needle.length - 1) + 1
      else occurrences needle rest 0

/-- Elements of the last occurrence are passed without a look. -/
theorem occurrences_skip (needle passed rest : List α) :
    occurrences needle (passed ++ rest) passed.length = occurrences needle rest 0 := by
  induction passed with
  | nil => rfl
  | cons first others ih => simpa [occurrences] using ih

/-- A sequence without the needle has no occurrence. -/
theorem occurrences_absent (needle string : List α) (absent : ¬ needle <:+: string) :
    occurrences needle string 0 = 0 := by
  induction string with
  | nil => rfl
  | cons first rest ih =>
    rw [List.infix_cons_iff, not_or] at absent
    obtain ⟨notHere, notLater⟩ := absent
    rw [occurrences, if_neg notHere]
    exact ih notLater

/-- The scan meets the first occurrence and goes on behind it. Induction follows
the part in front, at whose elements no occurrence starts. -/
theorem occurrences_first (needle before after : List α) (nonempty : needle ≠ [])
    (least : ∀ earlier later, before ++ needle ++ after = earlier ++ needle ++ later →
      before.length ≤ earlier.length) :
    occurrences needle (before ++ needle ++ after) 0 = occurrences needle after 0 + 1 := by
  induction before with
  | nil =>
    obtain ⟨first, others, shape⟩ := List.exists_cons_of_ne_nil nonempty
    have here : needle <+: first :: (others ++ after) := ⟨after, by simp [shape]⟩
    have front : [] ++ needle ++ after = first :: (others ++ after) := by simp [shape]
    have behind : needle.length - 1 = others.length := by simp [shape]
    rw [front, occurrences, if_pos here, behind, occurrences_skip]
  | cons first rest ih =>
    have notHere : ¬ needle <+: first :: (rest ++ needle ++ after) := by
      rintro ⟨later, split⟩
      have early := least [] later (by simpa using split.symm)
      simp at early
    have later : occurrences needle (rest ++ needle ++ after) 0 =
        occurrences needle after 0 + 1 := by
      apply ih
      intro earlier later split
      have moved := least (first :: earlier) later (by simpa using split)
      simpa using moved
    rw [List.cons_append, List.cons_append, occurrences, if_neg notHere, later]

/-- The part in front of the first occurrence holds no occurrence itself. -/
theorem before_first_clean {α : Type u} (needle before after : List α) (nonempty : needle ≠ [])
    (least : ∀ earlier later, before ++ needle ++ after = earlier ++ needle ++ later →
      before.length ≤ earlier.length) : ¬ needle <:+: before := by
  rintro ⟨earlier, later, inner⟩
  have early := least earlier (later ++ needle ++ after) (by simp [← inner])
  have size := congrArg List.length inner
  have positive := List.length_pos_of_ne_nil nonempty
  simp only [List.length_append] at size
  omega

/-- Splitting yields one part more than there are separators. -/
theorem splitOn_length (string : List α) (separator : α) :
    (string.splitOn separator).length = string.count separator + 1 := by
  induction string with
  | nil => simp
  | cons first rest ih =>
    by_cases found : first = separator
    · subst found
      simp [List.splitOn_cons_eq_if_modifyHead, ih]
    · simp [List.splitOn_cons_eq_if_modifyHead, found, ih]

/-- A single part is the whole sequence and contains no separator. -/
theorem splitOn_single_iff (string part : List α) (separator : α) :
    string.splitOn separator = [part] ↔ string = part ∧ separator ∉ part := by
  constructor
  · intro split
    have joined : [separator].intercalate (string.splitOn separator) = string :=
      List.intercalate_splitOn separator
    have parts := splitOn_length string separator
    rw [split] at joined parts
    have same : part = string := by simpa using joined
    refine ⟨same.symm, ?_⟩
    rw [same]
    exact List.count_eq_zero.mp (by simpa using parts)
  · rintro ⟨rfl, clean⟩
    exact List.splitOn_eq_singleton clean

/-- Two parts surround the only separator. -/
theorem splitOn_pair_iff (string front back : List α) (separator : α) :
    string.splitOn separator = [front, back] ↔
      string = front ++ separator :: back ∧ separator ∉ front ∧ separator ∉ back := by
  constructor
  · intro split
    have joined : [separator].intercalate (string.splitOn separator) = string :=
      List.intercalate_splitOn separator
    have parts := splitOn_length string separator
    rw [split] at joined parts
    have same : front ++ separator :: back = string := by
      simpa [List.intercalate] using joined
    have clean : front.count separator = 0 ∧ back.count separator = 0 := by
      rw [← same] at parts
      simp only [List.length_cons, List.length_nil, List.count_append,
        List.count_cons_self] at parts
      omega
    exact ⟨same.symm, List.count_eq_zero.mp clean.1, List.count_eq_zero.mp clean.2⟩
  · rintro ⟨rfl, cleanFront, cleanBack⟩
    rw [List.splitOn_append_cons_self_of_not_mem cleanFront,
      List.splitOn_eq_singleton cleanBack]

/-- The part behind the last separator is determined by the whole. -/
theorem last_part_inj {α : Type u} (front otherFront last otherLast : List α) (separator : α)
    (clean : separator ∉ last) (cleanOther : separator ∉ otherLast)
    (same : front ++ separator :: last = otherFront ++ separator :: otherLast) :
    front = otherFront ∧ last = otherLast := by
  rcases List.append_eq_append_iff.mp same with
    ⟨between, longer, rest⟩ | ⟨between, longer, rest⟩
  · cases between with
    | nil =>
      rw [List.nil_append] at rest
      exact ⟨(longer.trans (List.append_nil front)).symm, (List.cons.inj rest).2⟩
    | cons first more =>
      rw [List.cons_append] at rest
      exact absurd ((List.cons.inj rest).2 ▸ List.mem_append_right more List.mem_cons_self) clean
  · cases between with
    | nil =>
      rw [List.nil_append] at rest
      exact ⟨longer.trans (List.append_nil otherFront), (List.cons.inj rest).2.symm⟩
    | cons first more =>
      rw [List.cons_append] at rest
      exact absurd ((List.cons.inj rest).2 ▸ List.mem_append_right more List.mem_cons_self)
        cleanOther

end WhirlpoolAc.SequenceSearch
