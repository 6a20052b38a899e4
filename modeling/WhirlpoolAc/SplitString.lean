import WhirlpoolAc.CxxLibrary

/-!
# Splitting a string at a delimiter

`split_string` scans for the delimiter, cuts the piece in front of each occurrence
and finally the rest. Its loop ends only because the delimiter moves the scan
forward, so the model spends one unit of fuel on each turn; the length of the
string bounds the turns of every scan that advances.
-/

namespace WhirlpoolAc.SplitString

open ByteStrings CxxLibrary SequenceSearch

/-- The loop and the cut behind it, from a scan position. -/
def splitLoop (string delim : Bytes) : Nat → Nat → Except Exn (List Bytes)
  | 0, _ => .error .unfinished
  | fuel + 1, from_ =>
      match find string delim from_ with
      | some to_ => do
          let part ← CxxLibrary.substr string from_ (some (to_ - from_))
          let rest ← splitLoop string delim fuel (to_ + delim.length)
          pure (part :: rest)
      | none => do
          let last ← CxxLibrary.substr string from_ none
          pure [last]

/-- `split_string`. -/
def splitString (string delim : Bytes) : Except Exn (List Bytes) :=
  splitLoop string delim (string.length + 1) 0

/-- Without a further delimiter the loop cuts the unscanned rest as the last part. -/
theorem splitLoop_last (string delim : Bytes) (fuel from_ : Nat) (inside : from_ ≤ string.length)
    (search : find string delim from_ = none) :
    splitLoop string delim (fuel + 1) from_ = .ok [string.drop from_] := by
  have cut : CxxLibrary.substr string from_ none = .ok (string.drop from_) := by
    simp [CxxLibrary.substr, SequenceSearch.substr, inside]
  simp only [splitLoop, search, cut]
  rfl

/-- A found delimiter cuts off the part in front of it, and the scan goes on behind it. -/
theorem splitLoop_next (string delim before after : Bytes) (fuel from_ to_ : Nat)
    (inside : from_ ≤ string.length) (search : find string delim from_ = some to_)
    (split : string.drop from_ = before ++ delim ++ after) (position : to_ = from_ + before.length)
    (rest : List Bytes) (continues : splitLoop string delim fuel (to_ + delim.length) = .ok rest) :
    splitLoop string delim (fuel + 1) from_ = .ok (before :: rest) := by
  have size : to_ - from_ = before.length := by omega
  have front : (string.drop from_).take before.length = before := by
    rw [split, List.append_assoc, List.take_left]
  have cut : CxxLibrary.substr string from_ (some (to_ - from_)) = .ok before := by
    simp [CxxLibrary.substr, SequenceSearch.substr, inside, size, front]
  simp only [splitLoop, search, cut, continues]
  rfl

/-- What is left behind a found delimiter. -/
theorem drop_behind (string delim before after : Bytes) (from_ : Nat)
    (split : string.drop from_ = before ++ delim ++ after) :
    string.drop (from_ + before.length + delim.length) = after := by
  have moved : from_ + before.length + delim.length = from_ + (before ++ delim).length := by
    rw [List.length_append, Nat.add_assoc]
  rw [moved, ← List.drop_drop, split, List.drop_left]

/-- What the loop returns from a scan position: parts that join back to the
unscanned rest, none of them holding the delimiter, one more than the delimiters
the scan of that rest meets. The delimiter's positive length shrinks the rest on
each turn, so the fuel suffices. -/
theorem splitLoop_joins (string delim : Bytes) (nonempty : delim ≠ []) (fuel from_ : Nat)
    (inside : from_ ≤ string.length) (enough : string.length - from_ < fuel) :
    ∃ parts, splitLoop string delim fuel from_ = .ok parts ∧
      delim.intercalate parts = string.drop from_ ∧
      (∀ part ∈ parts, ¬ delim <:+: part) ∧
      parts.length = occurrences delim (string.drop from_) 0 + 1 := by
  induction fuel generalizing from_ with
  | zero => omega
  | succ fuel ih =>
    cases search : find string delim from_ with
    | none =>
      have absent := find_none string delim from_ inside search
      refine ⟨[string.drop from_], splitLoop_last string delim fuel from_ inside search,
        List.intercalate_singleton, ?_, ?_⟩
      · intro part member
        rw [List.mem_singleton.mp member]
        exact absent
      · rw [occurrences_absent delim _ absent, List.length_singleton]
    | some to_ =>
      obtain ⟨before, after, split, position, least⟩ :=
        find_some string delim from_ to_ inside search
      have behind := drop_behind string delim before after from_ split
      rw [← position] at behind
      have positive := List.length_pos_of_ne_nil nonempty
      have lengths := congrArg List.length split
      simp only [List.length_drop, List.length_append] at lengths
      obtain ⟨parts, rest, joined, clean, count⟩ :=
        ih (to_ + delim.length) (by omega) (by omega)
      rw [behind] at joined count
      have some_part : parts ≠ [] := by
        intro vacant
        rw [vacant] at count
        simp at count
      rw [split] at least
      refine ⟨before :: parts, ?_, ?_, ?_, ?_⟩
      · exact splitLoop_next string delim before after fuel from_ to_ inside search split position
          parts rest
      · rw [List.intercalate_cons_of_ne_nil some_part, joined, split]
      · intro part member
        rcases List.mem_cons.mp member with rfl | later
        · exact before_first_clean delim part after nonempty least
        · exact clean part later
      · rw [split, occurrences_first delim before after nonempty least, List.length_cons, count]

/-- Splitting at one byte never fails and yields the pieces between its occurrences. They
are the only ones without that byte that join back to the string. -/
theorem splitString_single (string : Bytes) (delimiter : UInt8) :
    splitString string [delimiter] = .ok (string.splitOn delimiter) := by
  obtain ⟨parts, result, joined, clean, count⟩ := splitLoop_joins string [delimiter]
    (List.cons_ne_nil delimiter []) (string.length + 1) 0 (Nat.zero_le _) (by omega)
  have some_part : parts ≠ [] := by
    intro vacant
    rw [vacant] at count
    simp at count
  have absent : ∀ part ∈ parts, delimiter ∉ part := by
    intro part member present
    obtain ⟨before, after, split⟩ := List.append_of_mem present
    exact clean part member ⟨before, after, by simp [split]⟩
  have pieces : string.splitOn delimiter = parts := by
    rw [← List.splitOn_intercalate delimiter absent some_part, joined, List.drop_zero]
  rw [pieces]
  exact result

/-- For a non-empty delimiter the split ends without an exception. Its parts join
back to the string, none holds the delimiter, and there is one part more than the
non-overlapping delimiters met from left to right. -/
theorem splitString_joins (string delim : Bytes) (nonempty : delim ≠ []) :
    ∃ parts, splitString string delim = .ok parts ∧ delim.intercalate parts = string ∧
      (∀ part ∈ parts, ¬ delim <:+: part) ∧
      parts.length = occurrences delim string 0 + 1 := by
  simpa [splitString] using splitLoop_joins string delim nonempty (string.length + 1) 0
    (Nat.zero_le _) (by omega)

/-- A delimiter that overlaps itself: `aaaxaa` cut at `aa` gives three parts. -/
theorem splitString_joins_overlapping :
    [97, 97] ≠ ([] : Bytes) ∧
      splitString [97, 97, 97, 120, 97, 97] [97, 97] = .ok [[], [97, 120], []] ∧
      ∃ parts, splitString [97, 97, 97, 120, 97, 97] [97, 97] = .ok parts ∧
        parts.length = occurrences [97, 97] [97, 97, 97, 120, 97, 97] 0 + 1 := by
  obtain ⟨parts, result, _, _, count⟩ :=
    splitString_joins [97, 97, 97, 120, 97, 97] [97, 97] (by decide)
  exact ⟨by decide, by rfl, parts, result, count⟩

end WhirlpoolAc.SplitString
