import WhirlpoolAc.BoundedJson

/-!
# Reading compact text objects back

A reader for the texts that the writer produces from objects of strings: members in
quotes, no spaces, short escapes. It follows the reader of the JSON library on these
texts and rejects every other text, in particular numbers, nesting, comments and
Unicode escapes.

Every object of strings without NUL is read back from its own text. The proof is one
induction over the characters of a string, where a short escape is undone by the same
table that introduced it, and one over the members.
-/

namespace WhirlpoolAc.JsonReading

open ByteStrings JsonText BoundedJson

/-- The characters of a string after its opening quote, and what follows the closing
    one. -/
def parseQuotedString : Bytes → Option (Bytes × Bytes)
  | [] => none
  | byte :: rest =>
      if byte = 34 then some ([], rest)
      else if byte = 0 then none
      else if byte = 92 then
        match rest with
        | [] => none
        | code :: later =>
            match unescapeChar code with
            | none => none
            | some char =>
                (parseQuotedString later).map fun parsed => (char :: parsed.1, parsed.2)
      else (parseQuotedString rest).map fun parsed => (byte :: parsed.1, parsed.2)

/-- A value or a key in quotes. -/
def parseString : Bytes → Option (Bytes × Bytes)
  | 34 :: rest => parseQuotedString rest
  | _ => none

/-- The members of an object after its opening brace. The fuel bounds their number. -/
def parseMembers : Nat → Bytes → Option (List (Bytes × Bytes))
  | 0, _ => none
  | fuel + 1, text =>
      match parseString text with
      | some (key, 58 :: afterColon) =>
          match parseString afterColon with
          | some (value, [125]) => some [(key, value)]
          | some (value, 44 :: later) => (parseMembers fuel later).map ((key, value) :: ·)
          | _ => none
      | _ => none

/-- `deserializeJson` into a document of a given capacity. -/
def parseObject (capacity : Nat) : Bytes → Option JsonObject
  | 123 :: rest =>
      if rest = [125] then some []
      else
        match parseMembers rest.length rest with
        | some texts => if readingSize texts ≤ capacity then some (textObject texts) else none
        | none => none
  | _ => none

/-- Codes and the characters they stand for determine each other. -/
theorem unescape_escape (byte code : UInt8) (escaped : escapeChar byte = some code) :
    unescapeChar code = some byte := by
  have undone : escapeTable.tail.all (fun entry => unescapeChar entry.1 = some entry.2) := by
    decide
  simp only [escapeChar, Option.map_eq_some_iff] at escaped
  obtain ⟨entry, found, rfl⟩ := escaped
  have matched : entry.2 = byte := by simpa using List.find?_some found
  have back := List.all_eq_true.mp undone entry (List.mem_of_find?_eq_some found)
  rw [of_decide_eq_true back, matched]

/-- A byte without a short escape is neither a quote nor a backslash. -/
theorem plain_of_not_escaped (byte : UInt8) (plain : escapeChar byte = none) :
    byte ≠ 34 ∧ byte ≠ 92 := by
  constructor
  · rintro rfl
    exact absurd plain (by decide)
  · rintro rfl
    exact absurd plain (by decide)

/-- The closing quote ends a string. -/
theorem parse_quote (rest : Bytes) : parseQuotedString (34 :: rest) = some ([], rest) := by
  rw [parseQuotedString.eq_def]
  simp only [if_pos]

/-- A backslash and a known code stand for one character. -/
theorem parse_escape (code byte : UInt8) (rest : Bytes) (known : unescapeChar code = some byte) :
    parseQuotedString (92 :: code :: rest) =
      (parseQuotedString rest).map fun parsed => (byte :: parsed.1, parsed.2) := by
  conv_lhs => rw [parseQuotedString.eq_def]
  have unquoted : ¬ (92 : UInt8) = 34 := by decide
  have nonzero : ¬ (92 : UInt8) = 0 := by decide
  simp only [if_neg unquoted, if_neg nonzero, if_pos, known]

/-- Any other byte but NUL stands for itself. -/
theorem parse_plain (byte : UInt8) (rest : Bytes) (unquoted : byte ≠ 34) (nonzero : byte ≠ 0)
    (unslashed : byte ≠ 92) :
    parseQuotedString (byte :: rest) =
      (parseQuotedString rest).map fun parsed => (byte :: parsed.1, parsed.2) := by
  conv_lhs => rw [parseQuotedString.eq_def]
  simp only [if_neg unquoted, if_neg nonzero, if_neg unslashed]

/-- Reading one written character puts it back in front of the rest. -/
theorem parse_writeChar (byte : UInt8) (rest : Bytes) (nonzero : byte ≠ 0) :
    parseQuotedString (writeChar byte ++ rest) =
      (parseQuotedString rest).map fun parsed => (byte :: parsed.1, parsed.2) := by
  cases escaped : escapeChar byte with
  | some code =>
      simp only [writeChar, escaped, List.cons_append, List.nil_append]
      exact parse_escape code byte rest (unescape_escape byte code escaped)
  | none =>
      obtain ⟨unquoted, unslashed⟩ := plain_of_not_escaped byte escaped
      simp only [writeChar, escaped, if_neg nonzero, List.cons_append, List.nil_append]
      exact parse_plain byte rest unquoted nonzero unslashed

/-- A written string is read back, whatever follows it. -/
theorem parse_writeString (text rest : Bytes) (nulFree : 0 ∉ text) :
    parseString (writeString text ++ rest) = some (text, rest) := by
  have quoted : ∀ chars : Bytes, 0 ∉ chars →
      parseQuotedString (chars.flatMap writeChar ++ (34 :: rest)) = some (chars, rest) := by
    intro chars
    induction chars with
    | nil =>
        intro _
        rw [List.flatMap_nil, List.nil_append, parse_quote]
    | cons byte later step =>
        intro clean
        simp only [List.mem_cons, not_or] at clean
        have nonzero : byte ≠ 0 := fun zero => clean.1 zero.symm
        rw [List.flatMap_cons, List.append_assoc, parse_writeChar byte _ nonzero, step clean.2]
        rfl
  have opened : writeString text ++ rest = 34 :: (text.flatMap writeChar ++ (34 :: rest)) := by
    have quote : lit "\"" = [34] := by decide
    simp only [writeString, quote, List.append_assoc, List.cons_append, List.nil_append]
  rw [opened, parseString, quoted text nulFree]

/-- No key and no text of a list contains NUL. -/
def NulFree (texts : List (Bytes × Bytes)) : Prop :=
  ∀ entry ∈ texts, 0 ∉ entry.1 ∧ 0 ∉ entry.2

/-- The members of an object are read back up to its closing brace. The fuel covers one
    unit for each of them. -/
theorem parse_writeMembers (texts : List (Bytes × Bytes)) (fuel : Nat) (some_ : texts ≠ [])
    (nulFree : NulFree texts) (enough : texts.length ≤ fuel) :
    parseMembers fuel (writeMembers (textObject texts) ++ [125]) = some texts := by
  have colon : lit ":" = [58] := by decide
  have comma : lit "," = [44] := by decide
  induction texts generalizing fuel with
  | nil => exact absurd rfl some_
  | cons entry rest step =>
      obtain ⟨key, text⟩ := entry
      obtain ⟨keyClean, textClean⟩ := nulFree (key, text) List.mem_cons_self
      obtain ⟨fuel, rfl⟩ : ∃ left, fuel = left + 1 := ⟨fuel - 1, by simp at enough; omega⟩
      cases rest with
      | nil =>
          simp only [textObject, List.map_cons, List.map_nil, writeMembers, writeValue, colon,
            List.append_assoc, List.cons_append, List.nil_append]
          simp only [parseMembers, parse_writeString key _ keyClean,
            parse_writeString text _ textClean]
      | cons next later =>
          have clean : NulFree (next :: later) := fun member present =>
            nulFree member (List.mem_cons_of_mem _ present)
          have following := step fuel (List.cons_ne_nil _ _) clean (by simpa using enough)
          simp only [textObject, List.map_cons] at following ⊢
          simp only [writeMembers, writeValue, colon, comma, List.append_assoc, List.cons_append,
            List.nil_append]
          simp only [parseMembers, parse_writeString key _ keyClean,
            parse_writeString text _ textClean, following, Option.map_some]

/-- A text is no shorter than its number of members. -/
theorem members_shorter (texts : List (Bytes × Bytes)) :
    texts.length ≤ (writeMembers (textObject texts) ++ [125]).length := by
  induction texts with
  | nil => exact Nat.zero_le _
  | cons entry rest step =>
      cases rest with
      | nil => simp only [List.length_append, List.length_cons, List.length_nil]; omega
      | cons next later =>
          simp only [textObject, List.map_cons, List.length_append, List.length_cons,
            List.length_nil, writeMembers] at step ⊢
          have colon : (lit ":").length = 1 := by decide
          omega

/-- Every object of strings without NUL is read back from its own text into a document
    that is large enough. -/
theorem parse_serialize (texts : List (Bytes × Bytes)) (capacity : Nat) (nulFree : NulFree texts)
    (fits : readingSize texts ≤ capacity) :
    parseObject capacity (serializeJson (textObject texts)) = some (textObject texts) := by
  have opening : lit "\x7b" = [123] := by decide
  have closing : lit "\x7d" = [125] := by decide
  simp only [serializeJson, opening, closing, List.cons_append, List.nil_append]
  cases texts with
  | nil => rfl
  | cons entry rest =>
      have read := parse_writeMembers (entry :: rest)
        (writeMembers (textObject (entry :: rest)) ++ [125]).length (List.cons_ne_nil _ _) nulFree
        (members_shorter _)
      have inhabited : writeMembers (textObject (entry :: rest)) ++ [125] ≠ [125] := by
        intro empty
        rw [empty] at read
        exact absurd read (by simp [parseMembers, parseString])
      simp only [parseObject, if_neg inhabited, read, if_pos fits]

end WhirlpoolAc.JsonReading
