import WhirlpoolAc.ByteStrings
import Mathlib.Algebra.Group.Nat.Defs
import Mathlib.Tactic.Ring

/-!
# Lengths of seven bits a byte

The protocol writes the length of a packet in one to four bytes, the lowest seven bits
first, with the top bit of a byte announcing another one. The encoder stops at the first
quotient of zero, the decoder at the first byte without the mark, and whatever lies behind
that byte is not read.

Numbers have 32 bits in both routines. A length below two to the 28 fits four bytes and
never wraps.
-/

namespace WhirlpoolAc.RemainingLength

open ByteStrings

/-- Rounds of the encoder; five empty a number of 32 bits. -/
def encodeRounds : Nat → Nat → Bytes
  | 0, _ => []
  | fuel + 1, remainingLength =>
      let encodedByte := remainingLength % 128
      let rest := remainingLength / 128
      if rest > 0 then UInt8.ofNat (encodedByte ||| 128) :: encodeRounds fuel rest
      else [UInt8.ofNat encodedByte]

/-- `Helpers::encodeRemainingLength`: the bytes it stores. -/
def encodeRemainingLength (remainingLength : Nat) : Bytes := encodeRounds 5 remainingLength

/-- Rounds of the decoder over the rest of its buffer; none when they run past its end. -/
def decodeRounds : Bytes → Nat → Nat → Option Nat
  | [], _, _ => none
  | encodedByte :: rest, multiplier, value =>
      let value := (value + (encodedByte.toNat &&& 127) * multiplier) % 2 ^ 32
      if encodedByte.toNat &&& 128 ≠ 0 then decodeRounds rest (multiplier * 128 % 2 ^ 32) value
      else some value

/-- `Helpers::decodeRemainingLength`. -/
def decodeRemainingLength (bytes : Bytes) : Option Nat := decodeRounds bytes 1 0

/-- The byte announces another one. -/
def Continues (byte : UInt8) : Prop := byte.toNat >>> 7 ≠ 0

instance (byte : UInt8) : Decidable (Continues byte) := inferInstanceAs (Decidable (_ ≠ _))

/-- The mark is the value 128. -/
theorem continues_iff (byte : UInt8) : Continues byte ↔ 128 ≤ byte.toNat := by
  rw [Continues, Nat.shiftRight_eq_div_pow]
  have small := byte.toNat_lt
  omega

/-- Reading the parts of a byte: its mark and its digit. -/
theorem byte_parts (byte : UInt8) :
    (byte.toNat &&& 128 ≠ 0 ↔ Continues byte) ∧ byte.toNat &&& 127 = byte.toNat % 128 := by
  have mark : ∀ value < 256, value &&& 128 ≠ 0 ↔ value >>> 7 ≠ 0 := by decide +kernel
  exact ⟨mark byte.toNat byte.toNat_lt, Nat.and_two_pow_sub_one_eq_mod byte.toNat 7⟩

/-- A digit with the mark. -/
theorem marked_digit (digit : Nat) (small : digit < 128) :
    (UInt8.ofNat (digit ||| 128)).toNat = digit + 128 := by
  revert digit
  decide +kernel

/-- A digit without the mark. -/
theorem plain_digit (digit : Nat) (small : digit < 128) : (UInt8.ofNat digit).toNat = digit := by
  rw [UInt8.toNat_ofNat']
  omega

/-- One round of the decoder on a byte with the mark. -/
theorem decodeRounds_marked (byte : UInt8) (rest : Bytes) (multiplier value : Nat)
    (marked : Continues byte) :
    decodeRounds (byte :: rest) multiplier value =
      decodeRounds rest (multiplier * 128 % 2 ^ 32)
        ((value + byte.toNat % 128 * multiplier) % 2 ^ 32) := by
  obtain ⟨mark, digit⟩ := byte_parts byte
  rw [decodeRounds, if_pos (mark.mpr marked), digit]

/-- The last round of the decoder. -/
theorem decodeRounds_plain (byte : UInt8) (rest : Bytes) (multiplier value : Nat)
    (plain : ¬ Continues byte) :
    decodeRounds (byte :: rest) multiplier value =
      some ((value + byte.toNat % 128 * multiplier) % 2 ^ 32) := by
  obtain ⟨mark, digit⟩ := byte_parts byte
  rw [decodeRounds, if_neg (fun set => plain (mark.mp set)), digit]

/-- A single digit is the last round of the encoder. -/
theorem encodeRounds_digit (fuel length : Nat) (digit : length < 128) :
    encodeRounds (fuel + 1) length = [UInt8.ofNat length] := by
  simp [encodeRounds, Nat.div_eq_of_lt digit, Nat.mod_eq_of_lt digit]

/-- A byte without the mark is its digit. -/
theorem plain_byte (digit : Nat) (small : digit < 128) : ¬ Continues (UInt8.ofNat digit) := by
  rw [continues_iff, plain_digit digit small]
  omega

/-- A round of the encoder that is not the last. -/
theorem encodeRounds_marked (fuel length : Nat) (more : 128 ≤ length) :
    encodeRounds (fuel + 1) length =
      UInt8.ofNat (length % 128 ||| 128) :: encodeRounds fuel (length / 128) := by
  have quotient : length / 128 > 0 := Nat.div_pos more (by decide)
  rw [encodeRounds, if_pos quotient]

/-- Its byte has the mark. -/
theorem marked_byte (length : Nat) :
    (UInt8.ofNat (length % 128 ||| 128)).toNat = length % 128 + 128 ∧
      Continues (UInt8.ofNat (length % 128 ||| 128)) := by
  have value := marked_digit (length % 128) (Nat.mod_lt _ (by decide))
  rw [continues_iff, value]
  exact ⟨rfl, Nat.le_add_left _ _⟩

/-- What the encoder stores is read back with its place value, wherever the decoder
stands. Induction on the rounds of the encoder. -/
theorem decodeRounds_encodeRounds (fuel length multiplier value : Nat) (rest : Bytes)
    (rounds : length < 128 ^ (fuel + 1)) (fits : value + length * multiplier < 2 ^ 32) :
    decodeRounds (encodeRounds (fuel + 1) length ++ rest) multiplier value =
      some (value + length * multiplier) := by
  induction fuel generalizing length multiplier value with
  | zero =>
    have digit : length < 128 := by simpa using rounds
    rw [encodeRounds_digit 0 length digit, List.singleton_append,
      decodeRounds_plain _ _ _ _ (plain_byte length digit), plain_digit length digit,
      Nat.mod_eq_of_lt digit, Nat.mod_eq_of_lt fits]
  | succ fuel ih =>
    rcases Nat.lt_or_ge length 128 with digit | more
    · rw [encodeRounds_digit _ length digit, List.singleton_append,
        decodeRounds_plain _ _ _ _ (plain_byte length digit), plain_digit length digit,
        Nat.mod_eq_of_lt digit, Nat.mod_eq_of_lt fits]
    · obtain ⟨value_byte, marked⟩ := marked_byte length
      have parts : length % 128 * multiplier + length / 128 * (128 * multiplier) =
          length * multiplier := by
        calc length % 128 * multiplier + length / 128 * (128 * multiplier)
            = (length % 128 + 128 * (length / 128)) * multiplier := by ring
          _ = length * multiplier := by rw [Nat.mod_add_div]
      have positive : 0 < length / 128 := Nat.div_pos more (by decide)
      have place : 128 * multiplier ≤ length / 128 * (128 * multiplier) :=
        Nat.le_mul_of_pos_left _ positive
      have quotient : length / 128 < 128 ^ (fuel + 1) := by
        rw [Nat.div_lt_iff_lt_mul (by decide), ← Nat.pow_succ]
        exact rounds
      have digit : (length % 128 + 128) % 128 = length % 128 := by omega
      have narrow : multiplier * 128 % 2 ^ 32 = 128 * multiplier := by
        rw [Nat.mul_comm]
        exact Nat.mod_eq_of_lt (by omega)
      have sum : (value + length % 128 * multiplier) % 2 ^ 32 =
          value + length % 128 * multiplier := Nat.mod_eq_of_lt (by omega)
      rw [encodeRounds_marked _ length more, List.cons_append, decodeRounds_marked _ _ _ _ marked,
        value_byte, digit, narrow, sum, ih (length / 128) (128 * multiplier) _ quotient (by omega)]
      congr 1
      omega

/-- Every number of 32 bits is read back, whatever lies behind it in the buffer. -/
theorem decode_encode (length : Nat) (rest : Bytes) (fits : length < 2 ^ 32) :
    decodeRemainingLength (encodeRemainingLength length ++ rest) = some length := by
  have rounds : length < 128 ^ (4 + 1) := Nat.lt_trans fits (by decide)
  have read := decodeRounds_encodeRounds 4 length 1 0 rest rounds (by omega)
  rw [Nat.zero_add, Nat.mul_one] at read
  exact read

/-- The stored bytes all have the mark, except the last one. Induction on the bound for the
number of marked bytes. -/
theorem encodeRounds_shape (bound fuel length : Nat) (small : length < 128 ^ (bound + 1))
    (enough : bound ≤ fuel) :
    ∃ front last, encodeRounds (fuel + 1) length = front ++ [last] ∧
      (∀ byte ∈ front, Continues byte) ∧ ¬ Continues last ∧ front.length ≤ bound := by
  induction bound generalizing fuel length with
  | zero =>
    have digit : length < 128 := by simpa using small
    exact ⟨[], _, encodeRounds_digit fuel length digit, by simp, plain_byte length digit,
      Nat.le_refl _⟩
  | succ bound ih =>
    rcases Nat.lt_or_ge length 128 with digit | more
    · exact ⟨[], _, encodeRounds_digit fuel length digit, by simp, plain_byte length digit,
        Nat.zero_le _⟩
    · obtain ⟨fuel, rfl⟩ : ∃ rest, fuel = rest + 1 := ⟨fuel - 1, by omega⟩
      have quotient : length / 128 < 128 ^ (bound + 1) := by
        rw [Nat.div_lt_iff_lt_mul (by decide), ← Nat.pow_succ]
        exact small
      obtain ⟨front, last, shape, marked, plain, short⟩ := ih fuel _ quotient (by omega)
      refine ⟨UInt8.ofNat (length % 128 ||| 128) :: front, last, ?_, ?_, plain, ?_⟩
      · rw [encodeRounds_marked _ length more, shape, List.cons_append]
      · exact List.forall_mem_cons.mpr ⟨(marked_byte length).2, marked⟩
      · rw [List.length_cons]
        omega

/-- A length below two to the 28 takes at most four bytes, all but the last with the mark. -/
theorem encode_shape (length : Nat) (small : length < 2 ^ 28) :
    ∃ front last, encodeRemainingLength length = front ++ [last] ∧
      (∀ byte ∈ front, Continues byte) ∧ ¬ Continues last ∧ front.length ≤ 3 :=
  encodeRounds_shape 3 4 length (Nat.lt_of_lt_of_eq small (by decide)) (by decide)

/-- Marked bytes in front of a last byte that is not zero denote a length that is not zero. -/
theorem decodeRounds_pos (front : Bytes) (last : UInt8) (rest : Bytes) (place value : Nat)
    (marked : ∀ byte ∈ front, Continues byte) (digit : 0 < last.toNat) (plain : ¬ Continues last)
    (short : place + front.length ≤ 3) (below : value < 128 ^ place) :
    ∃ length, decodeRounds (front ++ last :: rest) (128 ^ place) value = some length ∧
      0 < length := by
  induction front generalizing place value with
  | nil =>
    have small : last.toNat < 128 := by
      rw [continues_iff] at plain
      omega
    have bound : 128 ^ place ≤ 128 ^ 3 := Nat.pow_le_pow_right (by decide) (by simpa using short)
    have room : value + last.toNat * 128 ^ place < 2 ^ 32 := by
      have product : last.toNat * 128 ^ place ≤ 127 * 128 ^ 3 := Nat.mul_le_mul (by omega) bound
      omega
    have least : 1 ≤ last.toNat * 128 ^ place :=
      Nat.mul_pos digit (Nat.pow_pos (by decide))
    refine ⟨value + last.toNat * 128 ^ place, ?_, by omega⟩
    rw [List.nil_append, decodeRounds_plain _ _ _ _ plain, Nat.mod_eq_of_lt small,
      Nat.mod_eq_of_lt room]
  | cons byte front ih =>
    obtain ⟨first, others⟩ := List.forall_mem_cons.mp marked
    rw [List.length_cons] at short
    have bound : 128 ^ place ≤ 128 ^ 2 := Nat.pow_le_pow_right (by decide) (by omega)
    have low : byte.toNat % 128 ≤ 127 := by omega
    have product : byte.toNat % 128 * 128 ^ place ≤ 127 * 128 ^ place :=
      Nat.mul_le_mul_right _ low
    have narrow : 128 ^ place * 128 % 2 ^ 32 = 128 ^ (place + 1) := by
      rw [Nat.pow_succ]
      exact Nat.mod_eq_of_lt (by omega)
    have sum : (value + byte.toNat % 128 * 128 ^ place) % 2 ^ 32 =
        value + byte.toNat % 128 * 128 ^ place := Nat.mod_eq_of_lt (by omega)
    rw [List.cons_append, decodeRounds_marked _ _ _ _ first, narrow, sum]
    exact ih (place + 1) _ others (by omega) (by
      rw [Nat.pow_succ]
      omega)

end WhirlpoolAc.RemainingLength
