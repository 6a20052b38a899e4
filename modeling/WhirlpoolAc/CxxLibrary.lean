import WhirlpoolAc.ByteStrings
import WhirlpoolAc.SequenceSearch
import WhirlpoolAc.DecimalText
import Mathlib.Algebra.Group.Int.Defs

/-!
# The C++ library operations behind text commands

Checked lookups and text-to-number conversion, with the exceptions they raise.
`long` and `int` have 32 bits on the target, so a numeral outside that range is an
out-of-range error of the conversion itself.

An ordered map is given by its entries in insertion order. Inserting an equal key
later has no effect, so a lookup finds the first entry.
-/

namespace WhirlpoolAc.CxxLibrary

open ByteStrings DecimalText

/-- How a call can fail to return. The first three are C++ exceptions. The others
have no catchable counterpart: `unfinished` marks a loop that is still running when
its fuel is used up, `outOfBounds` a read past the end of an array. -/
inductive Exn where
  | outOfRange
  | invalidArgument
  | badFunctionCall
  | unfinished
  | outOfBounds
deriving DecidableEq, Repr

/-- A map with the entries of its initializer, in order. -/
abbrev Map (κ ν : Type) := List (κ × ν)

/-- `map::find`, with the absent iterator as `none`. -/
def Map.find {κ ν : Type} [BEq κ] (map : Map κ ν) (key : κ) : Option ν := map.lookup key

/-- `map::at`, which throws on an absent key. -/
def Map.at {κ ν : Type} [BEq κ] (map : Map κ ν) (key : κ) : Except Exn ν :=
  match map.find key with
  | some value => .ok value
  | none => .error .outOfRange

/-- Two calls in sequence return when the first one does and the second one returns on
its value. -/
theorem bind_ok_iff {α β : Type} (first : Except Exn α) (next : α → Except Exn β) (value : β) :
    (first >>= next) = .ok value ↔ ∃ middle, first = .ok middle ∧ next middle = .ok value := by
  cases first with
  | error exception => simp [bind, Except.bind]
  | ok middle => simp [bind, Except.bind]

/-- `basic_string::substr`, which throws when the start is past the end. -/
def substr (string : Bytes) (pos : Nat) (count : Option Nat) : Except Exn Bytes :=
  match SequenceSearch.substr string pos count with
  | some piece => .ok piece
  | none => .error .outOfRange

/-- `isspace` of the C locale. -/
def isSpace (byte : UInt8) : Bool := byte = 32 || (9 ≤ byte && byte ≤ 13)

/-- The value of a digit byte. -/
def digitValue (byte : UInt8) : Option Nat :=
  if 48 ≤ byte ∧ byte ≤ 57 then some (byte.toNat - 48) else none

/-- The byte of a decimal digit. -/
def digitByte (digit : Nat) : UInt8 := UInt8.ofNat (48 + digit)

/-- The number denoted by the digits at the front, if there is at least one. -/
def unsignedPrefix (bytes : Bytes) : Option Nat :=
  if digitRun digitValue bytes = [] then none else some (number (digitRun digitValue bytes))

/-- What `strtol` recognizes in base ten: leading space, one optional sign and a
run of digits; anything after the run is ignored. A terminator is neither space
nor sign nor digit, so the scan never reads past it. -/
def numericPrefix (bytes : Bytes) : Option Int :=
  match bytes.dropWhile isSpace with
  | [] => none
  | first :: rest =>
      if first = 45 then (unsignedPrefix rest).map fun value => -(value : Int)
      else if first = 43 then (unsignedPrefix rest).map Int.ofNat
      else (unsignedPrefix (first :: rest)).map Int.ofNat

/-- Values of a 32-bit `int`. -/
def FitsInt (value : Int) : Prop := -2 ^ 31 ≤ value ∧ value < 2 ^ 31

instance (value : Int) : Decidable (FitsInt value) := by unfold FitsInt; infer_instance

/-- `std::stoi`: no conversion is an invalid argument; a converted value that the
result type cannot hold is out of range. -/
def stoi (bytes : Bytes) : Except Exn Int :=
  match numericPrefix bytes with
  | none => .error .invalidArgument
  | some value => if FitsInt value then .ok value else .error .outOfRange

/-- Conversion of an `int` to an unsigned byte keeps the value modulo 256. -/
def toUInt8 (value : Int) : UInt8 := UInt8.ofNat (value % 256).toNat

/-- Conversion of an `int` to an unsigned sixteen-bit number keeps it modulo 65536. -/
def toUInt16 (value : Int) : UInt16 := UInt16.ofNat (value % 65536).toNat

/-- `std::to_string` of an unsigned value. -/
def toString (value : Nat) : Bytes := decimal digitByte value

/-- Looking up a tabulated function finds the first item with the key. -/
theorem Map.find_map {ι κ ν : Type} [BEq κ] [LawfulBEq κ] [DecidableEq κ] (items : List ι)
    (key : ι → κ) (value : ι → ν) (wanted : κ) :
    Map.find (items.map fun item => (key item, value item)) wanted =
      (items.find? fun item => key item = wanted).map value := by
  induction items with
  | nil => rfl
  | cons first rest ih =>
    by_cases found : key first = wanted
    · simp [Map.find, found]
    · have missed : (wanted == key first) = false := by
        simpa using fun same : wanted = key first => found same.symm
      simpa [Map.find, List.lookup_cons, missed, found] using ih

/-- Looking a key up after a change of all values. -/
theorem Map.find_map_entries {κ ν μ : Type} [BEq κ] [LawfulBEq κ] (map : Map κ ν)
    (change : κ → ν → μ) (key : κ) :
    Map.find (map.map fun entry => (entry.1, change entry.1 entry.2)) key =
      (map.find key).map (change key) := by
  induction map with
  | nil => rfl
  | cons entry rest ih =>
    obtain ⟨other, value⟩ := entry
    simp only [Map.find] at ih
    by_cases same : key = other
    · subst same
      simp [Map.find]
    · have missed : (key == other) = false := by simpa using same
      simp [Map.find, List.lookup_cons, missed, ih]

/-- A digit byte is read back as its digit. -/
theorem digitValue_digitByte (digit : Nat) (small : digit < 10) :
    digitValue (digitByte digit) = some digit := by
  revert digit
  decide

/-- A digit is neither space nor sign. -/
theorem digit_plain (byte : UInt8) (digit : Nat) (found : digitValue byte = some digit) :
    isSpace byte = false ∧ byte ≠ 45 ∧ byte ≠ 43 := by
  unfold digitValue at found
  split at found
  · next inside =>
    have low : 48 ≤ byte.toNat := inside.1
    refine ⟨?_, ?_, ?_⟩
    · simp [isSpace, ← UInt8.toNat_inj, UInt8.le_iff_toNat_le]
      omega
    · simp [← UInt8.toNat_inj]
      omega
    · simp [← UInt8.toNat_inj]
      omega
  · cases found

/-- A numeral denotes its value, also in front of text that starts no digit. -/
theorem unsignedPrefix_toString (value : Nat) (rest : Bytes)
    (stops : digitRun digitValue rest = []) :
    unsignedPrefix (toString value ++ rest) = some value := by
  have run : digitRun digitValue (toString value ++ rest) = decimalDigits value :=
    digitRun_decimal digitByte digitValue digitValue_digitByte value rest stops
  simp [unsignedPrefix, run, decimalDigits_ne_nil, number_decimalDigits]

/-- Bytes that start with a digit have neither leading space nor sign to strip. -/
theorem numericPrefix_digit (first : UInt8) (rest : Bytes)
    (plain : isSpace first = false ∧ first ≠ 45 ∧ first ≠ 43) :
    numericPrefix (first :: rest) = (unsignedPrefix (first :: rest)).map Int.ofNat := by
  simp [numericPrefix, plain]

/-- The text of an unsigned number converts to that number. -/
theorem numericPrefix_toString (value : Nat) :
    numericPrefix (toString value) = some (value : Int) := by
  have whole : unsignedPrefix (toString value) = some value := by
    simpa using unsignedPrefix_toString value [] rfl
  have text : toString value = (decimalDigits value).map digitByte :=
    decimal_eq_map digitByte value
  cases digits : decimalDigits value with
  | nil => exact absurd digits (decimalDigits_ne_nil value)
  | cons first others =>
    have small : first < 10 := decimalDigits_lt value first (by simp [digits])
    rw [text, digits, List.map_cons] at whole ⊢
    rw [numericPrefix_digit _ _ (digit_plain _ _ (digitValue_digitByte first small)), whole]
    rfl

/-- A byte from the letters on is neither space nor sign nor digit. -/
theorem letter_plain (byte : UInt8) (large : 65 ≤ byte.toNat) :
    isSpace byte = false ∧ digitValue byte = none ∧ byte ≠ 45 ∧ byte ≠ 43 := by
  refine ⟨?_, ?_, ?_, ?_⟩
  · simp [isSpace, ← UInt8.toNat_inj, UInt8.le_iff_toNat_le]
    omega
  · simp [digitValue, UInt8.le_iff_toNat_le]
    omega
  · simp [← UInt8.toNat_inj]
    omega
  · simp [← UInt8.toNat_inj]
    omega

/-- Folding moves letters to letters and so keeps what a byte is in a numeral. -/
theorem toLower_plain (byte : UInt8) :
    isSpace (toLower byte) = isSpace byte ∧ digitValue (toLower byte) = digitValue byte ∧
      (toLower byte = 45 ↔ byte = 45) ∧ (toLower byte = 43 ↔ byte = 43) := by
  unfold toLower
  split
  · next capital =>
    have large : 65 ≤ byte.toNat := capital.1
    have small : byte.toNat ≤ 90 := capital.2
    have sum : (byte + 32).toNat = byte.toNat + 32 := by
      rw [UInt8.toNat_add]
      have literal : (32 : UInt8).toNat = 32 := rfl
      omega
    obtain ⟨space, digit, minus, plus⟩ := letter_plain byte large
    obtain ⟨space', digit', minus', plus'⟩ := letter_plain (byte + 32) (by omega)
    exact ⟨space'.trans space.symm, digit'.trans digit.symm, iff_of_false minus' minus,
      iff_of_false plus' plus⟩
  · exact ⟨rfl, rfl, Iff.rfl, Iff.rfl⟩

/-- Folding keeps the digits at the front of a text. -/
theorem digitRun_lower (bytes : Bytes) :
    digitRun digitValue (lower bytes) = digitRun digitValue bytes := by
  induction bytes with
  | nil => rfl
  | cons first rest ih =>
    have digit := (toLower_plain first).2.1
    show digitRun digitValue (toLower first :: lower rest) = digitRun digitValue (first :: rest)
    simp only [digitRun, digit, ih]

/-- Leading space does not matter to a conversion. -/
theorem numericPrefix_space (first : UInt8) (rest : Bytes) (blank : isSpace first = true) :
    numericPrefix (first :: rest) = numericPrefix rest := by
  simp only [numericPrefix, List.dropWhile_cons, blank, if_true]

/-- Folding keeps the number a text converts to. -/
theorem numericPrefix_lower (bytes : Bytes) :
    numericPrefix (lower bytes) = numericPrefix bytes := by
  have unsigned (bytes : Bytes) : unsignedPrefix (lower bytes) = unsignedPrefix bytes := by
    rw [unsignedPrefix, digitRun_lower, unsignedPrefix]
  induction bytes with
  | nil => rfl
  | cons first rest ih =>
    obtain ⟨space, _, minus, plus⟩ := toLower_plain first
    have whole : unsignedPrefix (toLower first :: lower rest) = unsignedPrefix (first :: rest) :=
      unsigned (first :: rest)
    show numericPrefix (toLower first :: lower rest) = numericPrefix (first :: rest)
    by_cases blank : isSpace first = true
    · rw [numericPrefix_space _ _ (space.trans blank), numericPrefix_space _ _ blank, ih]
    · simp only [numericPrefix, List.dropWhile_cons, space, blank, Bool.false_eq_true, if_false,
        minus, plus, unsigned, whole]

end WhirlpoolAc.CxxLibrary
