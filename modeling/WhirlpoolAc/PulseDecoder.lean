import WhirlpoolAc.DecimalText

/-!
# The pulse distance decoder

The receiving script reads lines of a pulse recorder and collects bits: a mark and
the space after it are a header when they differ much, a one when the space is more
than twice the mark, and a zero otherwise. A long space ends a command and fixes its
length, a timeout hands over what has been collected.

Lines are matched from their start only; a number is the longest run of decimal
digits of any script, as the language's regular expressions have it. What the script
writes to the terminal is left out.
-/

namespace WhirlpoolAc.PulseDecoder

open DecimalText

universe u

/-- The zeros of all decimal digit ranges of Unicode; each range is ten characters. -/
def decimalZeros : List Nat :=
  [48, 1632, 1776, 1984, 2406, 2534, 2662, 2790, 2918, 3046, 3174, 3302, 3430, 3558, 3664, 3792,
    3872, 4160, 4240, 6112, 6160, 6470, 6608, 6784, 6800, 6992, 7088, 7232, 7248, 42528, 43216,
    43264, 43472, 43504, 43600, 44016, 65296, 66720, 68912, 69734, 69872, 69942, 70096, 70384,
    70736, 70864, 71248, 71360, 71472, 71904, 72016, 72784, 73040, 73120, 92768, 92864, 93008,
    120782, 120792, 120802, 120812, 120822, 123200, 123632, 125264, 130032]

/-- The value of a decimal digit. -/
def digitOf (char : Char) : Option Nat :=
  (decimalZeros.find? fun base => base ≤ char.toNat ∧ char.toNat < base + 10).map
    fun base => char.toNat - base

/-- `re.match` of a word followed by a group of digits, and the `int` of the group. -/
def matchNumber (word line : List Char) : Option Nat :=
  if word.isPrefixOf line then
    let digits := digitRun digitOf (line.drop word.length)
    if digits = [] then none else some (number digits)
  else none

/-- The loop behind `chunk`: pieces of the given size until an empty one. Every piece
takes at least one item, so as many rounds as items and one more suffice. -/
def chunkLoop {α : Type u} (size : Nat) : Nat → List α → List (List α)
  | 0, _ => []
  | fuel + 1, it =>
      if (it.take size).isEmpty then []
      else it.take size :: chunkLoop size fuel (it.drop size)

/-- Successive pieces of a sequence. -/
def chunk {α : Type u} (it : List α) (size : Nat) : List (List α) :=
  chunkLoop size (it.length + 1) it

/-- The inner loop of `translateToByte`: bit number `index` of the word is set when
the item is true. -/
def wordLoop : List Nat → Nat → Nat → Nat
  | [], word, _ => word
  | bitInWord :: wordData, word, index =>
      wordLoop wordData (if bitInWord ≠ 0 then word ||| 1 <<< index else word) (index + 1)

/-- One call of a registered callback, with its two arguments. -/
structure Call (κ : Type u) where
  clb : κ
  bytes : List Nat
  receiveData : List Nat
deriving DecidableEq

/-- The decoder object. A callback is anything that can be registered. -/
structure PulseDistanceCoding (κ : Type u) where
  commandTimeOut : Nat
  headerOffset : Nat
  count : Nat
  pulse : Nat
  receiveData : List Nat
  events : List κ
  commandLength : Option Nat

namespace PulseDistanceCoding

variable {κ : Type u}

/-- `__init__`. -/
def init : PulseDistanceCoding κ where
  commandTimeOut := 11000
  headerOffset := 2000
  count := 0
  pulse := 0
  receiveData := []
  events := []
  commandLength := none

/-- Register a callback. -/
def onCommand (self : PulseDistanceCoding κ) (clb : κ) : PulseDistanceCoding κ :=
  { self with events := self.events ++ [clb] }

/-- The bits received, eight to a number. -/
def translateToByte (self : PulseDistanceCoding κ) : List Nat :=
  (chunk self.receiveData 8).map fun wordData => wordLoop wordData 0 0

/-- Every registered callback is called in turn. -/
def sendEvent (self : PulseDistanceCoding κ) : List (Call κ) :=
  self.events.map fun clb => ⟨clb, self.translateToByte, self.receiveData⟩

/-- Forget the bits of the frame. The number of bits to wait for stays. -/
def invalidate (self : PulseDistanceCoding κ) : PulseDistanceCoding κ :=
  { self with count := 0, receiveData := [] }

/-- A pulse and a space further apart than the offset are a header. -/
def isHeader (self : PulseDistanceCoding κ) (pulse space : Nat) : Bool :=
  ((pulse : Int) - space).natAbs > self.headerOffset

/-- A space of more than twice the pulse is a one. -/
def getBit (pulse space : Nat) : Bool := pulse * 2 < space

/-- The part of `analise` that deals with a space. -/
def receiveSpace (self : PulseDistanceCoding κ) (space : Nat) :
    PulseDistanceCoding κ × List (Call κ) :=
  if space > self.commandTimeOut then
    let self :=
      if self.commandLength = none ∧ self.count > 0 then
        { self with commandLength := some self.count }
      else self
    (self.invalidate, [])
  else if self.isHeader self.pulse space then (self, [])
  else
    let bit := if getBit self.pulse space then 1 else 0
    let self := { self with receiveData := self.receiveData ++ [bit], count := self.count + 1 }
    if some self.count = self.commandLength then (self.invalidate, self.sendEvent) else (self, [])

/-- One line of the recorder: the object afterwards and the calls made. -/
def analise (self : PulseDistanceCoding κ) (line : List Char) :
    PulseDistanceCoding κ × List (Call κ) :=
  match matchNumber "space ".toList line, matchNumber "pulse ".toList line with
  | some space, _ => self.receiveSpace space
  | none, some pulse => ({ self with pulse := pulse }, [])
  | none, none =>
      if "timeout".toList.isPrefixOf line then (self.invalidate, self.sendEvent)
      else (self.invalidate, [])

/-- Lines one after the other, with all calls in order. -/
def feed (self : PulseDistanceCoding κ) : List (List Char) → PulseDistanceCoding κ × List (Call κ)
  | [] => (self, [])
  | line :: lines =>
      let first := self.analise line
      let rest := feed first.1 lines
      (rest.1, first.2 ++ rest.2)

end PulseDistanceCoding

/-- The character of a decimal digit. -/
def digitChar (digit : Nat) : Char := Char.ofNat (48 + digit)

/-- A line of the recorder: a word and a number. -/
def recorderLine (word : String) (micros : Nat) : List Char :=
  word.toList ++ decimal digitChar micros

/-- The digits of a recorder line are read back. -/
theorem digitOf_digitChar (digit : Nat) (small : digit < 10) :
    digitOf (digitChar digit) = some digit := by
  revert digit
  decide

/-- The number of a line is matched behind its word. -/
theorem matchNumber_same (word : String) (micros : Nat) :
    matchNumber word.toList (recorderLine word micros) = some micros := by
  have present : word.toList.isPrefixOf (recorderLine word micros) = true :=
    List.isPrefixOf_iff_prefix.mpr (List.prefix_append _ _)
  have digits : digitRun digitOf (decimal digitChar micros) = decimalDigits micros := by
    simpa using digitRun_decimal digitChar digitOf digitOf_digitChar micros [] rfl
  rw [matchNumber, if_pos present, recorderLine, List.drop_left, digits,
    if_neg (decimalDigits_ne_nil micros), number_decimalDigits]

/-- A mark is remembered. -/
theorem analise_pulse {κ : Type u} (self : PulseDistanceCoding κ) (micros : Nat) :
    self.analise (recorderLine "pulse " micros) = ({ self with pulse := micros }, []) := by
  have other : matchNumber "space ".toList (recorderLine "pulse " micros) = none := rfl
  rw [PulseDistanceCoding.analise, other, matchNumber_same]

/-- A space is decoded. -/
theorem analise_space {κ : Type u} (self : PulseDistanceCoding κ) (micros : Nat) :
    self.analise (recorderLine "space " micros) = self.receiveSpace micros := by
  rw [PulseDistanceCoding.analise, matchNumber_same]

/-- A timeout hands over what has been collected. -/
theorem analise_timeout {κ : Type u} (self : PulseDistanceCoding κ) :
    self.analise "timeout".toList = (self.invalidate, self.sendEvent) := rfl

/-- A space of ordinary length that does not differ much from its mark adds one bit, and
the bit that completes the known command length hands the bits over. -/
theorem receiveSpace_similar {κ : Type u} (self : PulseDistanceCoding κ) (space : Nat)
    (short : space ≤ self.commandTimeOut)
    (similar : ((self.pulse : Int) - space).natAbs ≤ self.headerOffset) :
    self.receiveSpace space =
      let next : PulseDistanceCoding κ :=
        { self with
          receiveData := self.receiveData ++ [(PulseDistanceCoding.getBit self.pulse space).toNat],
          count := self.count + 1 }
      if some next.count = self.commandLength then (next.invalidate, next.sendEvent)
      else (next, []) := by
  have bit : (if PulseDistanceCoding.getBit self.pulse space = true then 1 else 0) =
      (PulseDistanceCoding.getBit self.pulse space).toNat := by
    cases PulseDistanceCoding.getBit self.pulse space <;> rfl
  simp [PulseDistanceCoding.receiveSpace, PulseDistanceCoding.isHeader, Nat.not_lt.mpr short,
    Nat.not_lt.mpr similar, bit]

/-- Before a command length is known, a space of ordinary length that does not differ
much from its mark adds one bit. -/
theorem receiveSpace_bit {κ : Type u} (self : PulseDistanceCoding κ) (space : Nat)
    (short : space ≤ self.commandTimeOut)
    (similar : ((self.pulse : Int) - space).natAbs ≤ self.headerOffset)
    (unknown : self.commandLength = none) :
    self.receiveSpace space =
      ({ self with
          receiveData := self.receiveData ++ [(PulseDistanceCoding.getBit self.pulse space).toNat],
          count := self.count + 1 }, []) := by
  simp [receiveSpace_similar self space short similar, unknown]

/-- A space that differs much from its mark is a header and changes nothing. -/
theorem receiveSpace_header {κ : Type u} (self : PulseDistanceCoding κ) (space : Nat)
    (short : space ≤ self.commandTimeOut)
    (different : self.headerOffset < ((self.pulse : Int) - space).natAbs) :
    self.receiveSpace space = (self, []) := by
  simp [PulseDistanceCoding.receiveSpace, PulseDistanceCoding.isHeader, Nat.not_lt.mpr short,
    different]

/-- Enough rounds make no difference. -/
theorem chunkLoop_enough {α : Type u} (size fuel more : Nat) (it : List α) (positive : 0 < size)
    (enough : it.length < fuel) (enoughMore : it.length < more) :
    chunkLoop size fuel it = chunkLoop size more it := by
  induction fuel generalizing more it with
  | zero => omega
  | succ fuel ih =>
    cases more with
    | zero => omega
    | succ more =>
      by_cases last : (it.take size).isEmpty
      · rw [chunkLoop, chunkLoop, if_pos last, if_pos last]
      · have shorter : (it.drop size).length < it.length := by
          have nonempty : it ≠ [] := by
            rintro rfl
            simp at last
          have present := List.length_pos_iff.mpr nonempty
          rw [List.length_drop]
          omega
        rw [chunkLoop, chunkLoop, if_neg last, if_neg last,
          ih more (it.drop size) (by omega) (by omega)]

/-- A nonempty sequence is a first piece and the pieces of the rest. -/
theorem chunk_cons {α : Type u} (first : α) (rest : List α) (size : Nat) (positive : 0 < size) :
    chunk (first :: rest) size =
      (first :: rest).take size :: chunk ((first :: rest).drop size) size := by
  obtain ⟨size, rfl⟩ := Nat.exists_eq_succ_of_ne_zero (Nat.pos_iff_ne_zero.mp positive)
  rw [chunk, chunkLoop, if_neg (by simp), chunk]
  congr 1
  apply chunkLoop_enough _ _ _ _ positive
  · simp only [List.drop_succ_cons, List.length_drop, List.length_cons]
    omega
  · exact Nat.lt_succ_self _

/-- A full piece in front is the first piece. -/
theorem chunk_append {α : Type u} (first rest : List α) (size : Nat) (positive : 0 < size)
    (full : first.length = size) : chunk (first ++ rest) size = first :: chunk rest size := by
  cases first with
  | nil =>
    rw [← full] at positive
    exact absurd positive (Nat.lt_irrefl 0)
  | cons head tail =>
    rw [List.cons_append, chunk_cons _ _ _ positive, ← List.cons_append,
      List.take_left' full, List.drop_left' full]

/-- At most one full piece is the only piece. -/
theorem chunk_short {α : Type u} (it : List α) (size : Nat) (present : it ≠ [])
    (short : it.length ≤ size) : chunk it size = [it] := by
  cases it with
  | nil => exact absurd rfl present
  | cons head tail =>
    have positive : 0 < size := Nat.lt_of_lt_of_le (Nat.succ_pos _) short
    have none : chunk ([] : List α) size = [] := by simp [chunk, chunkLoop]
    rw [chunk_cons _ _ _ positive, List.take_of_length_le short, List.drop_of_length_le short, none]

/-- Bit `position` of a collected word, counted from where the loop stands. -/
theorem wordLoop_testBit (items : List Nat) (word index position : Nat) :
    (wordLoop items word index).testBit position =
      (word.testBit position ||
        decide (index ≤ position ∧ items.getD (position - index) 0 ≠ 0)) := by
  induction items generalizing word index with
  | nil => simp [wordLoop]
  | cons item rest ih =>
    rw [wordLoop, ih, Nat.one_shiftLeft]
    rcases Nat.lt_trichotomy position index with before | here | behind
    · have shifted : (2 ^ index).testBit position = false :=
        Nat.testBit_two_pow_of_ne (Nat.ne_of_gt before)
      have early : ¬ index ≤ position ∧ ¬ index + 1 ≤ position := by omega
      split <;> simp [Nat.testBit_or, shifted, early]
    · subst here
      have shifted : (2 ^ position).testBit position = true := Nat.testBit_two_pow_self
      split
      · next one => simp [Nat.testBit_or, shifted, one]
      · next clear =>
        have behind : ¬ position + 1 ≤ position := Nat.not_succ_le_self position
        rw [not_not.mp clear, decide_eq_false fun inside => behind inside.1]
        simp
    · have shifted : (2 ^ index).testBit position = false :=
        Nat.testBit_two_pow_of_ne (Nat.ne_of_lt behind)
      have moved : position - index = (position - (index + 1)) + 1 := by omega
      split <;> simp [Nat.testBit_or, shifted, moved, Nat.le_of_lt behind, Nat.succ_le_of_lt behind]

end WhirlpoolAc.PulseDecoder
