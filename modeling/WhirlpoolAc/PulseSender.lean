import Mathlib.Data.BitVec
import Mathlib.Data.List.Basic

/-!
# The infrared sender

The sender emits marks and spaces of given lengths in microseconds. The raw-data
entry point reads a byte array bit by bit, least significant bit of byte zero
first, and emits one mark and one space for each bit; a final mark closes the last
space. It trusts its bit count, so a count beyond the array reads past its end.
That read has no result here.
-/

namespace WhirlpoolAc.PulseSender

/-- One interval on the infrared line, in microseconds. -/
inductive Signal where
  | mark (micros : Nat)
  | space (micros : Nat)
deriving DecidableEq, Repr

/-- The mark and space lengths of the two bit values. -/
structure BitTiming where
  aOneMarkMicros : Nat
  aOneSpaceMicros : Nat
  aZeroMarkMicros : Nat
  aZeroSpaceMicros : Nat

/-- Emission of one bit. -/
def BitTiming.signals (timing : BitTiming) (bit : Bool) : List Signal :=
  if bit then [.mark timing.aOneMarkMicros, .space timing.aOneSpaceMicros]
  else [.mark timing.aZeroMarkMicros, .space timing.aZeroSpaceMicros]

/-- `( data[ bit / 8 ] >> bit % 8 ) & 1`, without a value past the end. -/
def dataBit (data : List (BitVec 8)) (bit : Nat) : Option Bool :=
  data[bit / 8]?.map fun byte => (byte.toNat >>> (bit % 8)) &&& 1 = 1

/-- The loop over the bits that remain, starting at position `bit`. -/
def sendBits (timing : BitTiming) (data : List (BitVec 8)) : Nat → Nat → Option (List Signal)
  | 0, _ => some []
  | remaining + 1, bit => do
      let markbit ← dataBit data bit
      let rest ← sendBits timing data remaining (bit + 1)
      pure (timing.signals markbit ++ rest)

/-- `IRsend::sendPulseDistanceWidthRawData`. -/
def sendPulseDistanceWidthRawData (timing : BitTiming) (data : List (BitVec 8))
    (aNumberOfBits : UInt8) (sendStopBit : Bool) : Option (List Signal) := do
  let sent ← sendBits timing data aNumberOfBits.toNat 0
  pure (if sendStopBit then sent ++ [.mark timing.aZeroMarkMicros] else sent)

/-- The sequence of bits the loop reads, when all of them are in the array. -/
def bitsFrom (data : List (BitVec 8)) (start count : Nat) : List Bool :=
  (List.range' start count).map fun index => (data.getD (index / 8) 0).getLsbD (index % 8)

/-- Inside the array the shifted low bit is the stored bit. -/
theorem dataBit_inside (data : List (BitVec 8)) (bit : Nat) (inside : bit < 8 * data.length) :
    dataBit data bit = some ((data.getD (bit / 8) 0).getLsbD (bit % 8)) := by
  have stored : bit / 8 < data.length := by omega
  simp [dataBit, stored, BitVec.getLsbD, Nat.testBit, Nat.and_comm, Nat.one_and_eq_mod_two]

/-- While the bits lie inside the array the loop emits them in order. Induction on
the number of remaining bits follows the loop counter. -/
theorem sendBits_inside (timing : BitTiming) (data : List (BitVec 8)) (count start : Nat)
    (inside : start + count ≤ 8 * data.length) :
    sendBits timing data count start =
      some ((bitsFrom data start count).flatMap timing.signals) := by
  induction count generalizing start with
  | zero => rfl
  | succ count ih =>
    have rest := ih (start + 1) (by omega)
    simp [sendBits, dataBit_inside data start (by omega), rest, bitsFrom, List.range'_succ]

/-- The emission of a raw frame whose bit count fits its array. -/
theorem sendPulseDistanceWidthRawData_inside (timing : BitTiming) (data : List (BitVec 8))
    (aNumberOfBits : UInt8) (sendStopBit : Bool)
    (inside : aNumberOfBits.toNat ≤ 8 * data.length) :
    sendPulseDistanceWidthRawData timing data aNumberOfBits sendStopBit =
      some ((bitsFrom data 0 aNumberOfBits.toNat).flatMap timing.signals ++
        if sendStopBit then [.mark timing.aZeroMarkMicros] else []) := by
  rw [sendPulseDistanceWidthRawData, sendBits_inside timing data _ 0 (by omega)]
  cases sendStopBit <;> simp

end WhirlpoolAc.PulseSender
