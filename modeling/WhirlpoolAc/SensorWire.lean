import Mathlib.Data.Nat.Bitwise
import WhirlpoolAc.HumiditySensor
import WhirlpoolAc.PolledLine

/-!
# Reading the sensor's wire

The sensor answers on one wire: an acknowledgement, then forty pulses whose lengths are the
bits of five bytes. The driver polls the wire; it sees every edge a little late, and the
lengths it measures are off by what happens between its looks.

If the looks come densely enough for the pulses, the driver stores exactly the bytes that
were sent. Whatever the wire does, the driver comes back.
-/

namespace WhirlpoolAc.SensorWire

open WrappingClock PolledLine HumiditySensor

/-- `_bits`. -/
abbrev Buffer := Vector (BitVec 8) 5

/-- The answer stays low too long. -/
def DHTLIB_ERROR_TIMEOUT_A : Int := -2

/-- The first bit is a one, which no sensor sends. -/
def DHTLIB_ERROR_BIT_SHIFT : Int := -3

/-- The sensor does not pull the wire down. -/
def DHTLIB_ERROR_SENSOR_NOT_READY : Int := -4

/-- The low part of a bit takes too long. -/
def DHTLIB_ERROR_TIMEOUT_C : Int := -5

/-- The high part of a bit takes too long. -/
def DHTLIB_ERROR_TIMEOUT_D : Int := -6

/-- The answer stays high too long. -/
def DHTLIB_ERROR_TIMEOUT_B : Int := -7

/-- A bit that is high for more than these microseconds is a one. -/
def DHTLIB_BIT_THRESHOLD : Nat := 50

/-- The level of a wire that is pulled down. -/
def LOW : Bool := false

/-- The level of a wire that nothing pulls down. -/
def HIGH : Bool := true

/-- `micros()`: the low 32 bits of the true time in microseconds. -/
def micros (line : Line) (look : Nat) : BitVec 32 := line.counter 32 look

/-- `_waitFor`: whether the timeout has passed, and the next look. -/
def waitFor (line : Line) (state : Bool) (timeout fuel look : Nat) : Option (Bool × Nat) :=
  waitLoop line state timeout (micros line look) fuel 2 (look + 1)

/-- `_bits[idx] |= mask`, without a value past the end. -/
def store (bits : Buffer) (idx : Nat) (mask : BitVec 8) : Option Buffer :=
  if inside : idx < 5 then some (bits.set idx (bits[idx] ||| mask) inside) else none

/-- The loop over the bits that remain. -/
def bitLoop (line : Line) (fuel : Nat) :
    Nat → Buffer → BitVec 8 → Nat → Nat → Option (Int × Buffer × Nat)
  | 0, bits, _, _, look => some (DHTLIB_OK, bits, look)
  | remaining + 1, bits, mask, idx, look => do
      let (late, look) ← waitFor line HIGH 90 fuel look
      if late then pure (DHTLIB_ERROR_TIMEOUT_C, bits, look)
      else
        let t := micros line look
        let (late, look) ← waitFor line LOW 90 fuel (look + 1)
        if late then pure (DHTLIB_ERROR_TIMEOUT_D, bits, look)
        else
          let bits ←
            if (micros line look - t).toNat > DHTLIB_BIT_THRESHOLD then store bits idx mask
            else pure bits
          let mask := mask >>> 1
          if mask = 0 then bitLoop line fuel remaining bits 0x80 (idx + 1) (look + 1)
          else bitLoop line fuel remaining bits mask idx (look + 1)

/-- The rest of the wake-up, which ends when the wire has been low for long enough. -/
def wakeLoop (line : Line) (wakeupDelay : Nat) (startWakeup : BitVec 32) :
    Nat → Nat → Option Nat
  | 0, _ => none
  | fuel + 1, look =>
      if (micros line look - startWakeup).toNat < wakeupDelay * 1100 then
        wakeLoop line wakeupDelay startWakeup fuel (look + 1)
      else some (look + 1)

/-- What follows the wake-up: the acknowledgement and the bits. -/
def listen (line : Line) (type fuel look : Nat) : Option (Int × Buffer × Nat) := do
  let bits : Buffer := Vector.replicate 5 0
  let WAITFORSENSOR := if type = 11 then 15000 else 50
  let (late, look) ← waitFor line LOW WAITFORSENSOR fuel look
  if late then pure (DHTLIB_ERROR_SENSOR_NOT_READY, bits, look)
  else
    let (late, look) ← waitFor line HIGH 90 fuel look
    if late then pure (DHTLIB_ERROR_TIMEOUT_A, bits, look)
    else
      let (late, look) ← waitFor line LOW 90 fuel look
      if late then pure (DHTLIB_ERROR_TIMEOUT_B, bits, look)
      else
        let (rv, bits, look) ← bitLoop line fuel 40 bits 0x80 0 look
        if rv ≠ DHTLIB_OK then pure (rv, bits, look)
        else if bits[0] &&& 0x80 ≠ 0 then pure (DHTLIB_ERROR_BIT_SHIFT, bits, look)
        else pure (DHTLIB_OK, bits, look)

/-- `_readSensor`: its result, `_bits` and the next look. -/
def readSensor (line : Line) (type wakeupDelay look fuel : Nat) : Option (Int × Buffer × Nat) := do
  let look ← wakeLoop line wakeupDelay (micros line look) fuel (look + 1)
  listen line type fuel look

/-- A pulse of the sensor: low, then high for as long as its bit says. -/
structure Pulse where
  value : Bool
  low : Nat
  high : Nat

/-- The levels of a pulse. -/
def Pulse.levels (pulse : Pulse) : List (Bool × Nat) := [(LOW, pulse.low), (HIGH, pulse.high)]

/-- With looks at most `step` apart, a pulse is long enough to be seen, short enough not to
be given up, and its length is on the right side of the threshold. -/
structure Legible (step : Nat) (pulse : Pulse) : Prop where
  low_seen : 6 * step < pulse.low
  low_short : pulse.low + 4 * step < 90
  high_seen : 6 * step < pulse.high
  high_short : pulse.high + 4 * step < 90
  one : pulse.value = true → DHTLIB_BIT_THRESHOLD + 5 * step < pulse.high
  zero : pulse.value = false → pulse.high + 5 * step ≤ DHTLIB_BIT_THRESHOLD

/-- An answer of the sensor: how long it takes, its acknowledgement, the pulses and the low
level behind them. -/
structure Reply where
  ready : Nat
  acknowledgeLow : Nat
  acknowledgeHigh : Nat
  pulses : List Pulse
  tail : Nat

/-- The levels of an answer from the release of the wire on. -/
def Reply.levels (reply : Reply) : List (Bool × Nat) :=
  (HIGH, reply.ready) :: (LOW, reply.acknowledgeLow) :: (HIGH, reply.acknowledgeHigh) ::
    (reply.pulses.flatMap Pulse.levels ++ [(LOW, reply.tail)])

/-- The time that the driver gives the sensor to answer. -/
def patience (type : Nat) : Nat := if type = 11 then 15000 else 50

/-- An answer that can be read with looks at most `step` apart. -/
structure Reply.Legible (type step : Nat) (reply : Reply) : Prop where
  ready_short : reply.ready + 4 * step < patience type
  low_seen : 6 * step < reply.acknowledgeLow
  low_short : reply.acknowledgeLow + 4 * step < 90
  high_seen : 6 * step < reply.acknowledgeHigh
  high_short : reply.acknowledgeHigh + 4 * step < 90
  pulses : ∀ pulse ∈ reply.pulses, SensorWire.Legible step pulse
  tail : 4 * step < reply.tail

/-- The bits of five bytes in the order on the wire, the highest one of each byte first. -/
def sentBits (data : Buffer) : List Bool :=
  (List.range 40).map fun index => (data.toList.getD (index / 8) 0).getMsbD (index % 8)

/-- The mask after a number of bits. -/
def maskAfter (count : Nat) : BitVec 8 := 0x80#8 >>> (count % 8)

/-- The buffer holds the received bits at their places, and nothing else. -/
def Packed (received : List Bool) (bits : Buffer) : Prop :=
  ∀ word, (inside : word < 5) → ∀ index, index < 8 →
    (bits[word]).getLsbD index = received.getD (8 * word + (7 - index)) false

/-- A wait for an edge. -/
theorem waitFor_seen {line : Line} {state : Bool} {step known since edge hold : Nat}
    (timeout : Nat) (narrow : timeout ≤ 2 ^ 32) (fine : Fine line step known) (look : Nat)
    (from_known : known ≤ look)
    (around : Edge line state since edge hold) (begun : since ≤ line.moment look)
    (before : line.moment look ≤ edge) (holds : 4 * step < hold)
    (inTime : edge + 4 * step < line.moment look + timeout) :
    ∃ last, look < last ∧ edge ≤ line.moment last ∧ line.moment last ≤ edge + 4 * step ∧
      Returns (fun fuel => waitFor line state timeout fuel look) (false, last + 1) := by
  obtain ⟨last, behind, after, bound, returns⟩ := waitLoop_seen fine
    (around.later (line.moment look) begun) narrow 1 look from_known (Nat.le_refl _) before
    (by omega) (by omega)
  exact ⟨last, behind, after, by omega, returns⟩

/-- The level behind a pulse is low, and long enough to be seen. -/
theorem low_follows (step tail : Nat) (pulses : List Pulse)
    (legible : ∀ pulse ∈ pulses, Legible step pulse) (last : 4 * step < tail) :
    ∃ hold others, pulses.flatMap Pulse.levels ++ [(LOW, tail)] = (LOW, hold) :: others ∧
      4 * step < hold := by
  cases pulses with
  | nil => exact ⟨tail, [], rfl, last⟩
  | cons pulse rest =>
    have seen := (legible pulse List.mem_cons_self).low_seen
    exact ⟨pulse.low, _, rfl, by omega⟩

/-- The driver sees both edges of a pulse, and measures its length with an error of at most
five steps. -/
theorem pulse_measured {line : Line} {step known start hold : Nat} (fine : Fine line step known)
    (pulse : Pulse) (legible : Legible step pulse) (others : List (Bool × Nat))
    (plays : Plays line start (pulse.levels ++ (LOW, hold) :: others)) (seen : 4 * step < hold)
    (look : Nat) (from_known : known ≤ look) (begun : start ≤ line.moment look)
    (recent : line.moment look ≤ start + 6 * step) :
    ∃ rise fall, look < rise ∧ rise < fall ∧
      Returns (fun fuel => waitFor line HIGH 90 fuel look) (false, rise + 1) ∧
      Returns (fun fuel => waitFor line LOW 90 fuel (rise + 2)) (false, fall + 1) ∧
      ((micros line (fall + 1) - micros line (rise + 1)).toNat > DHTLIB_BIT_THRESHOLD ↔
        pulse.value = true) ∧
      start + pulse.low + pulse.high ≤ line.moment (fall + 2) ∧
      line.moment (fall + 2) ≤ start + pulse.low + pulse.high + 6 * step := by
  obtain ⟨lowSeen, lowShort, highSeen, highShort, one, zero⟩ := legible
  obtain ⟨rising, falling⟩ :
      Edge line HIGH start (start + pulse.low) pulse.high ∧
        Edge line LOW (start + pulse.low) (start + pulse.low + pulse.high) hold :=
    ⟨Plays.edge plays, Plays.edge plays.2⟩
  obtain ⟨rise, behindLook, afterRise, riseBound, rises⟩ := waitFor_seen 90 (by decide) fine look
    from_known rising begun (by omega) (by omega) (by omega)
  have timed := fine.two rise (by omega)
  have riseLater := line.moment_mono rise (rise + 1) (by omega)
  have riseLatest := line.moment_mono (rise + 1) (rise + 2) (by omega)
  have secondStart : line.moment (rise + 2) ≤ line.moment (rise + 1) + step :=
    fine (rise + 1) (by omega)
  obtain ⟨fall, behindRise, afterFall, fallBound, falls⟩ := waitFor_seen 90 (by decide) fine
    (rise + 2) (by omega) falling (by omega) (by omega) (by omega) (by omega)
  have ended := fine.two fall (by omega)
  have fallLater := line.moment_mono fall (fall + 1) (by omega)
  have fallLatest := line.moment_mono (fall + 1) (fall + 2) (by omega)
  have measured : (micros line (fall + 1) - micros line (rise + 1)).toNat =
      line.moment (fall + 1) - line.moment (rise + 1) :=
    elapsed_eq _ _ (by omega) (by omega)
  have after : line.moment (fall + 2) ≤ line.moment (fall + 1) + step :=
    fine (fall + 1) (by omega)
  refine ⟨rise, fall, behindLook, by omega, rises, falls, ?_, by omega, by omega⟩
  rw [measured]
  unfold DHTLIB_BIT_THRESHOLD at one zero ⊢
  cases value : pulse.value with
  | true =>
    have long := one value
    simp only [iff_true]
    omega
  | false =>
    have short := zero value
    simp only [Bool.false_eq_true, iff_false]
    omega

/-- The mask selects one bit, from the highest one of a byte downwards. -/
theorem maskAfter_bit (count index : Nat) (inside : index < 8) :
    (maskAfter count).getLsbD index = decide (index + count % 8 = 7) := by
  have table : ∀ place : Nat, place < 8 → ∀ index, index < 8 →
      (0x80#8 >>> place).getLsbD index = decide (index + place = 7) := by decide
  exact table (count % 8) (Nat.mod_lt _ (by decide)) index inside

/-- Mask and index go on to the next bit together. -/
theorem maskAfter_next (count : Nat) :
    (maskAfter count >>> 1 = 0 ∧ maskAfter (count + 1) = 0x80 ∧
      (count + 1) / 8 = count / 8 + 1) ∨
    (maskAfter count >>> 1 ≠ 0 ∧ maskAfter (count + 1) = maskAfter count >>> 1 ∧
      (count + 1) / 8 = count / 8) := by
  have table : ∀ place : Nat, place < 8 → (0x80#8 >>> place >>> 1 = 0 ↔ place = 7) := by decide
  have ends := table (count % 8) (Nat.mod_lt _ (by decide))
  have small : count % 8 < 8 := Nat.mod_lt _ (by decide)
  by_cases last : count % 8 = 7
  · have again : (count + 1) % 8 = 0 := by omega
    refine .inl ⟨ends.mpr last, ?_, by omega⟩
    rw [maskAfter, again]
    rfl
  · have next : (count + 1) % 8 = count % 8 + 1 := by omega
    refine .inr ⟨fun zero => last (ends.mp zero), ?_, by omega⟩
    rw [maskAfter, next, BitVec.shiftRight_add]
    rfl

/-- A received bit behind others. -/
theorem getD_received (received : List Bool) (bit : Bool) (index : Nat) :
    (received ++ [bit]).getD index false =
      if index = received.length then bit else received.getD index false := by
  rcases Nat.lt_trichotomy index received.length with inside | same | outside
  · rw [if_neg (Nat.ne_of_lt inside), List.getD_append _ _ _ _ inside]
  · subst same
    rw [if_pos rfl, List.getD_append_right _ _ _ _ (Nat.le_refl _), Nat.sub_self]
    rfl
  · have beyond : (received ++ [bit]).length ≤ index := by
      rw [List.length_append, List.length_singleton]
      exact outside
    rw [if_neg (Nat.ne_of_gt outside), List.getD_eq_default _ _ beyond,
      List.getD_eq_default _ _ (Nat.le_of_lt outside)]

/-- A bit goes to its place. -/
theorem packed_store (received : List Bool) (bits : Buffer) (bit : Bool)
    (packed : Packed received bits) (room : received.length < 40) :
    ∃ next, (if bit = true then store bits (received.length / 8) (maskAfter received.length)
      else some bits) = some next ∧ Packed (received ++ [bit]) next := by
  have inside : received.length / 8 < 5 := by omega
  cases bit with
  | false =>
    refine ⟨bits, rfl, fun word small index low => ?_⟩
    rw [packed word small index low, getD_received]
    split
    · next same => rw [same, List.getD_eq_default _ _ (Nat.le_refl _)]
    · rfl
  | true =>
    refine ⟨_, (if_pos rfl).trans (dif_pos inside), fun word small index low => ?_⟩
    rw [getD_received, Vector.getElem_set]
    by_cases here : received.length / 8 = word
    · subst here
      rw [if_pos rfl, BitVec.getLsbD_or, packed _ small index low, maskAfter_bit _ _ low]
      by_cases place : 8 * (received.length / 8) + (7 - index) = received.length
      · have chosen : index + received.length % 8 = 7 := by omega
        simp [place, chosen]
      · have other : index + received.length % 8 ≠ 7 := by omega
        simp [place, other]
    · have elsewhere : 8 * word + (7 - index) ≠ received.length := by omega
      rw [if_neg here, if_neg elsewhere, packed word small index low]

/-- One round of the loop over the bits. -/
theorem bitLoop_round {line : Line} {remaining idx look rise fall : Nat} {bits next : Buffer}
    {mask : BitVec 8} {result : Int × Buffer × Nat}
    (rises : Returns (fun fuel => waitFor line HIGH 90 fuel look) (false, rise + 1))
    (falls : Returns (fun fuel => waitFor line LOW 90 fuel (rise + 2)) (false, fall + 1))
    (stored : (if (micros line (fall + 1) - micros line (rise + 1)).toNat > DHTLIB_BIT_THRESHOLD
      then store bits idx mask else some bits) = some next)
    (continues : Returns (fun fuel =>
      if mask >>> 1 = 0 then bitLoop line fuel remaining next 0x80 (idx + 1) (fall + 2)
      else bitLoop line fuel remaining next (mask >>> 1) idx (fall + 2)) result) :
    Returns (fun fuel => bitLoop line fuel (remaining + 1) bits mask idx look) result := by
  obtain ⟨first, rises⟩ := rises
  obtain ⟨second, falls⟩ := falls
  obtain ⟨third, continues⟩ := continues
  refine ⟨max first (max second third), fun fuel enough => ?_⟩
  have here := rises fuel (by omega)
  have there := falls fuel (by omega)
  have rest := continues fuel (by omega)
  simp only at here there rest
  show bitLoop line fuel (remaining + 1) bits mask idx look = some result
  rw [bitLoop, here]
  simp only [Option.bind_eq_bind, Option.bind_some, Bool.false_eq_true, if_false, there]
  by_cases long : (micros line (fall + 1) - micros line (rise + 1)).toNat > DHTLIB_BIT_THRESHOLD
  · rw [if_pos long] at stored
    rw [if_pos long, stored]
    exact rest
  · rw [if_neg long] at stored
    have same : bits = next := Option.some.inj stored
    rw [if_neg long, same]
    exact rest

/-- All pulses of an answer are stored. Induction on the pulses. -/
theorem bitLoop_pulses {line : Line} {step known : Nat} (fine : Fine line step known)
    (pulses : List Pulse) (legible : ∀ pulse ∈ pulses, Legible step pulse) (tail : Nat)
    (last : 4 * step < tail) (start look : Nat) (received : List Bool) (bits : Buffer)
    (plays : Plays line start (pulses.flatMap Pulse.levels ++ [(LOW, tail)]))
    (from_known : known ≤ look) (begun : start ≤ line.moment look)
    (recent : line.moment look ≤ start + 6 * step) (packed : Packed received bits)
    (room : received.length + pulses.length ≤ 40) :
    ∃ next after, Packed (received ++ pulses.map Pulse.value) next ∧
      Returns (fun fuel => bitLoop line fuel pulses.length bits (maskAfter received.length)
        (received.length / 8) look) (DHTLIB_OK, next, after) := by
  induction pulses generalizing start look received bits with
  | nil => exact ⟨bits, look, by simpa using packed, Returns.pure _⟩
  | cons pulse rest ih =>
    obtain ⟨first, others⟩ := List.forall_mem_cons.mp legible
    rw [List.length_cons] at room
    obtain ⟨hold, behind, shape, seen⟩ := low_follows step tail rest others last
    have whole : (pulse :: rest).flatMap Pulse.levels ++ [(LOW, tail)] =
        pulse.levels ++ (rest.flatMap Pulse.levels ++ [(LOW, tail)]) := by
      rw [List.flatMap_cons, List.append_assoc]
    rw [whole] at plays
    have later : Plays line (start + pulse.low + pulse.high)
        (rest.flatMap Pulse.levels ++ [(LOW, tail)]) := plays.2.2
    rw [shape] at plays
    obtain ⟨rise, fall, _, _, rises, falls, measured, reached, soon⟩ :=
      pulse_measured fine pulse first behind plays seen look from_known begun recent
    obtain ⟨stored, storing, packedNext⟩ :=
      packed_store received bits pulse.value packed (by omega)
    have kept : (if (micros line (fall + 1) - micros line (rise + 1)).toNat > DHTLIB_BIT_THRESHOLD
        then store bits (received.length / 8) (maskAfter received.length) else some bits) =
          some stored := by
      rw [← storing]
      simp only [measured]
    have size : (received ++ [pulse.value]).length = received.length + 1 := by
      rw [List.length_append, List.length_singleton]
    obtain ⟨next, after, packedAll, returns⟩ :=
      ih others (start + pulse.low + pulse.high) (fall + 2)
      (received ++ [pulse.value]) stored later (by omega) reached soon packedNext
      (by rw [size]; omega)
    rw [List.append_assoc] at packedAll
    refine ⟨next, after, packedAll, bitLoop_round rises falls kept (returns.congr fun fuel => ?_)⟩
    rw [size]
    rcases maskAfter_next received.length with ⟨ends, fresh, index⟩ | ⟨goes, same, index⟩
    · rw [if_pos ends, fresh, index]
    · rw [if_neg goes, same, index]

/-- The bits of a byte are found at their places. -/
theorem sentBits_getD (data : Buffer) (word index : Nat) (inside : word < 5) (low : index < 8) :
    (sentBits data).getD (8 * word + (7 - index)) false = (data[word]).getLsbD index := by
  have position : 8 * word + (7 - index) < 40 := by omega
  have quotient : (8 * word + (7 - index)) / 8 = word := by omega
  have remainder : (8 * word + (7 - index)) % 8 = 7 - index := by omega
  have opposite : 8 - 1 - (7 - index) = index := by omega
  have small : 7 - index < 8 := by omega
  simp [sentBits, List.getD_eq_getElem?_getD, position, quotient, remainder, inside,
    BitVec.getMsbD, small, opposite]

/-- A buffer that holds the bits of five bytes holds the bytes. -/
theorem packed_sentBits (data bits : Buffer) (packed : Packed (sentBits data) bits) :
    bits = data := by
  apply Vector.ext
  intro word inside
  apply BitVec.eq_of_getLsbD_eq
  intro index low
  rw [packed word inside index low, sentBits_getD data word index inside low]

/-- An empty buffer holds no bits. -/
theorem packed_nil : Packed [] (Vector.replicate 5 0) := by
  intro word inside index low
  simp

/-- What the driver says to five received bytes: the highest bit of the first one is never
set by a sensor. -/
def verdict (data : Buffer) : Int :=
  if data[0] &&& 0x80 ≠ 0 then DHTLIB_ERROR_BIT_SHIFT else DHTLIB_OK

/-- An answer that begins before the driver stops waiting for it is read. -/
theorem listen_reply {line : Line} {step known start : Nat} (fine : Fine line step known)
    (type : Nat) (reply : Reply) (legible : reply.Legible type step) (data : Buffer)
    (sends : reply.pulses.map Pulse.value = sentBits data)
    (plays : Plays line start reply.levels) (look : Nat) (from_known : known ≤ look)
    (begun : start ≤ line.moment look) (before : line.moment look ≤ start + reply.ready) :
    ∃ after, Returns (fun fuel => listen line type fuel look) (verdict data, data, after) := by
  obtain ⟨readyShort, lowSeen, lowShort, highSeen, highShort, pulses, tail⟩ := legible
  have narrow : patience type ≤ 2 ^ 32 := by
    unfold patience
    split <;> decide
  have acknowledged : Plays line (start + reply.ready)
      ((LOW, reply.acknowledgeLow) :: (HIGH, reply.acknowledgeHigh) ::
        (reply.pulses.flatMap Pulse.levels ++ [(LOW, reply.tail)])) := plays.2
  have sent : Plays line (start + reply.ready + reply.acknowledgeLow + reply.acknowledgeHigh)
      (reply.pulses.flatMap Pulse.levels ++ [(LOW, reply.tail)]) := plays.2.2.2
  obtain ⟨hold, behind, shape, seen⟩ := low_follows step reply.tail reply.pulses pulses tail
  have high := acknowledged.2
  rw [shape] at high
  have falling : Edge line LOW start (start + reply.ready) reply.acknowledgeLow :=
    Plays.edge plays
  have rising : Edge line HIGH (start + reply.ready)
      (start + reply.ready + reply.acknowledgeLow) reply.acknowledgeHigh :=
    Plays.edge acknowledged
  have ending : Edge line LOW (start + reply.ready + reply.acknowledgeLow)
      (start + reply.ready + reply.acknowledgeLow + reply.acknowledgeHigh) hold :=
    Plays.edge high
  obtain ⟨first, behindLook, afterFirst, firstBound, falls⟩ := waitFor_seen (patience type) narrow
    fine look from_known falling begun before (by omega) (by omega)
  have firstNext := fine first (by omega)
  have firstLater := line.moment_mono first (first + 1) (by omega)
  obtain ⟨second, behindFirst, afterSecond, secondBound, rises⟩ := waitFor_seen 90 (by decide)
    fine (first + 1) (by omega) rising (by omega) (by omega) (by omega) (by omega)
  have secondNext := fine second (by omega)
  have secondLater := line.moment_mono second (second + 1) (by omega)
  obtain ⟨third, behindSecond, afterThird, thirdBound, again⟩ := waitFor_seen 90 (by decide)
    fine (second + 1) (by omega) ending (by omega) (by omega) seen (by omega)
  have thirdNext := fine third (by omega)
  have thirdLater := line.moment_mono third (third + 1) (by omega)
  have size : reply.pulses.length = 40 := by
    have sizes := congrArg List.length sends
    rw [List.length_map] at sizes
    rw [sizes, sentBits, List.length_map, List.length_range]
  obtain ⟨bits, after, packed, loops⟩ := bitLoop_pulses fine reply.pulses pulses reply.tail tail
    (start + reply.ready + reply.acknowledgeLow + reply.acknowledgeHigh) (third + 1) []
    (Vector.replicate 5 0) sent (by omega) (by omega) (by omega) packed_nil
    (by rw [size]; decide)
  rw [List.nil_append, sends] at packed
  have stored := packed_sentBits data bits packed
  subst stored
  rw [size] at loops
  obtain ⟨one, falls⟩ := falls
  obtain ⟨two, rises⟩ := rises
  obtain ⟨three, again⟩ := again
  obtain ⟨four, loops⟩ := loops
  refine ⟨after, max (max one two) (max three four), fun fuel enough => ?_⟩
  have waitedLow := falls fuel (by omega)
  have waitedHigh := rises fuel (by omega)
  have waitedAgain := again fuel (by omega)
  have looped : bitLoop line fuel 40 (Vector.replicate 5 0) 0x80 0 (third + 1) =
      some (DHTLIB_OK, bits, after) := loops fuel (by omega)
  simp only at waitedLow waitedHigh waitedAgain
  show listen line type fuel look = some (verdict bits, bits, after)
  unfold patience at waitedLow
  simp only [listen, waitedLow, Option.bind_eq_bind, Option.bind_some, Bool.false_eq_true,
    if_false, waitedHigh, waitedAgain, looped, ne_eq, not_true_eq_false]
  unfold verdict
  split <;> rfl

/-- The wake-up ends at a look behind which the counter shows enough. -/
theorem wakeLoop_some (line : Line) (wakeupDelay : Nat) (startWakeup : BitVec 32)
    (fuel look released : Nat)
    (woke : wakeLoop line wakeupDelay startWakeup fuel look = some released) :
    ∃ last, look ≤ last ∧ released = last + 1 ∧
      wakeupDelay * 1100 ≤ (micros line last - startWakeup).toNat := by
  induction fuel generalizing look with
  | zero => cases woke
  | succ fuel ih =>
    rw [wakeLoop] at woke
    split at woke
    · obtain ⟨last, later, same, long⟩ := ih (look + 1) woke
      exact ⟨last, by omega, same, long⟩
    · next up => exact ⟨look, Nat.le_refl _, (Option.some.inj woke).symm, Nat.le_of_not_lt up⟩

/-- The wire has been held low for at least the wake-up time of the sensor, however often
the counter wrapped around. -/
theorem wake_lasts (line : Line) (wakeupDelay look released : Nat)
    (woke : Returns (fun fuel => wakeLoop line wakeupDelay (micros line look) fuel (look + 1))
      released) :
    line.moment look + wakeupDelay * 1100 ≤ line.moment released := by
  obtain ⟨bound, large⟩ := woke
  obtain ⟨last, later, rfl, long⟩ := wakeLoop_some line wakeupDelay (micros line look) bound
    (look + 1) released (large bound (Nat.le_refl _))
  have ordered := line.moment_mono look last (by omega)
  have elapsed : (micros line last - micros line look).toNat ≤
      line.moment last - line.moment look := elapsed_le _ _ ordered
  have behind := line.ordered last
  omega

/-- The wake-up ends, soon after its time. Induction on the looks that are left up to it. -/
theorem wakeLoop_ends {line : Line} {step known : Nat} (fine : Fine line step known)
    (wakeupDelay since look : Nat) (narrow : wakeupDelay * 1100 + step < 2 ^ 32)
    (from_known : known ≤ look) (begun : since ≤ line.moment look)
    (recent : line.moment look ≤ since + wakeupDelay * 1100) :
    ∃ last, look < last ∧ line.moment last ≤ since + wakeupDelay * 1100 + step ∧
      Returns (fun fuel => wakeLoop line wakeupDelay (shown 32 since) fuel (look + 1))
        (last + 1) := by
  obtain ⟨there, reached⟩ := line.endless (since + wakeupDelay * 1100)
  obtain ⟨rounds, enough⟩ : ∃ rounds, there ≤ look + 1 + rounds := ⟨there, by omega⟩
  induction rounds generalizing look with
  | zero =>
    have arrived := line.moment_mono there (look + 1) enough
    have next := fine look from_known
    have shows : (micros line (look + 1) - shown 32 since).toNat =
        line.moment (look + 1) - since := counter_sub line _ since (by omega) (by omega)
    refine ⟨look + 1, by omega, by omega, Returns.round (fun fuel => ?_) (.pure _)⟩
    rw [wakeLoop, shows, if_neg (by omega)]
  | succ rounds ih =>
    have next := fine look from_known
    have later := line.ordered look
    have shows : (micros line (look + 1) - shown 32 since).toNat =
        line.moment (look + 1) - since := counter_sub line _ since (by omega) (by omega)
    by_cases early : line.moment (look + 1) < since + wakeupDelay * 1100
    · obtain ⟨last, behind, bound, returns⟩ :=
        ih (look + 1) (by omega) (by omega) (by omega) (by omega)
      refine ⟨last, by omega, bound, Returns.round (fun fuel => ?_) returns⟩
      rw [wakeLoop, shows, if_pos (by omega)]
    · refine ⟨look + 1, by omega, by omega, Returns.round (fun fuel => ?_) (.pure _)⟩
      rw [wakeLoop, shows, if_neg (by omega)]

/-- For every five bytes, every answer of the sensor that carries them in legible pulses and
every schedule of looks that are at most `step` apart once the wire is released: the driver
stores exactly these bytes, and reports success exactly when the highest bit of the first
one is clear. Before that the wire has been low for the wake-up time. -/
theorem readSensor_decodes (line : Line) (type wakeupDelay look released step : Nat)
    (woke : Returns (fun fuel => wakeLoop line wakeupDelay (micros line look) fuel (look + 1))
      released)
    (fine : Fine line step released) (reply : Reply) (legible : reply.Legible type step)
    (data : Buffer) (sends : reply.pulses.map Pulse.value = sentBits data) (start : Nat)
    (plays : Plays line start reply.levels) (begun : start ≤ line.moment released)
    (before : line.moment released ≤ start + reply.ready) :
    line.moment look + wakeupDelay * 1100 ≤ line.moment released ∧
      ∃ after, Returns (readSensor line type wakeupDelay look) (verdict data, data, after) := by
  obtain ⟨after, listens⟩ := listen_reply fine type reply legible data sends plays released
    (Nat.le_refl _) begun before
  exact ⟨wake_lasts line wakeupDelay look released woke, after, woke.bind listens⟩

/-- Some line plays the levels from the time on, at any looks. -/
def played : Nat → List (Bool × Nat) → Nat → Bool
  | _, [], _ => HIGH
  | start, (level, duration) :: rest, time =>
      if time < start + duration then level else played (start + duration) rest time

/-- It does. -/
theorem plays_played (line : Line) (start : Nat) (levels : List (Bool × Nat))
    (same : ∀ time, start ≤ time → line.level time = played start levels time) :
    Plays line start levels := by
  induction levels generalizing start with
  | nil => trivial
  | cons first rest ih =>
    obtain ⟨level, duration⟩ := first
    refine ⟨fun time behind inside => ?_, ih (start + duration) fun time behind => ?_⟩
    · rw [same time behind, played, if_pos inside]
    · rw [same time (by omega), played, if_neg (by omega)]

/-- The bytes of 57.7 percent and 25.9 degrees. -/
def mild : Buffer := #v[0x02, 0x41, 0x01, 0x03, 0x47]

/-- An answer with these bytes and the lengths of the data sheet. -/
def mildReply : Reply where
  ready := 30
  acknowledgeLow := 80
  acknowledgeHigh := 80
  pulses := (sentBits mild).map fun bit => ⟨bit, 50, if bit then 70 else 27⟩
  tail := 50

/-- The answer at a driver that looks every two microseconds. -/
def mildLine : Line where
  level := played 1100 mildReply.levels
  moment := fun look => 2 * look
  ordered := fun look => by omega
  endless := fun time => ⟨time, by omega⟩

/-- The answer is legible. -/
theorem mildReply_legible : mildReply.Legible 22 2 := by
  refine ⟨by decide, by decide, by decide, by decide, by decide, ?_, by decide⟩
  intro pulse member
  obtain ⟨bit, _, rfl⟩ := List.mem_map.mp member
  cases bit with
  | false => exact ⟨by decide, by decide, by decide, by decide, by simp, fun _ => by decide⟩
  | true => exact ⟨by decide, by decide, by decide, by decide, fun _ => by decide, by simp⟩

/-- The driver reads it. -/
theorem readSensor_decodes_mild :
    ∃ after, Returns (readSensor mildLine 22 1 0) (DHTLIB_OK, mild, after) := by
  have fine : Fine mildLine 2 0 := fun look _ => by
    show 2 * (look + 1) ≤ 2 * look + 2
    omega
  obtain ⟨last, behind, bound, woke⟩ :=
    wakeLoop_ends fine 1 0 0 (by decide) (by decide) (by decide) (by decide)
  have long := wake_lasts mildLine 1 0 (last + 1) woke
  have begin : mildLine.moment 0 = 0 := rfl
  have next : mildLine.moment (last + 1) = mildLine.moment last + 2 := by
    show 2 * (last + 1) = 2 * last + 2
    omega
  obtain ⟨_, after, reads⟩ := readSensor_decodes mildLine 22 1 0 (last + 1) 2 woke
    (fine.later _ (by omega)) mildReply mildReply_legible mild (by decide) 1100
    (plays_played mildLine 1100 _ fun _ _ => rfl) (by omega)
    (by
      have ready : mildReply.ready = 30 := rfl
      omega)
  exact ⟨after, reads⟩

/-- Whatever the line does, a wait comes back. -/
theorem waitFor_ends {line : Line} {step known : Nat} (fine : Fine line step known) (state : Bool)
    (timeout look : Nat) (narrow : timeout + 2 * step < 2 ^ 32) (from_known : known ≤ look) :
    ∃ late next, look < next ∧ line.moment next ≤ line.moment look + timeout + 3 * step ∧
      Returns (fun fuel => waitFor line state timeout fuel look) (late, next) := by
  obtain ⟨late, last, behind, bound, returns⟩ := waitLoop_ends state fine narrow 2
    look from_known (Nat.le_refl _) (by omega)
  have next := fine last (by omega)
  exact ⟨late, last + 1, by omega, by omega, returns⟩

/-- A round of the loop over the bits that sees no rising edge. -/
theorem bitLoop_low {line : Line} {remaining idx look next : Nat} {bits : Buffer} {mask : BitVec 8}
    (waits : Returns (fun fuel => waitFor line HIGH 90 fuel look) (true, next)) :
    Returns (fun fuel => bitLoop line fuel (remaining + 1) bits mask idx look)
      (DHTLIB_ERROR_TIMEOUT_C, bits, next) := by
  obtain ⟨bound, waits⟩ := waits
  refine ⟨bound, fun fuel enough => ?_⟩
  have waited := waits fuel enough
  simp only at waited ⊢
  rw [bitLoop, waited]
  rfl

/-- A round of the loop over the bits that sees no falling edge. -/
theorem bitLoop_high {line : Line} {remaining idx look rise next : Nat} {bits : Buffer}
    {mask : BitVec 8}
    (rises : Returns (fun fuel => waitFor line HIGH 90 fuel look) (false, rise))
    (waits : Returns (fun fuel => waitFor line LOW 90 fuel (rise + 1)) (true, next)) :
    Returns (fun fuel => bitLoop line fuel (remaining + 1) bits mask idx look)
      (DHTLIB_ERROR_TIMEOUT_D, bits, next) := by
  obtain ⟨first, rises⟩ := rises
  obtain ⟨second, waits⟩ := waits
  refine ⟨max first second, fun fuel enough => ?_⟩
  have here := rises fuel (by omega)
  have there := waits fuel (by omega)
  simp only at here there ⊢
  rw [bitLoop, here]
  simp only [Option.bind_eq_bind, Option.bind_some, Bool.false_eq_true, if_false, there]
  rfl

/-- The loop over the bits comes to an end on any line, and never writes outside the
buffer. Induction on the bits that remain. -/
theorem bitLoop_ends {line : Line} {step known : Nat} (fine : Fine line step known)
    (narrow : 90 + 2 * step < 2 ^ 32) (remaining count look : Nat) (bits : Buffer)
    (size : count + remaining = 40) (from_known : known ≤ look) :
    ∃ rv next after, look ≤ after ∧
      line.moment after ≤ line.moment look + remaining * (180 + 8 * step) ∧
      rv ∈ [DHTLIB_OK, DHTLIB_ERROR_TIMEOUT_C, DHTLIB_ERROR_TIMEOUT_D] ∧
      Returns (fun fuel => bitLoop line fuel remaining bits (maskAfter count) (count / 8) look)
        (rv, next, after) := by
  induction remaining generalizing count look bits with
  | zero => exact ⟨_, bits, look, Nat.le_refl _, by omega, by simp, Returns.pure _⟩
  | succ remaining ih =>
    have more : (remaining + 1) * (180 + 8 * step) =
        remaining * (180 + 8 * step) + (180 + 8 * step) := Nat.succ_mul _ _
    obtain ⟨lateRise, rise, behindLook, riseBound, rises⟩ :=
      waitFor_ends fine HIGH 90 look narrow from_known
    cases lateRise with
    | true =>
      exact ⟨_, bits, rise, by omega, by omega, by simp, bitLoop_low rises⟩
    | false =>
      have riseNext := fine rise (by omega)
      obtain ⟨lateFall, fall, behindRise, fallBound, falls⟩ :=
        waitFor_ends fine LOW 90 (rise + 1) narrow (by omega)
      cases lateFall with
      | true =>
        exact ⟨_, bits, fall, by omega, by omega, by simp, bitLoop_high rises falls⟩
      | false =>
        have fallNext := fine fall (by omega)
        obtain ⟨rise, rfl⟩ : ∃ last, rise = last + 1 := ⟨rise - 1, by omega⟩
        obtain ⟨fall, rfl⟩ : ∃ last, fall = last + 1 := ⟨fall - 1, by omega⟩
        have inside : count / 8 < 5 := by omega
        obtain ⟨stored, storing⟩ : ∃ stored,
            (if (micros line (fall + 1) - micros line (rise + 1)).toNat > DHTLIB_BIT_THRESHOLD
              then store bits (count / 8) (maskAfter count) else some bits) = some stored := by
          split
          · exact ⟨_, dif_pos inside⟩
          · exact ⟨bits, rfl⟩
        obtain ⟨rv, next, after, later, bound, code, returns⟩ :=
          ih (count + 1) (fall + 2) stored (by omega) (by omega)
        refine ⟨rv, next, after, by omega, ?_, code,
          bitLoop_round rises falls storing (returns.congr fun fuel => ?_)⟩
        · have same : line.moment (fall + 1 + 1) = line.moment (fall + 2) := rfl
          omega
        · rcases maskAfter_next count with ⟨ends, fresh, index⟩ | ⟨goes, same, index⟩
          · rw [if_pos ends, fresh, index]
          · rw [if_neg goes, same, index]

/-- The codes of a reading. -/
def codes : List Int :=
  [DHTLIB_OK, DHTLIB_ERROR_BIT_SHIFT, DHTLIB_ERROR_SENSOR_NOT_READY, DHTLIB_ERROR_TIMEOUT_A,
    DHTLIB_ERROR_TIMEOUT_B, DHTLIB_ERROR_TIMEOUT_C, DHTLIB_ERROR_TIMEOUT_D]

/-- What is said of a reading: its code is one of those, and a success has the highest bit
of the first byte clear. -/
def Sensible (rv : Int) (bits : Buffer) : Prop :=
  rv ∈ codes ∧ (rv = DHTLIB_OK → bits[0] &&& 0x80 = 0)

/-- Listening comes to an end on any line. -/
theorem listen_ends {line : Line} {step known : Nat} (fine : Fine line step known)
    (narrow : 15000 + 2 * step < 2 ^ 32) (type look : Nat) (from_known : known ≤ look) :
    ∃ rv bits after, Sensible rv bits ∧
      line.moment after ≤ line.moment look + patience type + 7380 + 329 * step ∧
      Returns (fun fuel => listen line type fuel look) (rv, bits, after) := by
  have patient : patience type ≤ 15000 := by
    unfold patience
    split <;> decide
  obtain ⟨lateFirst, first, behindLook, firstBound, firstWait⟩ :=
    waitFor_ends fine LOW (patience type) look (by omega) from_known
  obtain ⟨lateSecond, second, behindFirst, secondBound, secondWait⟩ :=
    waitFor_ends fine HIGH 90 first (by omega) (by omega)
  obtain ⟨lateThird, third, behindSecond, thirdBound, thirdWait⟩ :=
    waitFor_ends fine LOW 90 second (by omega) (by omega)
  obtain ⟨rv, bits, after, later, bound, code, loops⟩ := bitLoop_ends fine (by omega) 40 0 third
    (Vector.replicate 5 0) rfl (by omega)
  obtain ⟨one, firstWait⟩ := firstWait
  obtain ⟨two, secondWait⟩ := secondWait
  obtain ⟨three, thirdWait⟩ := thirdWait
  obtain ⟨four, loops⟩ := loops
  unfold patience at firstWait
  simp only at firstWait secondWait thirdWait
  have looped (fuel : Nat) (enough : four ≤ fuel) :
      bitLoop line fuel 40 (Vector.replicate 5 0) 0x80 0 third = some (rv, bits, after) :=
    loops fuel enough
  cases lateFirst with
  | true =>
    refine ⟨DHTLIB_ERROR_SENSOR_NOT_READY, Vector.replicate 5 0, first, ⟨by decide, by decide⟩,
      by omega, one, fun fuel enough => ?_⟩
    simp only [listen, firstWait fuel enough, Option.bind_eq_bind, Option.bind_some, if_true]
    rfl
  | false =>
    cases lateSecond with
    | true =>
      refine ⟨DHTLIB_ERROR_TIMEOUT_A, Vector.replicate 5 0, second, ⟨by decide, by decide⟩,
        by omega, max one two, fun fuel enough => ?_⟩
      simp only [listen, firstWait fuel (by omega), secondWait fuel (by omega),
        Option.bind_eq_bind, Option.bind_some, if_true, Bool.false_eq_true, if_false]
      rfl
    | false =>
      cases lateThird with
      | true =>
        refine ⟨DHTLIB_ERROR_TIMEOUT_B, Vector.replicate 5 0, third, ⟨by decide, by decide⟩,
          by omega, max one (max two three), fun fuel enough => ?_⟩
        simp only [listen, firstWait fuel (by omega), secondWait fuel (by omega),
          thirdWait fuel (by omega), Option.bind_eq_bind, Option.bind_some, if_true,
          Bool.false_eq_true, if_false]
        rfl
      | false =>
        have runs (fuel : Nat) (enough : max (max one two) (max three four) ≤ fuel) :
            listen line type fuel look =
              if rv ≠ DHTLIB_OK then some (rv, bits, after)
              else if bits[0] &&& 0x80 ≠ 0 then some (DHTLIB_ERROR_BIT_SHIFT, bits, after)
              else some (DHTLIB_OK, bits, after) := by
          simp only [listen, firstWait fuel (by omega), secondWait fuel (by omega),
            thirdWait fuel (by omega), looped fuel (by omega), Option.bind_eq_bind,
            Option.bind_some, Bool.false_eq_true, if_false]
          rfl
        by_cases complete : rv = DHTLIB_OK
        · by_cases shifted : bits[0] &&& 0x80 = 0
          · refine ⟨DHTLIB_OK, bits, after, ⟨by decide, fun _ => shifted⟩, by omega, _,
              fun fuel enough => (runs fuel enough).trans ?_⟩
            rw [if_neg (fun other => other complete), if_neg (fun other => other shifted)]
          · have failed : DHTLIB_ERROR_BIT_SHIFT ≠ DHTLIB_OK := by decide
            refine ⟨DHTLIB_ERROR_BIT_SHIFT, bits, after,
              ⟨by decide, fun same => absurd same failed⟩, by omega, _,
              fun fuel enough => (runs fuel enough).trans ?_⟩
            rw [if_neg (fun other => other complete), if_pos shifted]
        · have known_code : rv ∈ codes := by
            simp only [List.mem_cons, List.not_mem_nil, or_false] at code
            rcases code with rfl | rfl | rfl
            · exact absurd rfl complete
            · decide
            · decide
          refine ⟨rv, bits, after, ⟨known_code, fun same => absurd same complete⟩, by omega, _,
            fun fuel enough => (runs fuel enough).trans ?_⟩
          rw [if_pos complete]

/-- Whatever the sensor does, what the driver comes back with is sensible. -/
theorem readSensor_sensible {line : Line} {type wakeupDelay look step after : Nat} {rv : Int}
    {bits : Buffer} (fine : Fine line step look) (small : wakeupDelay < 256)
    (narrow : step < 2 ^ 30)
    (answered : Returns (readSensor line type wakeupDelay look) (rv, bits, after)) :
    Sensible rv bits := by
  obtain ⟨last, behind, bound, woke⟩ := wakeLoop_ends fine wakeupDelay (line.moment look) look
    (by omega) (Nat.le_refl _) (Nat.le_refl _) (by omega)
  obtain ⟨other, others, late, sensible, _, listens⟩ :=
    listen_ends fine (by omega) type (last + 1) (by omega)
  cases answered.unique (woke.bind listens)
  exact sensible

/-- Whatever the sensor does, even if it never moves the wire: the driver comes back with
one of its codes, a success only without the bit that no sensor sets, and no later than the
wake-up, the time for an answer and the time for forty pulses allow. -/
theorem readSensor_ends (line : Line) (type wakeupDelay look step : Nat)
    (fine : Fine line step look) (small : wakeupDelay < 256) (narrow : step < 2 ^ 30) :
    ∃ rv bits after, Returns (readSensor line type wakeupDelay look) (rv, bits, after) ∧
      Sensible rv bits ∧
      line.moment after ≤
        line.moment look + wakeupDelay * 1100 + patience type + 7380 + 331 * step := by
  obtain ⟨last, behind, bound, woke⟩ := wakeLoop_ends fine wakeupDelay (line.moment look) look
    (by omega) (Nat.le_refl _) (Nat.le_refl _) (by omega)
  have next := fine last (by omega)
  obtain ⟨rv, bits, after, sensible, later, listens⟩ :=
    listen_ends fine (by omega) type (last + 1) (by omega)
  exact ⟨rv, bits, after, woke.bind listens, sensible, by omega⟩

/-- A wire that nothing is connected to. -/
def silentLine : Line where
  level := fun _ => HIGH
  moment := fun look => 2 * look
  ordered := fun look => by omega
  endless := fun time => ⟨time, by omega⟩

/-- Without a sensor the driver is back in less than ten milliseconds. -/
theorem readSensor_ends_silent :
    ∃ rv bits after, Returns (readSensor silentLine 22 1 0) (rv, bits, after) ∧
      Sensible rv bits ∧ silentLine.moment after ≤ 9192 := by
  have fine : Fine silentLine 2 0 := fun look _ => by
    show 2 * (look + 1) ≤ 2 * look + 2
    omega
  obtain ⟨rv, bits, after, returns, sensible, bound⟩ :=
    readSensor_ends silentLine 22 1 0 2 fine (by decide) (by decide)
  exact ⟨rv, bits, after, returns, sensible, bound⟩

end WhirlpoolAc.SensorWire
