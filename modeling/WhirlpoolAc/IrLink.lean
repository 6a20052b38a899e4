import WhirlpoolAc.Firmware
import WhirlpoolAc.PulseDecoder

/-!
# From the sender to the decoder

The sender's intervals reach the decoder as recorder lines, each interval off by up to
fifteen percent. Within that band every threshold of the decoder is on the right side:
the header stays a header, and each bit keeps its value. The decoder therefore
collects exactly the bits that were read from the buffer, and packs them back into
the bytes they came from.

Nothing is assumed about the array, the number of bits or the callbacks.
-/

namespace WhirlpoolAc.IrLink

open DecimalText PulseSender Firmware PulseDecoder

universe u
variable {κ : Type u}

/-- An interval within fifteen percent of the emitted one. -/
def Near : Signal → Signal → Prop
  | .mark sent, .mark received => ((received : Int) - sent).natAbs * 100 ≤ 15 * sent
  | .space sent, .space received => ((received : Int) - sent).natAbs * 100 ≤ 15 * sent
  | _, _ => False

/-- The recorder's line for an interval. -/
def line : Signal → List Char
  | .mark micros => recorderLine "pulse " micros
  | .space micros => recorderLine "space " micros

/-- The recorder's line for the end of a transmission. -/
def timeoutLine : List Char := "timeout".toList

/-- A decoder with its callbacks registered in order. -/
def fresh (callbacks : List κ) : PulseDistanceCoding κ :=
  callbacks.foldl PulseDistanceCoding.onCommand .init

/-- Bit `index` of an array, least significant bit of each byte first. -/
def rawBit (data : List (BitVec 8)) (index : Nat) : Nat :=
  ((data.getD (index / 8) 0).toNat >>> (index % 8)) &&& 1

/-- The first bytes of an array, as many as `count` bits need, with only the needed
low bits of the last one. -/
def maskedPrefix (data : List (BitVec 8)) (count : Nat) : List Nat :=
  let full := (count + 7) / 8 - 1
  (data.take full).map BitVec.toNat ++ [(data.getD full 0).toNat % 2 ^ (count - 8 * full)]

/-- An interval near a mark is a mark. -/
theorem near_mark (sent : Nat) (received : Signal) (near : Near (.mark sent) received) :
    ∃ micros, received = .mark micros ∧ ((micros : Int) - sent).natAbs * 100 ≤ 15 * sent := by
  cases received with
  | mark micros => exact ⟨micros, rfl, near⟩
  | space micros => exact absurd near id

/-- An interval near a space is a space. -/
theorem near_space (sent : Nat) (received : Signal) (near : Near (.space sent) received) :
    ∃ micros, received = .space micros ∧ ((micros : Int) - sent).natAbs * 100 ≤ 15 * sent := by
  cases received with
  | space micros => exact ⟨micros, rfl, near⟩
  | mark micros => exact absurd near id

/-- What is received near a mark, a space and what follows them. -/
theorem near_pair (sentMark sentSpace : Nat) (behind received : List Signal)
    (near : List.Forall₂ Near (.mark sentMark :: .space sentSpace :: behind) received) :
    ∃ mark space others, received = .mark mark :: .space space :: others ∧
      ((mark : Int) - sentMark).natAbs * 100 ≤ 15 * sentMark ∧
      ((space : Int) - sentSpace).natAbs * 100 ≤ 15 * sentSpace ∧
      List.Forall₂ Near behind others := by
  obtain ⟨first, later, nearFirst, nearLater, rfl⟩ := List.forall₂_cons_left_iff.mp near
  obtain ⟨second, others, nearSecond, nearOthers, rfl⟩ := List.forall₂_cons_left_iff.mp nearLater
  obtain ⟨mark, rfl, nearMark⟩ := near_mark _ _ nearFirst
  obtain ⟨space, rfl, nearSpace⟩ := near_space _ _ nearSecond
  exact ⟨mark, space, others, rfl, nearMark, nearSpace, nearOthers⟩

/-- What is received near a last mark. -/
theorem near_stop (sent : Nat) (received : List Signal)
    (near : List.Forall₂ Near [.mark sent] received) : ∃ stop, received = [.mark stop] := by
  obtain ⟨first, none, nearFirst, nearNone, rfl⟩ := List.forall₂_cons_left_iff.mp near
  obtain ⟨stop, rfl, _⟩ := near_mark _ _ nearFirst
  cases nearNone
  exact ⟨stop, rfl⟩

/-- Exact intervals are near. -/
theorem near_refl (sent : List Signal) : List.Forall₂ Near sent sent := by
  apply List.forall₂_same.mpr
  intro signal _
  cases signal <;> simp [Near]

/-- A decoder with the thresholds of the script that does not know a length yet. -/
structure Listening (decoder : PulseDistanceCoding κ) : Prop where
  timeOut : decoder.commandTimeOut = 11000
  offset : decoder.headerOffset = 2000
  unknown : decoder.commandLength = none

/-- Registering callbacks changes nothing else. -/
theorem fresh_eq (callbacks : List κ) :
    fresh callbacks =
      { (PulseDistanceCoding.init : PulseDistanceCoding κ) with events := callbacks } := by
  have registered (decoder : PulseDistanceCoding κ) :
      callbacks.foldl PulseDistanceCoding.onCommand decoder =
        { decoder with events := decoder.events ++ callbacks } := by
    induction callbacks generalizing decoder with
    | nil => simp
    | cons first rest ih => simp [ih, PulseDistanceCoding.onCommand]
  exact registered .init

/-- A line that calls nothing only changes the decoder for the lines behind it. -/
theorem feed_cons (decoder next : PulseDistanceCoding κ) (first : List Char)
    (rest : List (List Char)) (analised : decoder.analise first = (next, [])) :
    decoder.feed (first :: rest) = next.feed rest := by
  simp [PulseDistanceCoding.feed, analised]

/-- A timeout as the last line hands over what has been collected. -/
theorem feed_timeout (decoder : PulseDistanceCoding κ) :
    (decoder.feed [timeoutLine]).2 = decoder.sendEvent := by
  have last : decoder.analise timeoutLine = (decoder.invalidate, decoder.sendEvent) :=
    analise_timeout decoder
  rw [PulseDistanceCoding.feed, last]
  exact List.append_nil _

/-- Received near a header, mark and space are skipped. -/
theorem feed_header (decoder : PulseDistanceCoding κ) (timeOut : decoder.commandTimeOut = 11000)
    (offset : decoder.headerOffset = 2000)
    (mark space : Nat) (nearMark : ((mark : Int) - acHeaderMark).natAbs * 100 ≤ 15 * acHeaderMark)
    (nearSpace : ((space : Int) - acHeaderSpace).natAbs * 100 ≤ 15 * acHeaderSpace)
    (rest : List (List Char)) :
    decoder.feed (line (.mark mark) :: line (.space space) :: rest) =
      ({ decoder with pulse := mark } : PulseDistanceCoding κ).feed rest := by
  simp only [acHeaderMark, acHeaderSpace, acUnit] at nearMark nearSpace
  have short : space ≤ decoder.commandTimeOut := by
    rw [timeOut]
    omega
  have different : decoder.headerOffset < ((mark : Int) - space).natAbs := by
    rw [offset]
    omega
  refine (feed_cons decoder _ _ _ (analise_pulse decoder mark)).trans ?_
  refine feed_cons _ _ _ _ ((analise_space _ space).trans ?_)
  exact receiveSpace_header _ space short different

/-- Near the signals of a bit, a space is too short to end a command and too close to its
mark for a header, and the two decide the bit. -/
theorem near_bit (bit : Bool) (mark space : Nat)
    (nearMark : ((mark : Int) - acUnit).natAbs * 100 ≤ 15 * acUnit)
    (nearSpace : ((space : Int) - (if bit then 3 * acUnit else acUnit)).natAbs * 100 ≤
      15 * (if bit then 3 * acUnit else acUnit)) :
    PulseDistanceCoding.getBit mark space = bit ∧ space ≤ 11000 ∧
      ((mark : Int) - space).natAbs ≤ 2000 := by
  unfold PulseDistanceCoding.getBit
  cases bit with
  | false =>
    simp only [acUnit, Bool.false_eq_true, if_false] at nearMark nearSpace
    exact ⟨decide_eq_false (by omega), by omega, by omega⟩
  | true =>
    simp only [acUnit, if_true] at nearMark nearSpace
    exact ⟨decide_eq_true (by omega), by omega, by omega⟩

/-- Received near the signals of a bit, mark and space add that bit. -/
theorem feed_bit (decoder : PulseDistanceCoding κ) (listening : Listening decoder) (bit : Bool)
    (mark space : Nat) (nearMark : ((mark : Int) - acUnit).natAbs * 100 ≤ 15 * acUnit)
    (nearSpace : ((space : Int) - (if bit then 3 * acUnit else acUnit)).natAbs * 100 ≤
      15 * (if bit then 3 * acUnit else acUnit))
    (rest : List (List Char)) :
    decoder.feed (line (.mark mark) :: line (.space space) :: rest) =
      ({ decoder with
          pulse := mark, receiveData := decoder.receiveData ++ [bit.toNat],
          count := decoder.count + 1 } : PulseDistanceCoding κ).feed rest := by
  obtain ⟨decided, short, similar⟩ := near_bit bit mark space nearMark nearSpace
  rw [← listening.timeOut] at short
  rw [← listening.offset] at similar
  refine (feed_cons decoder _ _ _ (analise_pulse decoder mark)).trans ?_
  refine feed_cons _ _ _ _ ((analise_space _ space).trans ?_)
  refine (receiveSpace_bit { decoder with pulse := mark } space short similar
    listening.unknown).trans ?_
  rw [decided]

/-- Both bit values are a mark of one unit and a space of three units or one. -/
theorem signals_bit (bit : Bool) :
    acTiming.signals bit = [.mark acUnit, .space (if bit then 3 * acUnit else acUnit)] := by
  cases bit <;> rfl

/-- Received near the signals of a sequence of bits, the intervals add those bits and
leave what was received for the signals behind them. Induction on the bits; each takes
one mark and one space off the received list. -/
theorem feed_bits (bits : List Bool) (behind received : List Signal)
    (decoder : PulseDistanceCoding κ) (listening : Listening decoder)
    (near : List.Forall₂ Near (bits.flatMap acTiming.signals ++ behind) received) :
    ∃ pulse others, List.Forall₂ Near behind others ∧
      ∀ rest, decoder.feed (received.map line ++ rest) =
        ({ decoder with
            pulse := pulse, receiveData := decoder.receiveData ++ bits.map Bool.toNat,
            count := decoder.count + bits.length } : PulseDistanceCoding κ).feed
          (others.map line ++ rest) := by
  induction bits generalizing received decoder with
  | nil => exact ⟨decoder.pulse, received, near, fun rest => by simp⟩
  | cons bit bits ih =>
    simp only [List.flatMap_cons, signals_bit, List.cons_append, List.nil_append] at near
    obtain ⟨mark, space, last, rfl, nearMark, nearSpace, nearLast⟩ := near_pair _ _ _ _ near
    obtain ⟨pulse, others, nearOthers, fed⟩ := ih last
      { decoder with
        pulse := mark, receiveData := decoder.receiveData ++ [bit.toNat],
        count := decoder.count + 1 }
      ⟨listening.timeOut, listening.offset, listening.unknown⟩ nearLast
    refine ⟨pulse, others, nearOthers, fun rest => ?_⟩
    rw [List.map_cons, List.map_cons, List.cons_append, List.cons_append,
      feed_bit decoder listening bit mark space nearMark nearSpace, fed rest]
    simp [Nat.add_assoc, Nat.add_comm 1]

/-- The bits read from an array are its raw bits. -/
theorem bitsFrom_rawBit (data : List (BitVec 8)) (count : Nat) :
    (bitsFrom data 0 count).map Bool.toNat = (List.range count).map (rawBit data) := by
  rw [bitsFrom, List.map_map, List.range_eq_range']
  apply List.map_congr_left
  intro index _
  simp [rawBit, BitVec.getLsbD, Nat.toNat_testBit, Nat.shiftRight_eq_div_pow, Nat.and_one_is_mod]

/-- The bits of an array that needs more than its first byte. -/
theorem bitsFrom_cons (byte : BitVec 8) (rest : List (BitVec 8)) (count : Nat) (long : 8 ≤ count) :
    bitsFrom (byte :: rest) 0 count =
      (List.range 8).map byte.getLsbD ++ bitsFrom rest 0 (count - 8) := by
  obtain ⟨more, rfl⟩ := Nat.exists_eq_add_of_le long
  rw [Nat.add_sub_cancel_left, bitsFrom, bitsFrom, ← List.range_eq_range', ← List.range_eq_range',
    List.range_add, List.map_append, List.map_map]
  refine congrArg₂ (· ++ ·) ?_ ?_
  · apply List.map_congr_left
    intro index member
    have short : index < 8 := List.mem_range.mp member
    simp [Nat.div_eq_of_lt short, Nat.mod_eq_of_lt short]
  · apply List.map_congr_left
    intro index _
    have quotient : (8 + index) / 8 = index / 8 + 1 := by omega
    have remainder : (8 + index) % 8 = index % 8 := by omega
    simp [quotient, remainder]

/-- The low bits of a byte are packed back into their value. -/
theorem wordLoop_byte (byte : BitVec 8) (count : Nat) :
    wordLoop (((List.range count).map byte.getLsbD).map Bool.toNat) 0 0 =
      byte.toNat % 2 ^ count := by
  apply Nat.eq_of_testBit_eq
  intro position
  rw [wordLoop_testBit, Nat.testBit_mod_two_pow]
  by_cases inside : position < count
  · simp [inside, BitVec.getLsbD]
  · simp [inside]

/-- The bits read from an array are packed back into its first bytes. Induction on
the array: as long as more than eight bits remain, its first byte is one piece. -/
theorem pack_bits (data : List (BitVec 8)) (count : Nat) (positive : 0 < count)
    (inside : count ≤ 8 * data.length) :
    (chunk ((bitsFrom data 0 count).map Bool.toNat) 8).map (fun word => wordLoop word 0 0) =
      maskedPrefix data count := by
  induction data generalizing count with
  | nil =>
    simp only [List.length_nil] at inside
    omega
  | cons byte rest ih =>
    simp only [List.length_cons] at inside
    rcases Nat.lt_or_ge 8 count with long | short
    · have shorter := ih (count - 8) (by omega) (by omega)
      have first : wordLoop (((List.range 8).map byte.getLsbD).map Bool.toNat) 0 0 = byte.toNat :=
        (wordLoop_byte byte 8).trans (Nat.mod_eq_of_lt byte.isLt)
      have full : (count + 7) / 8 - 1 = ((count - 8 + 7) / 8 - 1) + 1 := by omega
      have left : count - 8 * (((count - 8 + 7) / 8 - 1) + 1) =
          count - 8 - 8 * ((count - 8 + 7) / 8 - 1) := by omega
      rw [bitsFrom_cons byte rest count (Nat.le_of_lt long), List.map_append,
        chunk_append _ _ 8 (by decide) (by simp), List.map_cons, first, shorter, maskedPrefix,
        maskedPrefix, full, left]
      simp
    · have bits : bitsFrom (byte :: rest) 0 count = (List.range count).map byte.getLsbD := by
        rw [bitsFrom, ← List.range_eq_range']
        apply List.map_congr_left
        intro index member
        have low : index < 8 := Nat.lt_of_lt_of_le (List.mem_range.mp member) short
        simp [Nat.div_eq_of_lt low, Nat.mod_eq_of_lt low]
      have present : ((List.range count).map byte.getLsbD).map Bool.toNat ≠ [] := by
        simp [Nat.ne_of_gt positive]
      have none : (count + 7) / 8 - 1 = 0 := by omega
      rw [bits, chunk_short _ 8 present (by simpa using short), maskedPrefix, none, List.map_cons,
        wordLoop_byte]
      simp

/-- For every array, every number of bits it holds and every list of callbacks: the
sender has signals for it, and whatever the decoder receives within fifteen percent of
each of them, followed by a timeout, calls every callback once, in order, with the
sent bits and with the bytes they were read from. -/
theorem link_round_trip (callbacks : List κ) (data : List (BitVec 8)) (numberOfBits : UInt8)
    (positive : 1 ≤ numberOfBits.toNat) (inside : numberOfBits.toNat ≤ 8 * data.length) :
    ∃ sent, emission data numberOfBits = some sent ∧
      ∀ received, List.Forall₂ Near sent received →
        ((fresh callbacks).feed (received.map line ++ [timeoutLine])).2 =
          callbacks.map fun clb =>
            { clb := clb, bytes := maskedPrefix data numberOfBits.toNat,
              receiveData := (List.range numberOfBits.toNat).map (rawBit data) } := by
  refine ⟨[.mark acHeaderMark, .space acHeaderSpace] ++
    ((bitsFrom data 0 numberOfBits.toNat).flatMap acTiming.signals ++ [.mark acUnit]), ?_, ?_⟩
  · rw [emission, sendPulseDistanceWidthRawData_inside acTiming data numberOfBits true inside]
    rfl
  · intro received near
    simp only [List.cons_append, List.nil_append] at near
    obtain ⟨mark, space, frame, rfl, nearMark, nearSpace, nearFrame⟩ := near_pair _ _ _ _ near
    have listening : Listening (fresh callbacks) := by
      rw [fresh_eq]
      exact ⟨rfl, rfl, rfl⟩
    obtain ⟨pulse, others, nearOthers, fed⟩ := feed_bits (bitsFrom data 0 numberOfBits.toNat)
      [.mark acUnit] frame { fresh callbacks with pulse := mark }
      ⟨listening.timeOut, listening.offset, listening.unknown⟩ nearFrame
    obtain ⟨stop, rfl⟩ := near_stop _ _ nearOthers
    have packed := pack_bits data numberOfBits.toNat positive inside
    rw [bitsFrom_rawBit] at packed
    rw [List.map_cons, List.map_cons, List.cons_append, List.cons_append,
      feed_header _ listening.timeOut listening.offset mark space nearMark nearSpace, fed,
      List.map_singleton, List.singleton_append]
    refine (congrArg Prod.snd (feed_cons _ _ _ _ (analise_pulse _ stop))).trans ?_
    rw [feed_timeout]
    simp only [PulseDistanceCoding.sendEvent, PulseDistanceCoding.translateToByte, fresh_eq,
      PulseDistanceCoding.init, List.nil_append, bitsFrom_rawBit, packed]

/-- Twelve bits of two bytes, received without any error by two callbacks. -/
theorem link_round_trip_twelve :
    ∃ sent, emission [0b10110001#8, 0b11111010#8] 12 = some sent ∧
      ((fresh ["first", "second"]).feed (sent.map line ++ [timeoutLine])).2 =
        ["first", "second"].map fun clb =>
          { clb := clb, bytes := [0b10110001, 0b1010],
            receiveData := [1, 0, 0, 0, 1, 1, 0, 1, 0, 1, 0, 1] } := by
  obtain ⟨sent, emitted, received⟩ := link_round_trip ["first", "second"]
    [0b10110001#8, 0b11111010#8] 12 (by decide) (by decide)
  exact ⟨sent, emitted, received sent (near_refl sent)⟩

end WhirlpoolAc.IrLink
