import WhirlpoolAc.DecoderResync

/-!
# A stream of equally long frames

Frames follow each other, each behind its own long space. The first one is not handed
over: its space teaches the decoder how long a command is. Each later one is handed
over by its last bit, so its stop mark and its space find nothing left to report.

What the decoder does with some lines is a relation between the length it knows and
the bits it holds before and after them, with the calls in between. The rules for a
mark, a space and a header compose along the stream.
-/

namespace WhirlpoolAc.StreamDecoding

open PulseSender Firmware PulseDecoder IrLink DecoderResync

universe u
variable {κ : Type u}

/-- A frame and the space behind it. -/
structure Sent where
  bits : List Bool
  gap : Nat

/-- The recorder's lines for a frame and its space. -/
def Sent.lines (sent : Sent) : List (List Char) :=
  (frame sent.bits).map line ++ [recorderLine "space " sent.gap]

/-- The lines of a stream. -/
def stream (frames : List Sent) : List (List Char) := frames.flatMap Sent.lines

/-- What the decoder knows and holds between two lines: the learned length and the bits. -/
structure Memory where
  length : Option Nat
  data : List Bool

/-- A decoder with its callbacks has that memory. -/
structure Holding (callbacks : List κ) (memory : Memory) (decoder : PulseDistanceCoding κ) :
    Prop where
  steady : Steady callbacks decoder
  held : decoder.receiveData = memory.data.map Bool.toNat
  known : decoder.commandLength = memory.length

/-- Every decoder with the first memory has the second one behind the lines, and makes
exactly the given calls. -/
def Receives (callbacks : List κ) (before : Memory) (lines : List (List Char)) (after : Memory)
    (calls : List (Call κ)) : Prop :=
  ∀ decoder, Holding callbacks before decoder →
    ∃ next, decoder.feed lines = (next, calls) ∧ Holding callbacks after next

/-- The counter of a decoder counts the bits it holds. -/
theorem Holding.count {callbacks : List κ} {memory : Memory} {decoder : PulseDistanceCoding κ}
    (holding : Holding callbacks memory decoder) : decoder.count = memory.data.length := by
  rw [holding.steady.counted, holding.held, List.length_map]

/-- Only the last mark differs. -/
theorem Holding.marked {callbacks : List κ} {memory : Memory} {decoder : PulseDistanceCoding κ}
    (holding : Holding callbacks memory decoder) (micros : Nat) :
    Holding callbacks memory { decoder with pulse := micros } := by
  obtain ⟨steady, held, known⟩ := holding
  exact ⟨⟨steady.timeOut, steady.offset, steady.events, steady.counted, steady.learned⟩, held,
    known⟩

/-- Lines are received one part after the other. -/
theorem feed_append (decoder : PulseDistanceCoding κ) (first second : List (List Char)) :
    decoder.feed (first ++ second) =
      (((decoder.feed first).1.feed second).1,
        (decoder.feed first).2 ++ ((decoder.feed first).1.feed second).2) := by
  induction first generalizing decoder with
  | nil => rfl
  | cons line rest ih =>
    rw [List.cons_append, PulseDistanceCoding.feed, ih, PulseDistanceCoding.feed,
      List.append_assoc]

/-- One line is received by its analysis. -/
theorem feed_single (decoder : PulseDistanceCoding κ) (text : List Char) :
    decoder.feed [text] = decoder.analise text :=
  congrArg (Prod.mk _) (List.append_nil _)

/-- No lines change nothing. -/
theorem Receives.nil (callbacks : List κ) (memory : Memory) :
    Receives callbacks memory [] memory [] :=
  fun decoder holding => ⟨decoder, rfl, holding⟩

/-- Receptions compose. -/
theorem Receives.append {callbacks : List κ} {before middle after : Memory}
    {first second : List (List Char)} {calls later : List (Call κ)}
    (receives : Receives callbacks before first middle calls)
    (continues : Receives callbacks middle second after later) :
    Receives callbacks before (first ++ second) after (calls ++ later) := by
  intro decoder holding
  obtain ⟨next, fed, between⟩ := receives decoder holding
  obtain ⟨last, rest, behind⟩ := continues next between
  refine ⟨last, ?_, behind⟩
  rw [feed_append, fed, rest]

/-- A mark is only remembered. -/
theorem receives_mark (callbacks : List κ) (memory : Memory) (micros : Nat) :
    Receives callbacks memory [line (.mark micros)] memory [] := by
  intro decoder holding
  have fed := (feed_single decoder _).trans (analise_pulse decoder micros)
  exact ⟨_, fed, holding.marked micros⟩

/-- A header changes nothing. -/
theorem receives_header (callbacks : List κ) (memory : Memory) :
    Receives callbacks memory ([.mark acHeaderMark, .space acHeaderSpace].map line) memory [] := by
  intro decoder holding
  have skipped := feed_header decoder holding.steady.timeOut holding.steady.offset acHeaderMark
    acHeaderSpace (by decide) (by decide) []
  exact ⟨_, skipped, holding.marked acHeaderMark⟩

/-- The mark and the space of a bit add it to the collected ones, and the bit that completes
the known length hands them over. -/
theorem feed_signals (callbacks : List κ) (memory : Memory) (decoder : PulseDistanceCoding κ)
    (holding : Holding callbacks memory decoder) (bit : Bool) :
    decoder.feed ((acTiming.signals bit).map line) =
      if some (memory.data.length + 1) = memory.length then
        ((collected decoder acUnit bit).invalidate, deliveries callbacks (memory.data ++ [bit]))
      else (collected decoder acUnit bit, []) := by
  have gathered : (collected decoder acUnit bit).receiveData =
      (memory.data ++ [bit]).map Bool.toNat := by
    simp [collected, holding.held]
  have handed : (collected decoder acUnit bit).sendEvent =
      deliveries callbacks (memory.data ++ [bit]) :=
    sendEvent_delivers callbacks (collected decoder acUnit bit) _ holding.steady.events gathered
  have pair := feed_pair callbacks decoder holding.steady bit acUnit
    (if bit then 3 * acUnit else acUnit) (by simp) (by simp) []
  rw [handed, holding.count, holding.known] at pair
  rw [signals_bit]
  refine pair.trans ?_
  split
  · exact congrArg (Prod.mk _) (List.append_nil _)
  · rfl

/-- A bit that does not complete the known length is collected. -/
theorem receives_bit (callbacks : List κ) (memory : Memory) (bit : Bool)
    (incomplete : some (memory.data.length + 1) ≠ memory.length) :
    Receives callbacks memory ((acTiming.signals bit).map line)
      { memory with data := memory.data ++ [bit] } [] := by
  intro decoder holding
  have fed := feed_signals callbacks memory decoder holding bit
  rw [if_neg incomplete] at fed
  have steady := steady_collected callbacks decoder acUnit bit holding.steady
  have held : (collected decoder acUnit bit).receiveData =
      (memory.data ++ [bit]).map Bool.toNat := by
    simp [collected, holding.held]
  exact ⟨_, fed, steady, held, holding.known⟩

/-- The bit that completes the known length hands over all bits and leaves none. -/
theorem receives_last_bit (callbacks : List κ) (data : List Bool) (bit : Bool) :
    Receives callbacks ⟨some (data.length + 1), data⟩ ((acTiming.signals bit).map line)
      ⟨some (data.length + 1), []⟩ (deliveries callbacks (data ++ [bit])) := by
  intro decoder holding
  have fed := feed_signals callbacks _ decoder holding bit
  rw [if_pos rfl] at fed
  have steady := steady_invalidate callbacks _
    (steady_collected callbacks decoder acUnit bit holding.steady)
  exact ⟨_, fed, steady, rfl, holding.known⟩

/-- Bits that stay below a known length are collected. Induction on the bits. -/
theorem receives_bits (callbacks : List κ) (bits : List Bool) (memory : Memory)
    (short : ∀ length, memory.length = some length →
      memory.data.length + bits.length < length) :
    Receives callbacks memory ((bits.flatMap acTiming.signals).map line)
      { memory with data := memory.data ++ bits } [] := by
  induction bits generalizing memory with
  | nil =>
    rw [List.append_nil]
    exact Receives.nil callbacks memory
  | cons bit rest ih =>
    have incomplete : some (memory.data.length + 1) ≠ memory.length := by
      intro complete
      have bound := short _ complete.symm
      rw [List.length_cons] at bound
      omega
    have first := receives_bit callbacks memory bit incomplete
    have later := ih { memory with data := memory.data ++ [bit] } (by
      intro length known
      have bound := short length known
      simp only [List.length_append, List.length_cons, List.length_nil] at bound ⊢
      omega)
    have both := first.append later
    rw [List.flatMap_cons, List.map_append]
    simpa using both

/-- A long space behind bits teaches an unknown length and clears the bits. -/
theorem receives_gap_learning (callbacks : List κ) (data : List Bool) (micros : Nat)
    (present : data ≠ []) (long : 11000 < micros) :
    Receives callbacks ⟨none, data⟩ [recorderLine "space " micros] ⟨some data.length, []⟩ [] := by
  intro decoder holding
  have beyond : micros > decoder.commandTimeOut := holding.steady.timeOut ▸ long
  have positive : 0 < data.length := List.length_pos_iff.mpr present
  have counted : decoder.count = data.length := holding.count
  have learns : decoder.commandLength = none ∧ decoder.count > 0 := ⟨holding.known, by omega⟩
  have learned : some decoder.count = some data.length := congrArg some counted
  have nonzero : some decoder.count ≠ some 0 := by
    intro zero
    have empty : decoder.count = 0 := Option.some.inj zero
    omega
  refine ⟨({ decoder with commandLength := some decoder.count } :
    PulseDistanceCoding κ).invalidate, ?_, ?_, rfl, learned⟩
  · rw [feed_single, analise_space, PulseDistanceCoding.receiveSpace, if_pos beyond, if_pos learns]
  · apply steady_invalidate
    exact ⟨holding.steady.timeOut, holding.steady.offset, holding.steady.events,
      holding.steady.counted, nonzero⟩

/-- A long space behind a known length only clears the bits. -/
theorem receives_gap (callbacks : List κ) (length : Nat) (data : List Bool) (micros : Nat)
    (long : 11000 < micros) :
    Receives callbacks ⟨some length, data⟩ [recorderLine "space " micros] ⟨some length, []⟩ [] := by
  intro decoder holding
  have beyond : micros > decoder.commandTimeOut := holding.steady.timeOut ▸ long
  have known : ¬ (decoder.commandLength = none ∧ decoder.count > 0) := by
    rw [holding.known]
    simp
  refine ⟨decoder.invalidate, ?_, steady_invalidate callbacks _ holding.steady, rfl,
    holding.known⟩
  rw [feed_single, analise_space, PulseDistanceCoding.receiveSpace, if_pos beyond, if_neg known]

/-- The lines of a frame are those of its header, its bits, its stop mark and its space. -/
theorem sent_lines (sent : Sent) :
    sent.lines = [.mark acHeaderMark, .space acHeaderSpace].map line ++
      ((sent.bits.flatMap acTiming.signals).map line ++
        ([line (.mark acUnit)] ++ [recorderLine "space " sent.gap])) := by
  simp [Sent.lines, frame]

/-- The first frame is not handed over; its length is learned. -/
theorem receives_first (callbacks : List κ) (sent : Sent) (present : sent.bits ≠ [])
    (long : 11000 < sent.gap) :
    Receives callbacks ⟨none, []⟩ sent.lines ⟨some sent.bits.length, []⟩ [] := by
  have header := receives_header callbacks ⟨none, []⟩
  have bits := receives_bits callbacks sent.bits ⟨none, []⟩ (by simp)
  have stop := receives_mark callbacks ⟨none, sent.bits⟩ acUnit
  have gap := receives_gap_learning callbacks sent.bits sent.gap present long
  rw [sent_lines]
  exact header.append (bits.append (stop.append gap))

/-- A later frame is handed over once, and nothing of it is left. -/
theorem receives_later (callbacks : List κ) (sent : Sent) (present : sent.bits ≠ [])
    (long : 11000 < sent.gap) :
    Receives callbacks ⟨some sent.bits.length, []⟩ sent.lines ⟨some sent.bits.length, []⟩
      (deliveries callbacks sent.bits) := by
  have split : sent.bits = sent.bits.dropLast ++ [sent.bits.getLast present] :=
    (List.dropLast_append_getLast present).symm
  have size : sent.bits.length = sent.bits.dropLast.length + 1 := by
    rw [List.length_dropLast]
    have positive := List.length_pos_iff.mpr present
    omega
  have header := receives_header callbacks ⟨some sent.bits.length, []⟩
  have front := receives_bits callbacks sent.bits.dropLast ⟨some sent.bits.length, []⟩ (by
    intro length known
    rw [← Option.some.inj known, size, List.length_nil]
    omega)
  have last := receives_last_bit callbacks sent.bits.dropLast (sent.bits.getLast present)
  rw [← split, ← size] at last
  have stop := receives_mark callbacks ⟨some sent.bits.length, []⟩ acUnit
  have gap := receives_gap callbacks sent.bits.length [] sent.gap long
  have all := (front.append last).append (stop.append gap)
  have lines := congrArg (fun bits => (List.flatMap acTiming.signals bits).map line) split
  simp only [List.flatMap_append, List.flatMap_singleton, List.map_append] at lines
  rw [sent_lines, lines]
  simpa using header.append all

/-- Frames of the known length are handed over one by one, each once. Induction on the
stream; no frame leaves anything to the next. -/
theorem receives_stream (callbacks : List κ) (length : Nat) (positive : 1 ≤ length)
    (frames : List Sent)
    (sized : ∀ sent ∈ frames, sent.bits.length = length ∧ 11000 < sent.gap) :
    Receives callbacks ⟨some length, []⟩ (stream frames) ⟨some length, []⟩
      (frames.flatMap fun sent => deliveries callbacks sent.bits) := by
  induction frames with
  | nil => exact Receives.nil callbacks ⟨some length, []⟩
  | cons sent rest ih =>
    obtain ⟨⟨size, long⟩, others⟩ := List.forall_mem_cons.mp sized
    have present : sent.bits ≠ [] := by
      intro empty
      rw [empty, List.length_nil] at size
      omega
    have first := receives_later callbacks sent present long
    rw [size] at first
    exact first.append (ih others)

/-- For every nonempty stream of frames of one length, each behind its own long space, a
fresh decoder makes exactly one delivery for each frame but the first, in order, and
ends with no bits and a zero counter. -/
theorem stream_decoded (callbacks : List κ) (length : Nat) (positive : 1 ≤ length)
    (frames : List Sent) (some_frame : frames ≠ [])
    (sized : ∀ sent ∈ frames, sent.bits.length = length ∧ 11000 < sent.gap) :
    ((fresh callbacks).feed (stream frames)).2 =
        (frames.tail.flatMap fun sent => deliveries callbacks sent.bits) ∧
      ((fresh callbacks).feed (stream frames)).1.receiveData = [] ∧
      ((fresh callbacks).feed (stream frames)).1.count = 0 := by
  obtain ⟨first, rest, rfl⟩ := List.exists_cons_of_ne_nil some_frame
  obtain ⟨⟨size, long⟩, others⟩ := List.forall_mem_cons.mp sized
  have present : first.bits ≠ [] := by
    intro empty
    rw [empty, List.length_nil] at size
    omega
  have learning := receives_first callbacks first present long
  rw [size] at learning
  have start : Holding callbacks ⟨none, []⟩ (fresh callbacks) := by
    refine ⟨steady_fresh callbacks, ?_, ?_⟩
    · rw [fresh_eq]
      rfl
    · rw [fresh_eq]
      rfl
  obtain ⟨last, fed, holding⟩ :=
    learning.append (receives_stream callbacks length positive rest others) _ start
  have whole : (fresh callbacks).feed (stream (first :: rest)) =
      (last, rest.flatMap fun sent => deliveries callbacks sent.bits) := fed
  rw [whole]
  exact ⟨rfl, holding.held, holding.count⟩

/-- Three frames of two bits: the second and the third are handed over to both callbacks. -/
theorem stream_decoded_two_bits :
    ((fresh ["print", "store"]).feed
        (stream [⟨[true, true], 20000⟩, ⟨[false, true], 11001⟩, ⟨[true, false], 99999⟩])).2 =
      [⟨"print", [2], [0, 1]⟩, ⟨"store", [2], [0, 1]⟩, ⟨"print", [1], [1, 0]⟩,
        ⟨"store", [1], [1, 0]⟩] := by
  have decoded := stream_decoded ["print", "store"] 2 (by decide)
    [⟨[true, true], 20000⟩, ⟨[false, true], 11001⟩, ⟨[true, false], 99999⟩] (by simp) (by simp)
  exact decoded.1.trans (by decide)

end WhirlpoolAc.StreamDecoding
