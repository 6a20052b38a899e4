import WhirlpoolAc.StreamDecoding

/-!
# Frames through the air

What the receiver hears is never exactly what was sent: every interval is off by up to
fifteen percent. The rules for a stream of frames hold for all that can be heard of it. A
reception is therefore a relation between what was sent, the memory of the decoder before
and after it, and the calls in between.
-/

namespace WhirlpoolAc.HeardFrames

open PulseSender Firmware PulseDecoder IrLink DecoderResync StreamDecoding

universe u
variable {κ : Type u}

/-- What the recorder has of a transmission: the intervals and the space behind them. -/
structure Recording where
  signals : List Signal
  gap : Nat

/-- The lines of a recording. -/
def Recording.lines (recording : Recording) : List (List Char) :=
  recording.signals.map line ++ [recorderLine "space " recording.gap]

/-- A recording of the signals: every interval is near the sent one, and the space behind
them is longer than a command may take. -/
structure Records (signals : List Signal) (recording : Recording) : Prop where
  near : List.Forall₂ Near signals recording.signals
  long : 11000 < recording.gap

/-- The lines of all recordings. -/
def tape (recordings : List Recording) : List (List Char) := recordings.flatMap Recording.lines

/-- Whatever is heard of the signals takes every decoder with the first memory to the
second one, with exactly the given calls. -/
def Hears (callbacks : List κ) (before : Memory) (signals : List Signal) (after : Memory)
    (calls : List (Call κ)) : Prop :=
  ∀ received, List.Forall₂ Near signals received →
    Receives callbacks before (received.map line) after calls

/-- What is heard of two parts is heard of each of them. -/
theorem near_append (first second received : List Signal)
    (near : List.Forall₂ Near (first ++ second) received) :
    ∃ front back, received = front ++ back ∧ List.Forall₂ Near first front ∧
      List.Forall₂ Near second back := by
  induction first generalizing received with
  | nil => exact ⟨[], received, rfl, .nil, near⟩
  | cons signal rest ih =>
    obtain ⟨heard, others, nearFirst, nearOthers, rfl⟩ := List.forall₂_cons_left_iff.mp near
    obtain ⟨front, back, rfl, nearFront, nearBack⟩ := ih others nearOthers
    exact ⟨heard :: front, back, rfl, .cons nearFirst nearFront, nearBack⟩

/-- Receptions compose. -/
theorem Hears.append {callbacks : List κ} {before middle after : Memory}
    {first second : List Signal} {calls later : List (Call κ)}
    (hears : Hears callbacks before first middle calls)
    (continues : Hears callbacks middle second after later) :
    Hears callbacks before (first ++ second) after (calls ++ later) := by
  intro received near
  obtain ⟨front, back, rfl, nearFront, nearBack⟩ := near_append first second received near
  rw [List.map_append]
  exact (hears front nearFront).append (continues back nearBack)

/-- Nothing is heard of nothing. -/
theorem Hears.nil (callbacks : List κ) (memory : Memory) :
    Hears callbacks memory [] memory [] := by
  intro received near
  cases near
  exact Receives.nil callbacks memory

/-- A mark is only remembered. -/
theorem hears_mark (callbacks : List κ) (memory : Memory) (micros : Nat) :
    Hears callbacks memory [.mark micros] memory [] := by
  intro received near
  obtain ⟨stop, rfl⟩ := near_stop micros received near
  exact receives_mark callbacks memory stop

/-- A mark and a space with nothing behind them. -/
theorem near_only_pair (mark space : Nat) (received : List Signal)
    (near : List.Forall₂ Near [.mark mark, .space space] received) :
    ∃ heardMark heardSpace, received = [.mark heardMark, .space heardSpace] ∧
      ((heardMark : Int) - mark).natAbs * 100 ≤ 15 * mark ∧
      ((heardSpace : Int) - space).natAbs * 100 ≤ 15 * space := by
  obtain ⟨heardMark, heardSpace, others, rfl, nearMark, nearSpace, nearOthers⟩ :=
    near_pair mark space [] received near
  cases nearOthers
  exact ⟨heardMark, heardSpace, rfl, nearMark, nearSpace⟩

/-- A header changes nothing. -/
theorem hears_header (callbacks : List κ) (memory : Memory) :
    Hears callbacks memory [.mark acHeaderMark, .space acHeaderSpace] memory [] := by
  intro received near decoder holding
  obtain ⟨mark, space, rfl, nearMark, nearSpace⟩ := near_only_pair _ _ received near
  have skipped := feed_header decoder holding.steady.timeOut holding.steady.offset mark space
    nearMark nearSpace []
  exact ⟨_, skipped, holding.marked mark⟩

/-- What is heard of a bit adds it to the collected ones, and the bit that completes the
known length hands them over. -/
theorem hears_signals (callbacks : List κ) (memory : Memory) (bit : Bool) (received : List Signal)
    (near : List.Forall₂ Near (acTiming.signals bit) received) (decoder : PulseDistanceCoding κ)
    (holding : Holding callbacks memory decoder) :
    ∃ next, Holding callbacks { memory with data := memory.data ++ [bit] } next ∧
      decoder.feed (received.map line) =
        if some (memory.data.length + 1) = memory.length then
          (next.invalidate, deliveries callbacks (memory.data ++ [bit]))
        else (next, []) := by
  rw [signals_bit] at near
  obtain ⟨mark, space, rfl, nearMark, nearSpace⟩ := near_only_pair _ _ received near
  have gathered : (collected decoder mark bit).receiveData =
      (memory.data ++ [bit]).map Bool.toNat := by
    simp [collected, holding.held]
  have handed : (collected decoder mark bit).sendEvent =
      deliveries callbacks (memory.data ++ [bit]) :=
    sendEvent_delivers callbacks (collected decoder mark bit) _ holding.steady.events gathered
  have pair := feed_pair callbacks decoder holding.steady bit mark space nearMark nearSpace []
  rw [handed, holding.count, holding.known] at pair
  refine ⟨collected decoder mark bit,
    ⟨steady_collected callbacks decoder mark bit holding.steady, gathered, holding.known⟩,
    pair.trans ?_⟩
  split
  · exact congrArg (Prod.mk _) (List.append_nil _)
  · rfl

/-- A bit that does not complete the known length is collected. -/
theorem hears_bit (callbacks : List κ) (memory : Memory) (bit : Bool)
    (incomplete : some (memory.data.length + 1) ≠ memory.length) :
    Hears callbacks memory (acTiming.signals bit)
      { memory with data := memory.data ++ [bit] } [] := by
  intro received near decoder holding
  obtain ⟨next, holds, fed⟩ := hears_signals callbacks memory bit received near decoder holding
  rw [if_neg incomplete] at fed
  exact ⟨next, fed, holds⟩

/-- The bit that completes the known length hands over all bits and leaves none. -/
theorem hears_last_bit (callbacks : List κ) (data : List Bool) (bit : Bool) :
    Hears callbacks ⟨some (data.length + 1), data⟩ (acTiming.signals bit)
      ⟨some (data.length + 1), []⟩ (deliveries callbacks (data ++ [bit])) := by
  intro received near decoder holding
  obtain ⟨next, holds, fed⟩ := hears_signals callbacks _ bit received near decoder holding
  rw [if_pos rfl] at fed
  exact ⟨next.invalidate, fed, steady_invalidate callbacks next holds.steady, rfl, holds.known⟩

/-- Bits that stay below a known length are collected. Induction on the bits. -/
theorem hears_bits (callbacks : List κ) (bits : List Bool) (memory : Memory)
    (short : ∀ length, memory.length = some length →
      memory.data.length + bits.length < length) :
    Hears callbacks memory (bits.flatMap acTiming.signals)
      { memory with data := memory.data ++ bits } [] := by
  induction bits generalizing memory with
  | nil =>
    rw [List.append_nil]
    exact Hears.nil callbacks memory
  | cons bit rest ih =>
    have incomplete : some (memory.data.length + 1) ≠ memory.length := by
      intro complete
      have bound := short _ complete.symm
      rw [List.length_cons] at bound
      omega
    have first := hears_bit callbacks memory bit incomplete
    have later := ih { memory with data := memory.data ++ [bit] } (by
      intro length known
      have bound := short length known
      simp only [List.length_append, List.length_cons, List.length_nil] at bound ⊢
      omega)
    have both := first.append later
    rw [List.flatMap_cons]
    simpa using both

/-- A frame for a decoder that knows no length is collected. -/
theorem hears_first (callbacks : List κ) (bits : List Bool) :
    Hears callbacks ⟨none, []⟩ (frame bits) ⟨none, bits⟩ [] := by
  have header := hears_header callbacks ⟨none, []⟩
  have body := hears_bits callbacks bits ⟨none, []⟩ (by simp)
  have stop := hears_mark callbacks ⟨none, bits⟩ acUnit
  exact header.append (body.append stop)

/-- A frame of the known length is handed over, once. -/
theorem hears_later (callbacks : List κ) (bits : List Bool) (present : bits ≠ []) :
    Hears callbacks ⟨some bits.length, []⟩ (frame bits) ⟨some bits.length, []⟩
      (deliveries callbacks bits) := by
  have split : bits.dropLast ++ [bits.getLast present] = bits :=
    List.dropLast_append_getLast present
  have size : bits.dropLast.length + 1 = bits.length := by
    rw [List.length_dropLast]
    have positive := List.length_pos_iff.mpr present
    omega
  have header := hears_header callbacks ⟨some bits.length, []⟩
  have front := hears_bits callbacks bits.dropLast ⟨some bits.length, []⟩ (by
    intro length known
    rw [← Option.some.inj known, ← size, List.length_nil]
    omega)
  have last := hears_last_bit callbacks bits.dropLast (bits.getLast present)
  rw [split, size] at last
  have stop := hears_mark callbacks ⟨some bits.length, []⟩ acUnit
  have all := (header.append (front.append last)).append stop
  have signals : bits.flatMap acTiming.signals =
      bits.dropLast.flatMap acTiming.signals ++ acTiming.signals (bits.getLast present) := by
    conv_lhs => rw [← split]
    rw [List.flatMap_append, List.flatMap_singleton]
  rw [frame, signals]
  simpa using all

/-- A recording is heard, and then its space. -/
theorem Hears.recording {callbacks : List κ} {before middle after : Memory}
    {signals : List Signal} {calls : List (Call κ)} {recording : Recording}
    (hears : Hears callbacks before signals middle calls) (records : Records signals recording)
    (ends : Receives callbacks middle [recorderLine "space " recording.gap] after []) :
    Receives callbacks before recording.lines after calls := by
  have whole := (hears recording.signals records.near).append ends
  rw [List.append_nil] at whole
  exact whole

/-- Recordings of frames of the known length are handed over one by one, each once.
Induction on the frames; none leaves anything to the next. -/
theorem receives_tape (callbacks : List κ) (length : Nat) (positive : 1 ≤ length)
    (frames : List (List Bool)) (recordings : List Recording)
    (records : List.Forall₂ (fun bits => Records (frame bits)) frames recordings)
    (sized : ∀ bits ∈ frames, bits.length = length) :
    Receives callbacks ⟨some length, []⟩ (tape recordings) ⟨some length, []⟩
      (frames.flatMap (deliveries callbacks)) := by
  induction records with
  | nil => exact Receives.nil callbacks ⟨some length, []⟩
  | @cons bits recording rest others first later ih =>
    obtain ⟨size, sizes⟩ := List.forall_mem_cons.mp sized
    have present : bits ≠ [] := by
      rintro rfl
      rw [List.length_nil] at size
      omega
    have heard := hears_later callbacks bits present
    rw [size] at heard
    have taken := heard.recording first
      (receives_gap callbacks length [] recording.gap first.long)
    exact taken.append (ih sizes)

/-- Of the recordings of frames of one length, a fresh decoder hands over all but the
first one, each once. -/
theorem fresh_tape (callbacks : List κ) (length : Nat) (positive : 1 ≤ length)
    (frames : List (List Bool)) (recordings : List Recording)
    (records : List.Forall₂ (fun bits => Records (frame bits)) frames recordings)
    (sized : ∀ bits ∈ frames, bits.length = length) :
    ((fresh callbacks).feed (tape recordings)).2 = frames.tail.flatMap (deliveries callbacks) := by
  have start : Holding callbacks ⟨none, []⟩ (fresh callbacks) := by
    refine ⟨steady_fresh callbacks, ?_, ?_⟩
    · rw [fresh_eq]
      rfl
    · rw [fresh_eq]
      rfl
  cases records with
  | nil => rfl
  | @cons bits recording rest others first later =>
    obtain ⟨size, sizes⟩ := List.forall_mem_cons.mp sized
    have present : bits ≠ [] := by
      rintro rfl
      rw [List.length_nil] at size
      omega
    have learning := (hears_first callbacks bits).recording first
      (receives_gap_learning callbacks bits recording.gap present first.long)
    rw [size] at learning
    obtain ⟨last, fed, _⟩ := learning.append
      (receives_tape callbacks length positive rest others later sizes) _ start
    exact congrArg Prod.snd fed

end WhirlpoolAc.HeardFrames
