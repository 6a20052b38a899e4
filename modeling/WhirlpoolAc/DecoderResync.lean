import WhirlpoolAc.IrLink

/-!
# Recovery of the decoder

The decoder listens to everything. At the first long space behind collected bits it
learns how long a command is, and it never unlearns: from then on every command is
handed over as soon as it has that many bits. A gap clears what has been collected, but
not what has been learned.

So a frame that follows a gap is recovered exactly when no length has been learned or
the learned one is not shorter than the frame. The argument needs two invariants of
arbitrary lines: the counter counts the collected bits, and a learned length is never
zero.
-/

namespace WhirlpoolAc.DecoderResync

open DecimalText PulseSender Firmware PulseDecoder IrLink

universe u
variable {κ : Type u}

/-- The lines that separate commands: a space beyond the time-out, or a timeout. -/
inductive Gap : List Char → Prop where
  | space (micros : Nat) (long : 11000 < micros) : Gap (recorderLine "space " micros)
  | timeout : Gap timeoutLine

/-- The signals of a frame: header, bits and stop mark. -/
def frame (bits : List Bool) : List Signal :=
  [.mark acHeaderMark, .space acHeaderSpace] ++ (bits.flatMap acTiming.signals ++ [.mark acUnit])

/-- The bytes of a sequence of bits, the first bit of each byte lowest; bits that are
missing from the last byte are zero. -/
def bytesOf (bits : List Bool) : List Nat :=
  (List.range ((bits.length + 7) / 8)).map fun index =>
    Nat.ofBits fun position : Fin 8 => bits.getD (8 * index + position) false

/-- The calls that carry data. -/
def substantial (calls : List (Call κ)) : List (Call κ) :=
  calls.filter fun call => !call.receiveData.isEmpty

/-- The calls for one command: every callback once, with the bits and their bytes. -/
def deliveries (callbacks : List κ) (bits : List Bool) : List (Call κ) :=
  callbacks.map fun clb =>
    { clb := clb, bytes := bytesOf bits, receiveData := bits.map Bool.toNat }

/-- The decoder after any lines and a gap. -/
def afterGap (callbacks : List κ) (history : List (List Char)) (gap : List Char) :
    PulseDistanceCoding κ :=
  ((fresh callbacks).feed (history ++ [gap])).1

/-- What no line changes: the thresholds and the callbacks, and that the counter counts
the collected bits and a learned length is not zero. -/
structure Steady (callbacks : List κ) (decoder : PulseDistanceCoding κ) : Prop where
  timeOut : decoder.commandTimeOut = 11000
  offset : decoder.headerOffset = 2000
  events : decoder.events = callbacks
  counted : decoder.count = decoder.receiveData.length
  learned : decoder.commandLength ≠ some 0

/-- Clearing keeps it. -/
theorem steady_invalidate (callbacks : List κ) (decoder : PulseDistanceCoding κ)
    (steady : Steady callbacks decoder) : Steady callbacks decoder.invalidate :=
  ⟨steady.timeOut, steady.offset, steady.events, rfl, steady.learned⟩

/-- Collecting a bit keeps it: the counter is increased with the bits. -/
theorem steady_extended (callbacks : List κ) (decoder : PulseDistanceCoding κ) (pulse bit : Nat)
    (steady : Steady callbacks decoder) :
    Steady callbacks
      { decoder with
        pulse := pulse, receiveData := decoder.receiveData ++ [bit],
        count := decoder.count + 1 } := by
  have counted : decoder.count + 1 = (decoder.receiveData ++ [bit]).length := by
    rw [List.length_append, steady.counted]
    rfl
  exact ⟨steady.timeOut, steady.offset, steady.events, counted, steady.learned⟩

/-- A space keeps it: only a counter that is not zero becomes a length. -/
theorem steady_receiveSpace (callbacks : List κ) (decoder : PulseDistanceCoding κ) (space : Nat)
    (steady : Steady callbacks decoder) : Steady callbacks (decoder.receiveSpace space).1 := by
  unfold PulseDistanceCoding.receiveSpace
  by_cases long : space > decoder.commandTimeOut
  · rw [if_pos long]
    apply steady_invalidate
    by_cases learns : decoder.commandLength = none ∧ decoder.count > 0
    · rw [if_pos learns]
      have positive : some decoder.count ≠ some 0 := by
        intro zero
        have empty : decoder.count = 0 := Option.some.inj zero
        omega
      exact ⟨steady.timeOut, steady.offset, steady.events, steady.counted, positive⟩
    · rw [if_neg learns]
      exact steady
  · rw [if_neg long]
    by_cases header : decoder.isHeader decoder.pulse space = true
    · rw [if_pos header]
      exact steady
    · rw [if_neg header]
      have extended (bit : Nat) := steady_extended callbacks decoder decoder.pulse bit steady
      dsimp only
      split
      · exact steady_invalidate callbacks _ (extended _)
      · exact extended _

/-- Every line keeps it. -/
theorem steady_analise (callbacks : List κ) (decoder : PulseDistanceCoding κ) (line : List Char)
    (steady : Steady callbacks decoder) : Steady callbacks (decoder.analise line).1 := by
  unfold PulseDistanceCoding.analise
  split
  · exact steady_receiveSpace callbacks decoder _ steady
  · exact ⟨steady.timeOut, steady.offset, steady.events, steady.counted, steady.learned⟩
  · split
    · exact steady_invalidate callbacks decoder steady
    · exact steady_invalidate callbacks decoder steady

/-- Any lines keep it. -/
theorem steady_feed (callbacks : List κ) (lines : List (List Char))
    (decoder : PulseDistanceCoding κ) (steady : Steady callbacks decoder) :
    Steady callbacks (decoder.feed lines).1 := by
  induction lines generalizing decoder with
  | nil => exact steady
  | cons first rest ih => exact ih _ (steady_analise callbacks decoder first steady)

/-- A new decoder with its callbacks has it. -/
theorem steady_fresh (callbacks : List κ) : Steady callbacks (fresh callbacks) := by
  rw [fresh_eq]
  exact ⟨rfl, rfl, rfl, rfl, by simp [PulseDistanceCoding.init]⟩

/-- The state behind the last of some lines. -/
theorem feed_snoc (decoder : PulseDistanceCoding κ) (lines : List (List Char))
    (last : List Char) :
    (decoder.feed (lines ++ [last])).1 = ((decoder.feed lines).1.analise last).1 := by
  induction lines generalizing decoder with
  | nil => rfl
  | cons first rest ih => exact ih (decoder.analise first).1

/-- A gap leaves no collected bits. -/
theorem gap_clears (decoder : PulseDistanceCoding κ) (gap : List Char) (isGap : Gap gap)
    (timeOut : decoder.commandTimeOut = 11000) : (decoder.analise gap).1.receiveData = [] := by
  cases isGap with
  | timeout => rfl
  | space micros long =>
    have beyond : micros > decoder.commandTimeOut := by
      rw [timeOut]
      exact long
    rw [analise_space, PulseDistanceCoding.receiveSpace, if_pos beyond]
    rfl

/-- After any lines and a gap the decoder is steady and holds no bits. -/
theorem afterGap_steady (callbacks : List κ) (history : List (List Char)) (gap : List Char)
    (isGap : Gap gap) :
    Steady callbacks (afterGap callbacks history gap) ∧
      (afterGap callbacks history gap).receiveData = [] := by
  have before := steady_feed callbacks history (fresh callbacks) (steady_fresh callbacks)
  rw [afterGap, feed_snoc]
  exact ⟨steady_analise callbacks _ gap before, gap_clears _ gap isGap before.timeOut⟩

/-- A sequence is cut into the pieces that start at multiples of the size. -/
theorem chunk_pieces (pieces : Nat) (items : List Nat) (count : (items.length + 7) / 8 = pieces) :
    chunk items 8 = (List.range pieces).map fun index => (items.drop (8 * index)).take 8 := by
  induction pieces generalizing items with
  | zero =>
    have empty : items = [] := by
      apply List.eq_nil_of_length_eq_zero
      omega
    rw [empty]
    rfl
  | succ pieces ih =>
    cases items with
    | nil => simp at count
    | cons first rest =>
      have fewer : (((first :: rest).drop 8).length + 7) / 8 = pieces := by
        rw [List.length_drop]
        omega
      rw [chunk_cons first rest 8 (by decide), ih _ fewer, List.range_succ_eq_map, List.map_cons,
        List.map_map]
      refine congrArg _ (List.map_congr_left fun index _ => ?_)
      simp only [Function.comp, List.drop_drop]
      congr 2
      omega

/-- Packing reads the bits of each byte, the first one lowest. -/
theorem packed_bytes (bits : List Bool) :
    (chunk (bits.map Bool.toNat) 8).map (fun word => wordLoop word 0 0) = bytesOf bits := by
  have length : (bits.map Bool.toNat).length = bits.length := List.length_map _
  rw [chunk_pieces _ _ rfl, length, bytesOf, List.map_map]
  refine List.map_congr_left fun index _ => ?_
  apply Nat.eq_of_testBit_eq
  intro position
  rw [Function.comp, wordLoop_testBit, Nat.testBit_ofBits]
  by_cases inside : position < 8
  · simp only [inside, List.getD_eq_getElem?_getD, List.getElem?_take, List.getElem?_drop,
      List.getElem?_map, Nat.zero_testBit, Bool.false_or, Nat.zero_le, Nat.sub_zero, true_and,
      if_true, dif_pos]
    cases bits[8 * index + position]? with
    | none => rfl
    | some bit => cases bit <;> rfl
  · simp [inside, List.getD_eq_getElem?_getD]

/-- Collecting one bit. -/
def collected (decoder : PulseDistanceCoding κ) (pulse : Nat) (bit : Bool) :
    PulseDistanceCoding κ :=
  { decoder with
    pulse := pulse, receiveData := decoder.receiveData ++ [bit.toNat],
    count := decoder.count + 1 }

/-- Collecting keeps the decoder steady. -/
theorem steady_collected (callbacks : List κ) (decoder : PulseDistanceCoding κ) (pulse : Nat)
    (bit : Bool) (steady : Steady callbacks decoder) :
    Steady callbacks (collected decoder pulse bit) :=
  steady_extended callbacks decoder pulse bit.toNat steady

/-- Received near the signals of a bit, mark and space add that bit; if it completes a
command of the learned length, the bits are handed over and cleared. -/
theorem feed_pair (callbacks : List κ) (decoder : PulseDistanceCoding κ)
    (steady : Steady callbacks decoder) (bit : Bool) (mark space : Nat)
    (nearMark : ((mark : Int) - acUnit).natAbs * 100 ≤ 15 * acUnit)
    (nearSpace : ((space : Int) - (if bit then 3 * acUnit else acUnit)).natAbs * 100 ≤
      15 * (if bit then 3 * acUnit else acUnit))
    (rest : List (List Char)) :
    decoder.feed (line (.mark mark) :: line (.space space) :: rest) =
      if some (decoder.count + 1) = decoder.commandLength then
        (((collected decoder mark bit).invalidate.feed rest).1,
          (collected decoder mark bit).sendEvent ++
            ((collected decoder mark bit).invalidate.feed rest).2)
      else (collected decoder mark bit).feed rest := by
  obtain ⟨decided, short, similar⟩ := near_bit bit mark space nearMark nearSpace
  rw [← steady.timeOut] at short
  rw [← steady.offset] at similar
  have received := receiveSpace_similar { decoder with pulse := mark } space short similar
  rw [decided] at received
  have spaced : ({ decoder with pulse := mark } : PulseDistanceCoding κ).analise
      (line (.space space)) =
      if some (decoder.count + 1) = decoder.commandLength then
        ((collected decoder mark bit).invalidate, (collected decoder mark bit).sendEvent)
      else (collected decoder mark bit, []) := (analise_space _ space).trans received
  have marked := feed_cons decoder _ _ (line (.space space) :: rest) (analise_pulse decoder mark)
  refine marked.trans ?_
  rw [PulseDistanceCoding.feed, spaced]
  split
  · rfl
  · rfl

/-- Handing over collected bits is one delivery. -/
theorem sendEvent_delivers (callbacks : List κ) (decoder : PulseDistanceCoding κ)
    (bits : List Bool) (events : decoder.events = callbacks)
    (held : decoder.receiveData = bits.map Bool.toNat) :
    decoder.sendEvent = deliveries callbacks bits := by
  rw [PulseDistanceCoding.sendEvent, PulseDistanceCoding.translateToByte, held, events,
    packed_bytes, deliveries]

/-- The stop mark and the timeout deliver what has been collected. -/
theorem feed_stop (callbacks : List κ) (decoder : PulseDistanceCoding κ)
    (events : decoder.events = callbacks) (bits : List Bool)
    (held : decoder.receiveData = bits.map Bool.toNat) (received : List Signal)
    (near : List.Forall₂ Near [.mark acUnit] received) :
    (decoder.feed (received.map line ++ [timeoutLine])).2 = deliveries callbacks bits := by
  obtain ⟨stop, rfl⟩ := near_stop _ _ near
  have marked := feed_cons decoder _ _ [timeoutLine] (analise_pulse decoder stop)
  have stopped : (decoder.feed ([Signal.mark stop].map line ++ [timeoutLine])).2 =
      ({ decoder with pulse := stop } : PulseDistanceCoding κ).sendEvent :=
    (congrArg Prod.snd marked).trans (feed_timeout _)
  exact stopped.trans (sendEvent_delivers callbacks _ bits events held)

/-- The signals of the next bit of a frame add it to the collected ones; the bits are
delivered and cleared if that completes the learned length. The rest of the frame is
received after that. -/
theorem feed_next (callbacks : List κ) (decoder : PulseDistanceCoding κ)
    (steady : Steady callbacks decoder) (data : List Bool)
    (held : decoder.receiveData = data.map Bool.toNat) (bit : Bool) (bits : List Bool)
    (received : List Signal)
    (near : List.Forall₂ Near ((bit :: bits).flatMap acTiming.signals ++ [.mark acUnit])
      received) :
    ∃ next others, Steady callbacks next ∧
      next.receiveData = (data ++ [bit]).map Bool.toNat ∧
      next.commandLength = decoder.commandLength ∧
      List.Forall₂ Near (bits.flatMap acTiming.signals ++ [.mark acUnit]) others ∧
      (decoder.feed (received.map line ++ [timeoutLine])).2 =
        if some (data.length + 1) = decoder.commandLength then
          deliveries callbacks (data ++ [bit]) ++
            (next.invalidate.feed (others.map line ++ [timeoutLine])).2
        else (next.feed (others.map line ++ [timeoutLine])).2 := by
  simp only [List.flatMap_cons, signals_bit, List.cons_append, List.nil_append] at near
  obtain ⟨mark, space, others, rfl, nearMark, nearSpace, nearOthers⟩ := near_pair _ _ _ _ near
  have steadyNext := steady_collected callbacks decoder mark bit steady
  have heldNext : (collected decoder mark bit).receiveData = (data ++ [bit]).map Bool.toNat := by
    simp [collected, held]
  have size : decoder.count = data.length := by
    rw [steady.counted, held, List.length_map]
  refine ⟨collected decoder mark bit, others, steadyNext, heldNext, rfl, nearOthers, ?_⟩
  rw [List.map_cons, List.map_cons, List.cons_append, List.cons_append,
    feed_pair callbacks decoder steady bit mark space nearMark nearSpace, size,
    sendEvent_delivers callbacks _ (data ++ [bit]) steadyNext.events heldNext]
  split
  · rfl
  · rfl

/-- A delivery of bits carries data. -/
theorem substantial_deliveries (callbacks : List κ) (bits : List Bool) (present : bits ≠ []) :
    substantial (deliveries callbacks bits) = deliveries callbacks bits := by
  rw [substantial, List.filter_eq_self]
  intro call member
  obtain ⟨clb, _, rfl⟩ := List.mem_map.mp member
  simpa using present

/-- A delivery of no bits carries none. -/
theorem substantial_empty (callbacks : List κ) : substantial (deliveries callbacks []) = [] := by
  rw [substantial, List.filter_eq_nil_iff]
  intro call member
  obtain ⟨clb, _, rfl⟩ := List.mem_map.mp member
  simp

/-- Data is found in either of two parts. -/
theorem substantial_append (first second : List (Call κ)) :
    substantial (first ++ second) = substantial first ++ substantial second :=
  List.filter_append ..

/-- The rest of a frame that is not longer than the learned length is delivered once,
together with what has been collected. Induction on the bits; the one that completes the
learned length can only be the last. -/
theorem rest_delivered (callbacks : List κ) (bits data : List Bool) (received : List Signal)
    (near : List.Forall₂ Near (bits.flatMap acTiming.signals ++ [.mark acUnit]) received)
    (decoder : PulseDistanceCoding κ) (steady : Steady callbacks decoder)
    (held : decoder.receiveData = data.map Bool.toNat) (present : data ++ bits ≠ [])
    (enough : ∀ length, decoder.commandLength = some length →
      data.length + bits.length ≤ length) :
    substantial (decoder.feed (received.map line ++ [timeoutLine])).2 =
      deliveries callbacks (data ++ bits) := by
  induction bits generalizing data received decoder with
  | nil =>
    rw [List.append_nil] at present ⊢
    rw [feed_stop callbacks decoder steady.events data held received near,
      substantial_deliveries callbacks data present]
  | cons bit bits ih =>
    have joined : data ++ bit :: bits = data ++ [bit] ++ bits := by simp
    obtain ⟨next, others, steadyNext, heldNext, known, nearOthers, fed⟩ :=
      feed_next callbacks decoder steady data held bit bits received near
    rw [fed, joined]
    by_cases completes : some (data.length + 1) = decoder.commandLength
    · have last : bits = [] := by
        have bound := enough _ completes.symm
        rw [List.length_cons] at bound
        apply List.eq_nil_of_length_eq_zero
        omega
      subst last
      rw [if_pos completes, substantial_append,
        feed_stop callbacks next.invalidate steadyNext.events [] rfl others nearOthers,
        substantial_deliveries callbacks (data ++ [bit]) (by simp), substantial_empty,
        List.append_nil, List.append_nil]
    · rw [if_neg completes]
      apply ih (data ++ [bit]) others nearOthers next steadyNext heldNext
      · simp
      · intro length learned
        have bound := enough length (known.symm.trans learned)
        simp only [List.length_append, List.length_cons, List.length_nil] at bound ⊢
        omega

/-- The rest of a frame that is longer than the learned length is cut: some call carries
exactly as many bits as that length. Induction on the bits, up to the one that completes
the learned length. -/
theorem rest_cut (callbacks : List κ) (registered : callbacks ≠ []) (bits data : List Bool)
    (received : List Signal)
    (near : List.Forall₂ Near (bits.flatMap acTiming.signals ++ [.mark acUnit]) received)
    (decoder : PulseDistanceCoding κ) (steady : Steady callbacks decoder)
    (held : decoder.receiveData = data.map Bool.toNat) (length : Nat)
    (learned : decoder.commandLength = some length) (unfinished : data.length < length)
    (short : length < data.length + bits.length) :
    ∃ call ∈ (decoder.feed (received.map line ++ [timeoutLine])).2,
      call.receiveData.length = length := by
  induction bits generalizing data received decoder with
  | nil =>
    rw [List.length_nil] at short
    omega
  | cons bit bits ih =>
    obtain ⟨next, others, steadyNext, heldNext, known, nearOthers, fed⟩ :=
      feed_next callbacks decoder steady data held bit bits received near
    rw [fed, learned]
    by_cases completes : data.length + 1 = length
    · obtain ⟨clb, present⟩ := List.exists_mem_of_ne_nil callbacks registered
      rw [if_pos (congrArg some completes)]
      refine ⟨_, List.mem_append_left _ (List.mem_map.mpr ⟨clb, present, rfl⟩), ?_⟩
      simpa using completes
    · rw [if_neg fun same => completes (Option.some.inj same)]
      apply ih (data ++ [bit]) others nearOthers next steadyNext heldNext (known.trans learned)
      · rw [List.length_append, List.length_singleton]
        omega
      · simp only [List.length_append, List.length_cons, List.length_nil] at short ⊢
        omega

/-- Behind a gap, the calls for a frame are those for its bits and its stop mark: the
header only sets the last mark. -/
theorem frame_behind_gap (callbacks : List κ) (history : List (List Char)) (gap : List Char)
    (isGap : Gap gap) (bits : List Bool) (received : List Signal)
    (near : List.Forall₂ Near (frame bits) received) :
    ∃ decoder others, Steady callbacks decoder ∧ decoder.receiveData = [] ∧
      decoder.commandLength = (afterGap callbacks history gap).commandLength ∧
      List.Forall₂ Near (bits.flatMap acTiming.signals ++ [.mark acUnit]) others ∧
      (afterGap callbacks history gap).feed (received.map line ++ [timeoutLine]) =
        decoder.feed (others.map line ++ [timeoutLine]) := by
  obtain ⟨steady, cleared⟩ := afterGap_steady callbacks history gap isGap
  rw [frame] at near
  obtain ⟨mark, space, others, rfl, nearMark, nearSpace, nearOthers⟩ := near_pair _ _ _ _ near
  have skipped := feed_header (afterGap callbacks history gap) steady.timeOut steady.offset mark
    space nearMark nearSpace (others.map line ++ [timeoutLine])
  have marked : Steady callbacks { afterGap callbacks history gap with pulse := mark } :=
    ⟨steady.timeOut, steady.offset, steady.events, steady.counted, steady.learned⟩
  exact ⟨{ afterGap callbacks history gap with pulse := mark }, others, marked, cleared, rfl,
    nearOthers, skipped⟩

/-- A frame behind a gap is recovered when it is not longer than the learned length. -/
theorem frame_recovered (callbacks : List κ) (history : List (List Char)) (gap : List Char)
    (isGap : Gap gap) (bits : List Bool) (present : bits ≠ []) (received : List Signal)
    (near : List.Forall₂ Near (frame bits) received)
    (enough : ∀ length, (afterGap callbacks history gap).commandLength = some length →
      bits.length ≤ length) :
    substantial ((afterGap callbacks history gap).feed (received.map line ++ [timeoutLine])).2 =
      deliveries callbacks bits := by
  obtain ⟨decoder, others, steady, cleared, known, nearOthers, fed⟩ :=
    frame_behind_gap callbacks history gap isGap bits received near
  rw [fed]
  apply rest_delivered callbacks bits [] others nearOthers decoder steady cleared present
  intro length learned
  rw [List.length_nil, Nat.zero_add]
  exact enough length (known.symm.trans learned)

/-- A frame behind a gap is lost when it is longer than the learned length. -/
theorem frame_lost (callbacks : List κ) (registered : callbacks ≠ []) (history : List (List Char))
    (gap : List Char) (isGap : Gap gap) (bits : List Bool) (received : List Signal)
    (near : List.Forall₂ Near (frame bits) received) (length : Nat)
    (learned : (afterGap callbacks history gap).commandLength = some length)
    (short : length < bits.length) :
    substantial ((afterGap callbacks history gap).feed (received.map line ++ [timeoutLine])).2 ≠
      deliveries callbacks bits := by
  obtain ⟨decoder, others, steady, cleared, known, nearOthers, fed⟩ :=
    frame_behind_gap callbacks history gap isGap bits received near
  have positive : 0 < length := by
    apply Nat.pos_of_ne_zero
    rintro rfl
    exact steady.learned (known.trans learned)
  obtain ⟨call, called, cut⟩ :=
    rest_cut callbacks registered bits [] others nearOthers decoder steady
    cleared length (known.trans learned) positive (by simpa using short)
  rw [fed]
  intro recovered
  have carries : call ∈ substantial (decoder.feed (others.map line ++ [timeoutLine])).2 := by
    rw [substantial, List.mem_filter]
    have nonempty : call.receiveData ≠ [] := by
      rintro none
      rw [none, List.length_nil] at cut
      omega
    exact ⟨called, by simpa using nonempty⟩
  rw [recovered] at carries
  obtain ⟨clb, _, rfl⟩ := List.mem_map.mp carries
  rw [List.length_map] at cut
  omega

/-- For every list of callbacks, every history of lines, every gap and every frame that
is received within fifteen percent: the calls with data are one delivery of exactly its
bits and their bytes exactly when the decoder has learned no length or one that is not
shorter than the frame. -/
theorem recovery_iff (callbacks : List κ) (registered : callbacks ≠ []) (history : List (List Char))
    (gap : List Char) (isGap : Gap gap) (bits : List Bool) (present : bits ≠ [])
    (received : List Signal) (near : List.Forall₂ Near (frame bits) received) :
    substantial ((afterGap callbacks history gap).feed (received.map line ++ [timeoutLine])).2 =
        deliveries callbacks bits ↔
      ∀ length, (afterGap callbacks history gap).commandLength = some length →
        bits.length ≤ length := by
  constructor
  · intro recovered length learned
    apply Nat.le_of_not_lt
    intro short
    exact frame_lost callbacks registered history gap isGap bits received near length learned short
      recovered
  · exact frame_recovered callbacks history gap isGap bits present received near

/-- Two bits behind a timeout on a decoder that has heard nothing else. -/
theorem recovery_iff_two_bits :
    substantial ((afterGap ["onCommand"] [] timeoutLine).feed
        ((frame [true, false]).map line ++ [timeoutLine])).2 =
      [{ clb := "onCommand", bytes := [1], receiveData := [1, 0] }] := by
  refine (recovery_iff ["onCommand"] (by decide) [] timeoutLine .timeout [true, false] (by decide)
    _ (near_refl _)).mpr ?_
  intro length learned
  cases learned

/-- A single bit of noise in front of a long space. -/
def noise : List (List Char) := [recorderLine "pulse " 500, recorderLine "space " 500]

/-- From it the decoder learns that commands have one bit, and no longer frame that
follows the space is recovered. -/
theorem noise_unrecovered :
    ¬ ∀ (history : List (List Char)) (gap : List Char) (bits : List Bool), Gap gap → bits ≠ [] →
      substantial ((afterGap ["onCommand"] history gap).feed
          ((frame bits).map line ++ [timeoutLine])).2 =
        deliveries ["onCommand"] bits := by
  intro recovered
  have isGap : Gap (recorderLine "space " 20000) := .space 20000 (by decide)
  have learned : (afterGap ["onCommand"] noise (recorderLine "space " 20000)).commandLength =
      some 1 := by
    simp [afterGap, noise, PulseDistanceCoding.feed, analise_pulse, analise_space, fresh_eq,
      PulseDistanceCoding.init, PulseDistanceCoding.receiveSpace, PulseDistanceCoding.isHeader,
      PulseDistanceCoding.invalidate]
  exact frame_lost ["onCommand"] (by decide) noise _ isGap [true, false] _ (near_refl _) 1 learned
    (by decide) (recovered noise _ [true, false] isGap (by decide))

end WhirlpoolAc.DecoderResync
