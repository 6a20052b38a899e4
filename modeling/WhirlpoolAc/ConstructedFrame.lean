import WhirlpoolAc.SetterCalls

/-!
# Frames of controllers built in leftover storage

The member initializer of the controller's frame calls a user-provided constructor, so
the storage is not cleared first. That constructor and the eight setters behind it
assign ten fields; every other field keeps what the storage held. Two controllers built
in different storage transmit the same bits exactly when the storages agree in those
other fields, and a common sequence of setters only hides the fields it assigns.
-/

namespace WhirlpoolAc.ConstructedFrame

open FrameLayout PackedFields PackedWrites AirConditioner SetterCalls

/-- The transmitted bits of a controller: eight raw bytes and the low half of the ninth. -/
def frame (ac : WhirlpoolYJ1B) : List Bool := leadingBits ac.m_data frameBits

/-- All declared fields. -/
def declaredFields : List BitField :=
  [.mode, .power, .fan, .swing, .sleep, .temperature, .clock_Seconds, .clock_Minutes,
    .clock_AM_PM, .byte2_unknown, .clock_Hours, .timer_Enable_Minutes_LSB,
    .timer_Enable_Minutes_MSB, .timer_Enable_AM_PM, .timer_Enable_ON_OFF, .timer_Enable_Hours,
    .timer_Disable_Minutes_LSB, .timer_Disable_AM_PM, .timer_Disable_ON_OFF,
    .timer_Disable_Hours, .jet, .light, .byte6_unknown, .byte7_unknown, .byte7_round,
    .byte7_unknownA, .byte7_endPattern, .byte8_endPattern]

/-- Every transmitted bit lies in a declared field. -/
theorem transmitted_owner (index : Nat) (sent : index < frameBits) :
    ∃ field : BitField, field.place.offset ≤ index ∧ index < field.place.offset + field.size := by
  have located : ∀ position : Fin 68, ∃ field ∈ declaredFields,
      field.place.offset ≤ position.val ∧ position.val < field.place.offset + field.size := by
    decide
  obtain ⟨field, _, bounds⟩ := located ⟨index, sent⟩
  exact ⟨field, bounds⟩

/-- Equal transmitted bits are equal fields: a receiver can read each field, and each bit
belongs to one. -/
theorem leadingBits_eq_iff (first second : WhirlpoolYJ1BData) :
    leadingBits first frameBits = leadingBits second frameBits ↔
      ∀ field, readField field first = readField field second := by
  constructor
  · intro same field
    rw [← readBits_frame field first, same, readBits_frame]
  · intro same
    apply List.map_congr_left
    intro index member
    obtain ⟨field, low, high⟩ := transmitted_owner index (List.mem_range.mp member)
    have within : index - field.place.offset < field.place.size := by
      have width : field.size = field.place.size := rfl
      omega
    have found (data : WhirlpoolYJ1BData) :
        bit data index = (readField field data).testBit (index - field.place.offset) := by
      have position : field.place.offset + (index - field.place.offset) = index := by omega
      have stored := bit_offset field.place data _ within
      rw [position] at stored
      rw [stored, readField, read_testBit, decide_eq_true within, Bool.true_and]
    rw [found, found, same]

/-- The calls in the body of the default constructor. -/
def constructorCalls : List SetterCall :=
  [.setFan Fan.Auto.tounderlying, .setMode Mode.Cool.tounderlying, .setPower false,
    .setSwing false, .setJet false, .setLight true, .setSleep false, .setTemperature 24]

/-- The fields that construction assigns. -/
def initialisedFields : List BitField :=
  [.byte7_endPattern, .byte8_endPattern, .fan, .mode, .power, .swing, .jet, .light, .sleep,
    .temperature]

/-- The value that construction gives to an initialised field. -/
def initialValue : BitField → Nat
  | .byte7_endPattern => 0b1010
  | .byte8_endPattern => 0b0101
  | .mode => 1
  | .light => 1
  | .temperature => 8
  | _ => 0

/-- Construction runs the constructor of the frame, then the calls of the body. -/
theorem construct_calls (memory : WhirlpoolYJ1BData) :
    construct memory = applyAll ⟨memory.construct⟩ constructorCalls := rfl

/-- A constructed field has its initial value, or what the storage held. -/
theorem construct_field (memory : WhirlpoolYJ1BData) (field : BitField) :
    (construct memory).field field =
      if field ∈ initialisedFields then initialValue field else readField field memory := by
  have patterns (other : BitField) : readField other memory.construct =
      if other = .byte8_endPattern then 0b0101
      else if other = .byte7_endPattern then 0b1010 else readField other memory := by
    rw [WhirlpoolYJ1BData.construct, readField_writeField, readField_writeField]
    rfl
  have called := applyAll_field constructorCalls ⟨memory.construct⟩ field
  have start : WhirlpoolYJ1B.field ⟨memory.construct⟩ field = readField field memory.construct :=
    rfl
  rw [← construct_calls, start, patterns] at called
  rw [called]
  cases field <;> rfl

/-- After a common sequence of calls, two frames are equal exactly when the storages agree
in each field that neither construction nor a call assigns. -/
theorem frames_equal_iff (first second : WhirlpoolYJ1BData) (calls : List SetterCall) :
    frame (applyAll (construct first) calls) = frame (applyAll (construct second) calls) ↔
      ∀ field, field ∉ initialisedFields → (∀ call ∈ calls, call.assigned field = none) →
        readField field first = readField field second := by
  have fields : frame (applyAll (construct first) calls) =
      frame (applyAll (construct second) calls) ↔
      ∀ field, (applyAll (construct first) calls).field field =
        (applyAll (construct second) calls).field field :=
    leadingBits_eq_iff _ _
  rw [fields]
  constructor
  · intro same field uninitialised unassigned
    have equal := same field
    rw [applyAll_field, applyAll_field, unassigned_lastValue field calls unassigned] at equal
    simpa [construct_field, uninitialised] using equal
  · intro agree field
    rw [applyAll_field, applyAll_field]
    cases decided : lastValue field (calls.flatMap SetterCall.writes) with
    | some value => rfl
    | none =>
      by_cases initialised : field ∈ initialisedFields
      · simp [construct_field, initialised]
      · have unassigned : ∀ call ∈ calls, call.assigned field = none := by
          intro call called
          rw [SetterCall.assigned, lastValue_none_iff]
          intro entry wrote
          exact (lastValue_none_iff field _).mp decided entry
            (List.mem_flatMap.mpr ⟨call, called, wrote⟩)
        simpa [construct_field, initialised] using agree field initialised unassigned

/-- Controllers built in two storages transmit the same bits, at once and after every
common sequence of calls, exactly when the storages agree in each field that
construction leaves alone. -/
theorem construction_independent_iff (first second : WhirlpoolYJ1BData) :
    (frame (construct first) = frame (construct second) ∧
      ∀ calls, frame (applyAll (construct first) calls) =
        frame (applyAll (construct second) calls)) ↔
      ∀ field, field ∉ initialisedFields → readField field first = readField field second := by
  constructor
  · rintro ⟨_, throughout⟩ field uninitialised
    exact (frames_equal_iff first second []).mp (throughout []) field uninitialised (by simp)
  · intro agree
    have always (calls : List SetterCall) : frame (applyAll (construct first) calls) =
        frame (applyAll (construct second) calls) :=
      (frames_equal_iff first second calls).mpr fun field uninitialised _ =>
        agree field uninitialised
    exact ⟨always [], always⟩

/-- Storage whose bits are all set reaches the frame: the timers differ from those of a
controller in cleared storage. -/
theorem construction_depends_on_leftovers :
    ¬ ∀ first second : WhirlpoolYJ1BData,
      frame (construct first) = frame (construct second) ∧
        ∀ calls, frame (applyAll (construct first) calls) =
          frame (applyAll (construct second) calls) := by
  intro independent
  have same := (independent zeroFilled (Vector.replicate 9 (BitVec.allOnes 8))).1
  revert same
  decide

end WhirlpoolAc.ConstructedFrame
