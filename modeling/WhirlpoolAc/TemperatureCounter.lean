import WhirlpoolAc.FieldEffects

/-!
# The temperature as a saturating counter

Temperature commands should move a counter between 16 and 30: one up, one down, or
straight to the nearest value of a number. The two steps do. A number is narrowed to a
byte before it is compared with the range, so it is the nearest value of the remainder
modulo 256. That is still right for a byte, for a negative number whose remainder is at
the bottom, and for a larger one whose remainder is at the top.
-/

namespace WhirlpoolAc.TemperatureCounter

open ByteStrings CxxLibrary FrameLayout AirConditioner Firmware CommandRequests DeviceRuns
  FieldEffects PartialRuns

/-- What a temperature command says. -/
inductive Instruction where
  | up
  | down
  | number (value : Int)
deriving DecidableEq

/-- The decimal text of an integer. -/
def intText (value : Int) : Bytes :=
  if value < 0 then 45 :: toString value.natAbs else toString value.natAbs

/-- The payload of an instruction. -/
def Instruction.text : Instruction → Bytes
  | .up => lit "up"
  | .down => lit "down"
  | .number value => intText value

/-- The saturating counter. -/
def Instruction.counted (temperature : Int) : Instruction → Int
  | .up => min 30 (temperature + 1)
  | .down => max 16 (temperature - 1)
  | .number value => min 30 (max 16 value)

/-- A number that is given as an `int`. -/
def Instruction.Fits : Instruction → Prop
  | .up | .down => True
  | .number value => FitsInt value

/-- The setting that an instruction is taken for. -/
def Instruction.setting : Instruction → Setting
  | .up => .warmer
  | .down => .cooler
  | .number value => .temperature (toUInt8 value)

/-- The event of an instruction. -/
def Instruction.event (name : CString) (now : Tm) (instruction : Instruction) : Event :=
  order name now (.change .temperature) instruction.text

/-- The temperature of a device. -/
def temperature (world : World) : Int := world.g_whirpool.getTemperature.toNat

/-- From a state on, every instruction of a sequence is carried out and leaves the
counter's value of the temperature before it. -/
def Follows (name : CString) (world : World) : List (Tm × Instruction) → Prop
  | [] => True
  | (now, instruction) :: later =>
      ∃ next, step name world (instruction.event name now) = some next ∧
        temperature next = instruction.counted (temperature world) ∧ Follows name next later

/-- Temperature commands are a saturating counter, and greater numbers never lead to
lower temperatures. -/
structure SaturatingCounter (name : CString) (world : World)
    (instructions : List (Tm × Instruction)) : Prop where
  follows : Follows name world instructions
  monotone : ∀ entry ∈ instructions, ∀ other ∈ instructions, ∀ low high,
    entry.2 = .number low → other.2 = .number high → low ≤ high →
      ∀ start cold warm, step name start (entry.2.event name entry.1) = some cold →
        step name start (other.2.event name other.1) = some warm →
          temperature cold ≤ temperature warm

/-- A number whose nearest setpoint is that of its remainder modulo 256. -/
def Unwrapped (value : Int) : Prop :=
  (0 ≤ value ∧ value ≤ 255) ∨ (value < 0 ∧ value % 256 ≤ 16) ∨
    (255 < value ∧ 30 ≤ value % 256)

instance (value : Int) : Decidable (Unwrapped value) := by
  unfold Unwrapped
  infer_instance

/-- The text of an integer converts to it. -/
theorem numericPrefix_intText (value : Int) : numericPrefix (intText value) = some value := by
  by_cases negative : value < 0
  · have digits : unsignedPrefix (toString value.natAbs) = some value.natAbs := by
      simpa using unsignedPrefix_toString value.natAbs [] rfl
    have sign : isSpace 45 = false := by decide
    have opposite : -(value.natAbs : Int) = value := by omega
    have shown : intText value = 45 :: toString value.natAbs := if_pos negative
    have unspaced : (45 :: toString value.natAbs).dropWhile isSpace =
        45 :: toString value.natAbs := List.dropWhile_cons_of_neg (by simp [sign])
    simp only [shown, numericPrefix, unspaced, digits, if_true]
    exact congrArg some opposite
  · have same : (value.natAbs : Int) = value := by omega
    rw [intText, if_neg negative, numericPrefix_toString, same]

/-- The payload of an instruction is taken for its setting. -/
theorem text_request (instruction : Instruction) (fits : instruction.Fits) :
    request (.change .temperature) (lower instruction.text) = .assign instruction.setting := by
  cases instruction with
  | up => decide
  | down => decide
  | number value =>
    have converted : numericPrefix (lower (intText value)) = some value := by
      rw [numericPrefix_lower, numericPrefix_intText]
    have notUp : lower (intText value) ≠ lit "up" := by
      intro word
      rw [word] at converted
      revert converted
      have none : numericPrefix (lit "up") = none := by decide
      simp [none]
    have notDown : lower (intText value) ≠ lit "down" := by
      intro word
      rw [word] at converted
      revert converted
      have none : numericPrefix (lit "down") = none := by decide
      simp [none]
    show temperatureRequest (lower (intText value)) = .assign (.temperature (toUInt8 value))
    rw [temperatureRequest, if_neg notUp, if_neg notDown, numeralRequest, converted]
    exact if_pos fits

/-- An instruction is carried out as one field assignment. -/
theorem instruction_step (name : CString) (world : World) (now : Tm) (instruction : Instruction)
    (fits : instruction.Fits) :
    ∃ next, step name world (instruction.event name now) = some next ∧
      temperature next =
        stored (world.g_whirpool.field .temperature) instruction.setting + 16 := by
  have decided : (instruction.event name now).request name = .assign instruction.setting :=
    (order_request name now _ _).trans (text_request instruction fits)
  refine ⟨after name (instruction.event name now) world, ?_, ?_⟩
  · rw [step_eq, decided, if_neg Request.noConfusion]
  · have own : BitField.temperature = target instruction.setting := by
      cases instruction <;> rfl
    have moved : (after name (instruction.event name now) world).g_whirpool =
        instruction.setting.apply world.g_whirpool := by
      simp only [after, decided, Request.change]
    rw [temperature, moved, getTemperature_toNat, apply_field, if_pos own]
    rfl

/-- An instruction leaves the counter's value exactly when it is a step or an unwrapped
number. -/
theorem counted_iff (raw : Nat) (small : raw < 16) (instruction : Instruction) :
    (stored raw instruction.setting : Int) + 16 = instruction.counted (raw + 16) ↔
      ∀ value, instruction = .number value → Unwrapped value := by
  cases instruction with
  | up =>
    have exact : (stored raw .warmer : Int) + 16 = Instruction.up.counted (raw + 16) := by
      simp only [stored, setpoint, Instruction.counted]
      omega
    simp [Instruction.setting, exact]
  | down =>
    have exact : (stored raw .cooler : Int) + 16 = Instruction.down.counted (raw + 16) := by
      simp only [stored, setpoint, Instruction.counted]
      omega
    simp [Instruction.setting, exact]
  | number value =>
    simp only [Instruction.setting, Instruction.counted, stored, setpoint, toUInt8_toNat,
      Instruction.number.injEq, forall_eq', Unwrapped]
    omega

/-- After an instruction the temperature is the counter's value exactly when it is a step
or an unwrapped number. -/
theorem step_counted (name : CString) (world : World) (now : Tm) (instruction : Instruction)
    (fits : instruction.Fits) :
    ∃ next, step name world (instruction.event name now) = some next ∧
      (temperature next = instruction.counted (temperature world) ↔
        ∀ value, instruction = .number value → Unwrapped value) := by
  have small : world.g_whirpool.field .temperature < 16 :=
    readField_lt .temperature world.g_whirpool.m_data
  have before : temperature world = (world.g_whirpool.field .temperature : Int) + 16 := by
    rw [temperature, getTemperature_toNat]
    rfl
  obtain ⟨next, stepped, result⟩ := instruction_step name world now instruction fits
  refine ⟨next, stepped, ?_⟩
  rw [result, before]
  exact counted_iff _ small instruction

/-- A sequence follows the counter exactly when its numbers are unwrapped. Induction on
the sequence; no instruction depends on the ones before it except through the state. -/
theorem follows_iff (name : CString) (instructions : List (Tm × Instruction)) (world : World)
    (fits : ∀ entry ∈ instructions, entry.2.Fits) :
    Follows name world instructions ↔
      ∀ entry ∈ instructions, ∀ value, entry.2 = .number value → Unwrapped value := by
  induction instructions generalizing world with
  | nil => simp [Follows]
  | cons entry later ih =>
    obtain ⟨now, instruction⟩ := entry
    have fitsLater : ∀ entry ∈ later, entry.2.Fits := fun entry member =>
      fits entry (List.mem_cons_of_mem _ member)
    obtain ⟨next, stepped, first⟩ :=
      step_counted name world now instruction (fits (now, instruction) List.mem_cons_self)
    rw [List.forall_mem_cons, ← first, ← ih next fitsLater]
    constructor
    · rintro ⟨other, same, counted, rest⟩
      cases stepped.symm.trans same
      exact ⟨counted, rest⟩
    · rintro ⟨counted, rest⟩
      exact ⟨next, stepped, counted, rest⟩

/-- For every state and every sequence of temperature commands, at any times: they are a
saturating counter exactly when all numbers among them are unwrapped. -/
theorem saturating_counter_iff (name : CString) (world : World)
    (instructions : List (Tm × Instruction)) (fits : ∀ entry ∈ instructions, entry.2.Fits) :
    SaturatingCounter name world instructions ↔
      ∀ entry ∈ instructions, ∀ value, entry.2 = .number value → Unwrapped value := by
  constructor
  · intro counter
    exact (follows_iff name instructions world fits).mp counter.follows
  · intro unwrapped
    constructor
    · exact (follows_iff name instructions world fits).mpr unwrapped
    · intro entry member other otherMember low high isLow isHigh ordered start cold warm
        coldStep warmStep
      obtain ⟨next, stepped, counted⟩ := step_counted name start entry.1 entry.2 (fits entry member)
      cases stepped.symm.trans coldStep
      obtain ⟨next, stepped, otherCounted⟩ :=
        step_counted name start other.1 other.2 (fits other otherMember)
      cases stepped.symm.trans warmStep
      rw [counted.mpr (unwrapped entry member), otherCounted.mpr (unwrapped other otherMember),
        isLow, isHigh]
      simp only [Instruction.counted]
      omega

/-- An afternoon of commands. -/
def afternoon : List (Tm × Instruction) :=
  [(clock 13 0 0, .number 30), (clock 14 0 0, .up), (clock 15 0 0, .down),
    (clock 16 0 0, .number (-256))]

/-- They follow the counter from power-on. -/
theorem saturating_counter_iff_afternoon :
    SaturatingCounter (cStr (lit "salon")) powerOn afternoon := by
  have fits : ∀ entry ∈ afternoon, entry.2.Fits := by
    simp [afternoon, Instruction.Fits, FitsInt]
  refine (saturating_counter_iff (cStr (lit "salon")) powerOn afternoon fits).mpr ?_
  simp [afternoon, Unwrapped]

/-- The number 256 leads to 16 degrees, not to 30. -/
theorem wrapped_number_cold :
    ¬ ∀ (name : CString) (world : World) (instructions : List (Tm × Instruction)),
      Reachable (step name) powerOn world → (∀ entry ∈ instructions, entry.2.Fits) →
        SaturatingCounter name world instructions := by
  intro counter
  have fits : Instruction.Fits (.number 256) := by simp [Instruction.Fits, FitsInt]
  have one := counter (cStr (lit "salon")) powerOn [(clock 13 0 0, .number 256)]
    ⟨[], rfl⟩ (by simpa using fits)
  obtain ⟨next, stepped, counted, _⟩ := one.follows
  obtain ⟨other, same, iff⟩ := step_counted (cStr (lit "salon")) powerOn (clock 13 0 0)
    (.number 256) fits
  cases stepped.symm.trans same
  have unwrapped := iff.mp counted 256 rfl
  revert unwrapped
  decide

end WhirlpoolAc.TemperatureCounter
