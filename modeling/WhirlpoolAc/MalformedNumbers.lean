import WhirlpoolAc.EscapingExceptions

/-!
# Temperature payloads that are no numbers

A payload that is neither a step word nor as a whole an optionally signed run of digits
should be a no-op. The handler leaves the decision to the library's conversion, which
accepts any text that starts with a number and is never asked where it stopped. So a
malformed payload is refused exactly when no number starts it: behind leading blanks
and one optional sign there is no digit.
-/

namespace WhirlpoolAc.MalformedNumbers

open ByteStrings CxxLibrary DecimalText FrameLayout AirConditioner Firmware MqttMessages
  CommandRequests DeviceRuns EscapingExceptions PartialRuns

/-- A decimal digit. -/
def isDigit (byte : UInt8) : Bool := 48 ≤ byte && byte ≤ 57

/-- A text behind its optional sign. -/
def afterSign : Bytes → Bytes
  | [] => []
  | first :: rest => if first = 43 ∨ first = 45 then rest else first :: rest

/-- The payload as a whole is an optionally signed decimal integer. -/
def DecimalInteger (payload : Bytes) : Prop :=
  afterSign payload ≠ [] ∧ (afterSign payload).all isDigit = true

instance (payload : Bytes) : Decidable (DecimalInteger payload) := by
  unfold DecimalInteger
  infer_instance

/-- A payload that the temperature command should not understand. -/
structure Malformed (payload : Bytes) : Prop where
  notUp : lower payload ≠ lit "up"
  notDown : lower payload ≠ lit "down"
  notNumber : ¬ DecimalInteger payload

/-- A digit follows the leading blanks and the optional sign of a payload. -/
def startsWithNumber (payload : Bytes) : Bool :=
  (afterSign (payload.dropWhile isSpace)).head?.any isDigit

/-- The program state that a call leaves, whether it returns or throws. -/
def stateAfter : EStateM.Result Exn World Unit → World
  | .ok _ after => after
  | .error _ after => after

/-- The nine frame bytes are as before and nothing was published. -/
def Untouched (before after : World) : Prop :=
  after.g_whirpool.m_data = before.g_whirpool.m_data ∧ after.sent = before.sent

/-- A byte has a digit value exactly when it is a digit. -/
theorem digitValue_isSome (byte : UInt8) : (digitValue byte).isSome = isDigit byte := by
  unfold digitValue isDigit
  by_cases digit : 48 ≤ byte ∧ byte ≤ 57
  · simp [digit]
  · rw [if_neg digit, Option.isSome_none]
    simpa using digit

/-- Digits give no number exactly when the first byte is not one. -/
theorem unsignedPrefix_none_iff (bytes : Bytes) :
    unsignedPrefix bytes = none ↔ bytes.head?.any isDigit = false := by
  cases bytes with
  | nil => simp [unsignedPrefix, digitRun]
  | cons first rest =>
    have same := digitValue_isSome first
    cases value : digitValue first with
    | none =>
      rw [value] at same
      simp [unsignedPrefix, digitRun, value, ← same]
    | some digit =>
      rw [value] at same
      simp [unsignedPrefix, digitRun, value, ← same]

/-- The conversion finds no number exactly when the text does not start with one. -/
theorem numericPrefix_none_iff (bytes : Bytes) :
    numericPrefix bytes = none ↔ startsWithNumber bytes = false := by
  unfold numericPrefix startsWithNumber
  cases bytes.dropWhile isSpace with
  | nil => simp [afterSign]
  | cons first rest =>
    by_cases minus : first = 45
    · have digits := unsignedPrefix_none_iff rest
      cases value : unsignedPrefix rest with
      | none => simpa [afterSign, minus, value] using digits.mp value
      | some number => simpa [afterSign, minus, value] using digits
    · by_cases plus : first = 43
      · simp [afterSign, plus, unsignedPrefix_none_iff]
      · simp [afterSign, minus, plus, unsignedPrefix_none_iff]

/-- The verdict on a malformed payload is that on the number it starts with. -/
theorem malformed_request (payload : Bytes) (malformed : Malformed payload) :
    namedRequest (lit "temperature") (lower payload) = numeralRequest payload := by
  have known : Command.ofName (lit "temperature") = some (.change .temperature) := by decide
  rw [namedRequest, known]
  show temperatureRequest (lower payload) = numeralRequest payload
  rw [temperatureRequest, if_neg malformed.notUp, if_neg malformed.notDown, numeralRequest,
    numericPrefix_lower, numeralRequest]

/-- An accepted setting is published. -/
theorem assigned_touches (client : MqttClientForIR) (setting : Setting) (world : World) :
    ¬ Untouched world (assigned client setting world) := by
  rintro ⟨_, published⟩
  have longer := congrArg List.length published
  simp [assigned, World.emit, World.control] at longer

/-- In every state and for every malformed payload, the temperature command returns with
the frame bytes unchanged and nothing published exactly when no number starts the
payload. A number outside `int` also leaves both alone, but its exception escapes. -/
theorem malformed_commands_iff (name : CString) (payload : Bytes) (world : World)
    (malformed : Malformed payload) :
    ((∃ after, (controller name).proceedCommand (lit "temperature") payload world =
        .ok () after ∧ Untouched world after) ↔ startsWithNumber payload = false) ∧
    (Untouched world
        (stateAfter ((controller name).proceedCommand (lit "temperature") payload world)) ↔
      startsWithNumber payload = false ∨ OutOfRange payload) := by
  rw [proceedCommand_run, malformed_request payload malformed, numeralRequest,
    ← numericPrefix_none_iff, OutOfRange]
  cases numericPrefix payload with
  | none => simp [perform, stateAfter, Untouched]
  | some number =>
    by_cases fits : FitsInt number
    · have touched := assigned_touches (controller name) (.temperature (toUInt8 number)) world
      simp [fits, perform, stateAfter, touched]
    · simp [fits, perform, stateAfter, Untouched]

/-- A word is refused in the state after power-on. -/
theorem malformed_commands_iff_word :
    ∃ after, (controller (cStr (lit "salon"))).proceedCommand (lit "temperature") (lit "warm")
      powerOn = .ok () after ∧ Untouched powerOn after :=
  (malformed_commands_iff (cStr (lit "salon")) (lit "warm") powerOn
    ⟨by decide, by decide, by decide⟩).1.mpr (by decide)

/-- Digits followed by letters set the temperature of a device after power-on. -/
theorem trailing_letters_accepted :
    ¬ ∀ (name : CString) (payload : Bytes) (world : World),
      Reachable (step name) powerOn world → Malformed payload →
        Untouched world
          (stateAfter ((controller name).proceedCommand (lit "temperature") payload world)) := by
  intro refused
  have untouched := refused (cStr (lit "salon")) (lit "21abc") powerOn ⟨[], rfl⟩
    ⟨by decide, by decide, by decide⟩
  have changed : (stateAfter ((controller (cStr (lit "salon"))).proceedCommand
      (lit "temperature") (lit "21abc") powerOn)).g_whirpool.m_data ≠
        powerOn.g_whirpool.m_data := by decide
  exact changed untouched.1

end WhirlpoolAc.MalformedNumbers
