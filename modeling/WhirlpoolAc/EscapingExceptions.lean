import WhirlpoolAc.DeviceRuns

/-!
# Which messages let an exception escape

Topic parsing, splitting, table lookups and the commit callback never throw here.
The one exception that leaves the client is that of the numeric conversion: the
temperature handler catches the error of a text without a number and lets the
error of a number outside `int` pass. Whether a message does so is a matter of its
topic and payload alone; the state of the device plays no part.
-/

namespace WhirlpoolAc.EscapingExceptions

open ByteStrings CxxLibrary Firmware MqttMessages CommandRequests TopicGrammar DeviceRuns
  PartialRuns

/-- A text starts with a number that no `int` holds. -/
def OutOfRange (value : Bytes) : Prop :=
  ∃ number, numericPrefix value = some number ∧ ¬ FitsInt number

/-- A message addresses the temperature command with such a text. -/
def Unconvertible (name topic : CString) (payload : Bytes) : Prop :=
  ∃ value, addressed name topic payload = some (lit "temperature", value) ∧ OutOfRange value

/-- Numerals are judged by the number they start with. -/
theorem numeralRequest_overflow_iff (value : Bytes) :
    numeralRequest value = .overflow ↔ OutOfRange value := by
  unfold numeralRequest OutOfRange
  cases numericPrefix value with
  | none => simp
  | some number => by_cases fits : FitsInt number <;> simp [fits]

/-- The two step words start with no number, so only numerals can fail. -/
theorem temperatureRequest_overflow_iff (value : Bytes) :
    temperatureRequest value = .overflow ↔ OutOfRange value := by
  have noNumber (word : Bytes) (none : numericPrefix word = none) : ¬ OutOfRange word := by
    rintro ⟨number, found, _⟩
    rw [none] at found
    cases found
  unfold temperatureRequest
  split
  · next up => simpa using up ▸ noNumber (lit "up") (by decide)
  · split
    · next down => simpa using down ▸ noNumber (lit "down") (by decide)
    · exact numeralRequest_overflow_iff value

/-- A table handler never fails. -/
theorem tableRequest_ne_overflow {ν : Type} (table : Map Bytes ν) (setting : ν → Setting)
    (value : Bytes) : tableRequest table setting value ≠ .overflow := by
  unfold tableRequest
  cases table.find value <;> exact Request.noConfusion

/-- Among all commands only the temperature command can fail. -/
theorem request_overflow_iff (command : Command) (value : Bytes) :
    request command value = .overflow ↔ command = .change .temperature ∧ OutOfRange value := by
  cases command with
  | commit => simp [request]
  | change field =>
    cases field with
    | temperature => simp [request, temperatureRequest_overflow_iff]
    | _ => simp [request, tableRequest_ne_overflow]

/-- Only the word of the temperature command selects it. -/
theorem namedRequest_overflow_iff (command value : Bytes) :
    namedRequest command value = .overflow ↔ command = lit "temperature" ∧ OutOfRange value := by
  unfold namedRequest
  cases registered : Command.ofName command with
  | none =>
    have other : command ≠ lit "temperature" := by
      rintro rfl
      cases registered
    simp [other]
  | some known =>
    have word : known.name = command := by simpa using List.find?_some registered
    have only : known = .change .temperature ↔ command = lit "temperature" := by
      rw [← word]
      cases known with
      | commit => decide
      | change field => cases field <;> decide
    simp [request_overflow_iff, only]

/-- A message fails exactly when it is unconvertible; folding its case does not matter. -/
theorem verdict_overflow_iff (name topic : CString) (payload : Bytes) :
    verdict name topic payload = .overflow ↔ Unconvertible name topic payload := by
  unfold verdict Unconvertible
  cases addressed name topic payload with
  | none => simp
  | some found =>
    obtain ⟨command, value⟩ := found
    simp [namedRequest_overflow_iff, OutOfRange, numericPrefix_lower]

/-- Carrying out a verdict returns unless the verdict is the failure. -/
theorem perform_returns_iff (client : MqttClientForIR) (world : World) (request : Request) :
    (∃ after, perform client world request = .ok () after) ↔ request ≠ .overflow := by
  cases request <;> simp [perform]

/-- In every state of a running controller, parsing and delivery return normally
exactly when the message is not a temperature command with a number outside `int`. -/
theorem message_returns_iff (name topic : CString) (payload : Bytes) (len index total : Nat)
    (world : World) :
    ((∃ after, (controller name).parseMessage topic payload world = .ok () after) ↔
      ¬ Unconvertible name topic payload) ∧
    ((∃ after, (controller name).onMessage topic payload len index total world = .ok () after) ↔
      ¬ Unconvertible name topic (payload.take len)) := by
  have parsing (payload : Bytes) :
      (∃ after, (controller name).parseMessage topic payload world = .ok () after) ↔
        ¬ Unconvertible name topic payload := by
    rw [parseMessage_run, perform_returns_iff, ne_eq, verdict_overflow_iff]
  exact ⟨parsing payload, parsing (payload.take len)⟩

/-- Eleven nines as a temperature: the conversion's exception escapes from the
device as it is after power-on. -/
theorem long_numeral_escapes :
    ¬ ∀ (name topic : CString) (payload : Bytes) (world : World),
      Reachable (step name) powerOn world →
        ∃ after, (controller name).onMessage topic payload payload.length 0 payload.length world =
          .ok () after := by
  intro always
  obtain ⟨after, returned⟩ := always (cStr (lit "salon"))
    (commandTopic (cStr (lit "salon")) (.change .temperature)) (lit "99999999999") powerOn
    ⟨[], rfl⟩
  have failed : verdict (cStr (lit "salon"))
      (commandTopic (cStr (lit "salon")) (.change .temperature)) (lit "99999999999") =
        .overflow := by decide
  rw [onMessage_run, failed] at returned
  cases returned

end WhirlpoolAc.EscapingExceptions
