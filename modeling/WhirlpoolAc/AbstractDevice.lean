import WhirlpoolAc.DeviceRuns

/-!
# The device as a record of eight values

What the controller is for, without frames and bit-fields: a record of eight values.
An accepted message overwrites one value, a commit sends the record and, when it
came over MQTT, reports it. A setpoint carries its range, so no operation on records
has to restore it.

Messages are read by the reference grammar, and values by the tables of the fields.
A temperature is a step word or a decimal number.
-/

namespace WhirlpoolAc.AbstractDevice

open ByteStrings CxxLibrary DecimalText JsonText AirConditioner MqttMessages CommandRequests
  TopicGrammar DeviceRuns

/-- A temperature the air conditioner can hold, in degrees. -/
structure Setpoint where
  degrees : Nat
  inside : 16 ≤ degrees ∧ degrees ≤ 30
deriving DecidableEq

/-- The setpoint nearest to a number of degrees. -/
def Setpoint.nearest (degrees : Nat) : Setpoint where
  degrees := min 30 (max 16 degrees)
  inside := by omega

/-- One degree up, or the top. -/
def Setpoint.warmer (setpoint : Setpoint) : Setpoint := .nearest (setpoint.degrees + 1)

/-- One degree down, or the bottom. -/
def Setpoint.cooler (setpoint : Setpoint) : Setpoint := .nearest (setpoint.degrees - 1)

/-- The abstract device. -/
structure Record where
  mode : Mode
  power : Bool
  fan : Fan
  swing : Bool
  sleep : Bool
  jet : Bool
  light : Bool
  temperature : Setpoint
deriving DecidableEq

/-- The device as it is switched on. -/
def Record.initial : Record where
  mode := .Cool
  power := false
  fan := .Auto
  swing := false
  sleep := false
  jet := false
  light := true
  temperature := .nearest 24

/-- The number a text denotes, when it consists of decimal digits. -/
def numeral (value : Bytes) : Option Nat :=
  if value ≠ [] ∧ value.all fun byte => (digitValue byte).isSome then
    some (number (value.filterMap digitValue))
  else none

/-- A field's command with a folded value: an accepted value overwrites the field. -/
def Record.accept (record : Record) (value : Bytes) : StatusField → Record
  | .temperature =>
      if value = lit "up" then { record with temperature := record.temperature.warmer }
      else if value = lit "down" then { record with temperature := record.temperature.cooler }
      else (numeral value).elim record fun degrees =>
        { record with temperature := .nearest degrees }
  | .light => (onoffMap.find value).elim record fun on => { record with light := on }
  | .mode => (modeMap.find value).elim record fun selected => { record with mode := selected }
  | .state => (onoffMap.find value).elim record fun on => { record with power := on }
  | .fan => (fanMap.find value).elim record fun speed => { record with fan := speed }
  | .swing => (onoffMap.find value).elim record fun on => { record with swing := on }
  | .jet => (onoffMap.find value).elim record fun on => { record with jet := on }
  | .sleep => (onoffMap.find value).elim record fun on => { record with sleep := on }

/-- The control bits that stand for a field of the record. -/
def Record.encode (record : Record) : StatusField → Nat
  | .temperature => record.temperature.degrees - 16
  | .light => record.light.toNat
  | .mode => record.mode.tounderlying.toNat
  | .state => record.power.toNat
  | .fan => record.fan.tounderlying.toNat
  | .swing => record.swing.toNat
  | .jet => record.jet.toNat
  | .sleep => record.sleep.toNat

/-- The eight values as a JSON object. -/
def Record.json (record : Record) : Bytes :=
  serializeJson
    [(lit "temperature", .unsigned record.temperature.degrees),
      (lit "light", .boolean record.light),
      (lit "mode", .unsigned record.mode.tounderlying.toNat),
      (lit "state", .boolean record.power),
      (lit "fan", .unsigned record.fan.tounderlying.toNat),
      (lit "jet", .boolean record.jet),
      (lit "swing", .boolean record.swing),
      (lit "sleep", .boolean record.sleep)]

/-- The abstract machine: the record, the records sent so far and those reported. -/
structure Shadow where
  record : Record
  frames : List Record
  reports : List Record

/-- Before any event. -/
def Shadow.initial : Shadow := ⟨.initial, [], []⟩

/-- Send the record. -/
def Shadow.commit (shadow : Shadow) : Shadow :=
  { shadow with frames := shadow.frames ++ [shadow.record] }

/-- Report the record. -/
def Shadow.report (shadow : Shadow) : Shadow :=
  { shadow with reports := shadow.reports ++ [shadow.record] }

/-- The reaction of the abstract machine to a command with a folded value. -/
def Shadow.obey (shadow : Shadow) (value : Bytes) : Command → Shadow
  | .change field => { shadow with record := shadow.record.accept value field }
  | .commit => shadow.commit.report

/-- The reaction of the abstract machine to an event. -/
def Shadow.step (name : CString) (shadow : Shadow) : Event → Shadow
  | .connected _ => shadow
  | .restCommit _ => shadow.commit
  | .serialCommit _ => shadow.commit
  | .message _ topic payload _ _ =>
      match addressed name topic payload with
      | none => shadow
      | some (word, value) => (Command.ofName word).elim shadow (shadow.obey (lower value))

/-- Taking over a looked-up value changes no field that its assignment leaves alone. -/
theorem encode_elim {ν : Type} (found : Option ν) (record : Record) (set : ν → Record)
    (other : StatusField) (kept : ∀ value, (set value).encode other = record.encode other) :
    (found.elim record set).encode other = record.encode other := by
  cases found with
  | none => rfl
  | some value => exact kept value

/-- A command overwrites no other field than its own. -/
theorem accept_other (record : Record) (value : Bytes) (field other : StatusField)
    (different : other ≠ field) :
    (record.accept value field).encode other = record.encode other := by
  cases field with
  | temperature =>
    have kept (setpoint : Setpoint) :
        ({ record with temperature := setpoint } : Record).encode other = record.encode other := by
      cases other <;> first | rfl | contradiction
    simp only [Record.accept]
    split
    · exact kept _
    · split
      · exact kept _
      · exact encode_elim _ record _ other fun degrees => kept (.nearest degrees)
  | light =>
    exact encode_elim _ record _ other fun on => by cases other <;> first | rfl | contradiction
  | mode =>
    exact encode_elim _ record _ other fun selected => by
      cases other <;> first | rfl | contradiction
  | state =>
    exact encode_elim _ record _ other fun on => by cases other <;> first | rfl | contradiction
  | fan =>
    exact encode_elim _ record _ other fun speed => by
      cases other <;> first | rfl | contradiction
  | swing =>
    exact encode_elim _ record _ other fun on => by cases other <;> first | rfl | contradiction
  | jet =>
    exact encode_elim _ record _ other fun on => by cases other <;> first | rfl | contradiction
  | sleep =>
    exact encode_elim _ record _ other fun on => by cases other <;> first | rfl | contradiction

end WhirlpoolAc.AbstractDevice
