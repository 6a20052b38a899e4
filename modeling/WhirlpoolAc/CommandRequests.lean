import WhirlpoolAc.MqttMessages

/-!
# Commands as requests

What a handler does depends on its value only through a small verdict: ignore the
message, assign one setting, commit, or fail because a numeral does not fit an
`int`. This module computes the verdict from the command and the folded value
alone and proves that each handler performs exactly its verdict. Later results
reason about requests and settings and never unfold a handler.

The effect of a setting on the frame is one field assignment; what a handler
announces is the topic the source names, with the text the source looks up.
-/

namespace WhirlpoolAc.CommandRequests

open ByteStrings CxxLibrary FrameLayout AirConditioner Firmware MqttMessages

/-- The published fields; each is also a command. -/
inductive StatusField where
  | temperature | light | mode | state | fan | swing | jet | sleep
deriving DecidableEq, Repr

/-- The nine registered commands. -/
inductive Command where
  | change (field : StatusField)
  | commit
deriving DecidableEq, Repr

/-- A field's word in topics. -/
def StatusField.name : StatusField → Bytes
  | .temperature => lit "temperature"
  | .light => lit "light"
  | .mode => lit "mode"
  | .state => lit "state"
  | .fan => lit "fan"
  | .swing => lit "swing"
  | .jet => lit "jet"
  | .sleep => lit "sleep"

/-- A command's word in topics. -/
def Command.name : Command → Bytes
  | .change field => field.name
  | .commit => lit "commit"

/-- All commands, in the order of their registration. -/
def commands : List Command :=
  [.change .temperature, .change .light, .change .mode, .change .state, .change .fan,
    .change .swing, .change .jet, .change .sleep, .commit]

/-- The command with a given word, if one is registered. -/
def Command.ofName (name : Bytes) : Option Command :=
  commands.find? fun command => command.name = name

/-- One accepted change of the controller. A temperature has already been
converted to a byte; the two steps refer to the current setpoint. -/
inductive Setting where
  | temperature (degrees : UInt8)
  | warmer
  | cooler
  | light (on : Bool)
  | mode (selected : Mode)
  | state (on : Bool)
  | fan (speed : Fan)
  | swing (on : Bool)
  | jet (on : Bool)
  | sleep (on : Bool)
deriving DecidableEq, Repr

/-- The verdict on a command and its value. -/
inductive Request where
  | ignored
  | overflow
  | assign (setting : Setting)
  | commit
deriving DecidableEq, Repr

/-- The setter call of an accepted setting. -/
def Setting.apply : Setting → WhirlpoolYJ1B → WhirlpoolYJ1B
  | .temperature degrees, ac => ac.setTemperature degrees
  | .warmer, ac => ac.setTemperature (toUInt8 (ac.getTemperature.toNat + 1))
  | .cooler, ac => ac.setTemperature (toUInt8 (ac.getTemperature.toNat - 1))
  | .light on, ac => ac.setLight on
  | .mode selected, ac => ac.setMode selected.tounderlying
  | .state on, ac => ac.setPower on
  | .fan speed, ac => ac.setFan speed.tounderlying
  | .swing on, ac => ac.setSwing on
  | .jet on, ac => ac.setJet on
  | .sleep on, ac => ac.setSleep on

/-- The field whose topic the handler publishes. The fan handler announces swing. -/
def Setting.announced : Setting → StatusField
  | .temperature _ | .warmer | .cooler => .temperature
  | .light _ => .light
  | .mode _ => .mode
  | .state _ => .state
  | .fan _ => .swing
  | .swing _ => .swing
  | .jet _ => .jet
  | .sleep _ => .sleep

/-- A numeral is accepted through its `int` value, refused when it has none. -/
def numeralRequest (value : Bytes) : Request :=
  match numericPrefix value with
  | none => .ignored
  | some number => if FitsInt number then .assign (.temperature (toUInt8 number)) else .overflow

/-- The verdict of the temperature handler. -/
def temperatureRequest (value : Bytes) : Request :=
  if value = lit "up" then .assign .warmer
  else if value = lit "down" then .assign .cooler
  else numeralRequest value

/-- The verdict of a table handler. -/
def tableRequest {ν : Type} (table : Map Bytes ν) (setting : ν → Setting) (value : Bytes) :
    Request :=
  match table.find value with
  | some entry => .assign (setting entry)
  | none => .ignored

/-- The verdict on a command with a folded value. -/
def request : Command → Bytes → Request
  | .change .temperature => temperatureRequest
  | .change .light => tableRequest onoffMap .light
  | .change .mode => tableRequest modeMap .mode
  | .change .state => tableRequest onoffMap .state
  | .change .fan => tableRequest fanMap .fan
  | .change .swing => tableRequest onoffMap .swing
  | .change .jet => tableRequest onoffMap .jet
  | .change .sleep => tableRequest onoffMap .sleep
  | .commit => fun _ => .commit

/-- The two texts of a flag. -/
def onOffText (on : Bool) : Bytes := if on then lit "On" else lit "Off"

/-- The fan speed a two-bit field holds. -/
def fanOf : Nat → Fan
  | 0 => .Auto
  | 1 => .V1
  | 2 => .V2
  | _ => .V3

/-- An enumerator's own name. -/
def fanName : Fan → Bytes
  | .Auto => lit "Auto"
  | .V1 => lit "V1"
  | .V2 => lit "V2"
  | .V3 => lit "V3"

/-- The mode text the table yields: it distinguishes zero from everything else. -/
def modeText (mode : Nat) : Bytes := if mode = 0 then lit "Sense_6th" else lit "Cool"

/-- The payload a status topic receives. -/
def StatusField.text : StatusField → WhirlpoolYJ1B → Bytes
  | .temperature, ac => toString ac.getTemperature.toNat
  | .light, ac => onOffText ac.getLight
  | .mode, ac => modeText (ac.field .mode)
  | .state, ac => onOffText ac.getPower
  | .fan, ac => fanName (fanOf (ac.field .fan))
  | .swing, ac => onOffText ac.getSwing
  | .jet, ac => onOffText ac.getJet
  | .sleep, ac => onOffText ac.getSleep

/-- The On/Off table covers both keys. -/
theorem mapOnOff_at (on : Bool) : mapOnOff.at on = .ok (onOffText on) := by
  cases on <;> rfl

/-- The mode table, keyed by `bool`, has an entry for every mode value. -/
theorem getModeText_ok (ac : WhirlpoolYJ1B) : ac.getModeText = .ok (modeText (ac.field .mode)) := by
  have small : ac.field .mode < 8 := readField_lt .mode ac.m_data
  have every : ∀ mode < 8, mapMode.at (toBool (UInt8.ofNat mode).toNat) = .ok (modeText mode) := by
    decide
  exact every _ small

/-- The fan table has an entry for every value of the two-bit field. -/
theorem getFanText_ok (ac : WhirlpoolYJ1B) :
    ac.getFanText = .ok (fanName (fanOf (ac.field .fan))) := by
  have small : ac.field .fan < 4 := readField_lt .fan ac.m_data
  have every : ∀ fan < 4, mapFan.at (UInt8.ofNat fan) = .ok (fanName (fanOf fan)) := by
    decide
  exact every _ small

/-- A retained status message about one field. -/
def statusPacket (client : MqttClientForIR) (field : StatusField) (ac : WhirlpoolYJ1B) : Packet :=
  .publish (client.m_device ++ (lit "/" ++ field.name)) 0 true (field.text ac)

/-- The retained message with the whole state. -/
def jsonPacket (client : MqttClientForIR) (ac : WhirlpoolYJ1B) : Packet :=
  .publish (client.m_device ++ lit "/") 0 true ac.getJson

/-- The report of a commit. -/
def commitedPacket (client : MqttClientForIR) (ac : WhirlpoolYJ1B) : Packet :=
  .publish (client.m_device ++ lit "/commited") 0 false ac.getJson

/-- How a verdict changes the controller. -/
def Request.change (now : Tm) : Request → WhirlpoolYJ1B → WhirlpoolYJ1B
  | .ignored, ac => ac
  | .overflow, ac => ac
  | .assign setting, ac => setting.apply ac
  | .commit, ac => setClock now ac

/-- What a verdict transmits. -/
def Request.frames (now : Tm) : Request → WhirlpoolYJ1B → List Transmission
  | .commit, ac => [stamped now ac]
  | _, _ => []

/-- What a message's verdict sends, given the changed controller. -/
def Request.packets (client : MqttClientForIR) : Request → WhirlpoolYJ1B → List Packet
  | .assign setting, ac => [statusPacket client setting.announced ac, jsonPacket client ac]
  | .commit, ac => [commitedPacket client ac]
  | _, _ => []

/-- The publishing routine of a field. -/
def publishField (client : MqttClientForIR) : StatusField → Fw Unit
  | .temperature => client.publishTemperature
  | .light => client.publishLight
  | .mode => client.publishMode
  | .state => client.publishState
  | .fan => client.publishFan
  | .swing => client.publishSwing
  | .jet => client.publishJet
  | .sleep => client.publishSleep

/-- Publishing one text: the lookup succeeds and one packet is queued. -/
theorem publishRetained_run (client : MqttClientForIR) (suffix payload : Bytes)
    (text : WhirlpoolYJ1B → Except Exn Bytes) (world : World)
    (found : text world.g_whirpool = .ok payload) :
    client.publishRetained suffix text world =
      .ok () (world.emit [.publish (client.m_device ++ suffix) 0 true payload]) := by
  simp [MqttClientForIR.publishRetained, found]

/-- No status text is ever missing, so publishing a field always succeeds. -/
theorem publishField_run (client : MqttClientForIR) (field : StatusField) (world : World) :
    publishField client field world =
      .ok () (world.emit [statusPacket client field world.g_whirpool]) := by
  cases field with
  | temperature => exact publishRetained_run client _ _ _ world rfl
  | light => exact publishRetained_run client _ _ _ world (mapOnOff_at _)
  | mode => exact publishRetained_run client _ _ _ world (getModeText_ok _)
  | state => exact publishRetained_run client _ _ _ world (mapOnOff_at _)
  | fan => exact publishRetained_run client _ _ _ world (getFanText_ok _)
  | swing => exact publishRetained_run client _ _ _ world (mapOnOff_at _)
  | jet => exact publishRetained_run client _ _ _ world (mapOnOff_at _)
  | sleep => exact publishRetained_run client _ _ _ world (mapOnOff_at _)

/-- Publishing the whole state always succeeds. -/
theorem publishStatus_run (client : MqttClientForIR) (world : World) :
    client.publishStatus world = .ok () (world.emit [jsonPacket client world.g_whirpool]) :=
  publishRetained_run client _ _ _ world rfl

/-- A table handler performs its verdict: ignored values change nothing, accepted
ones are assigned and then announced together with the whole state. -/
theorem onTable_run {ν : Type} (client : MqttClientForIR) (table : Map Bytes ν)
    (setting : ν → Setting) (field : StatusField) (value : Bytes) (world : World) :
    client.onTable table (fun entry => (setting entry).apply) (publishField client field)
        value world =
      .ok () (match table.find value with
        | some entry =>
            (world.control (setting entry).apply).emit
              [statusPacket client field ((setting entry).apply world.g_whirpool),
                jsonPacket client ((setting entry).apply world.g_whirpool)]
        | none => world) := by
  cases lookup : table.find value with
  | none => simp [MqttClientForIR.onTable, lookup]
  | some entry =>
    simp [MqttClientForIR.onTable, lookup, publishField_run, publishStatus_run]

/-- What an accepted setting does to the program. -/
def assigned (client : MqttClientForIR) (setting : Setting) (world : World) : World :=
  (world.control setting.apply).emit
    [statusPacket client setting.announced (setting.apply world.g_whirpool),
      jsonPacket client (setting.apply world.g_whirpool)]

/-- What a commit command does to the program: the commit routine, then the report. -/
def committed (client : MqttClientForIR) (world : World) : World :=
  ((world.control (setClock world.now)).transmit (stamped world.now world.g_whirpool)).emit
    [commitedPacket client (setClock world.now world.g_whirpool)]

/-- Carrying out a verdict. Only a numeral that does not fit makes a call fail, and
it fails in the state the call found. -/
def perform (client : MqttClientForIR) (world : World) : Request → EStateM.Result Exn World Unit
  | .ignored => .ok () world
  | .overflow => .error .outOfRange world
  | .assign setting => .ok () (assigned client setting world)
  | .commit => .ok () (committed client world)

/-- A change of the setpoint that agrees with a setting on the present controller,
followed by its two publications, carries out that setting. -/
theorem setpoint_run (client : MqttClientForIR) (setting : Setting)
    (change : WhirlpoolYJ1B → WhirlpoolYJ1B) (world : World)
    (announces : setting.announced = .temperature)
    (same : change world.g_whirpool = setting.apply world.g_whirpool) :
    (do
      modifyWhirlpool change
      client.publishTemperature
      client.publishStatus : Fw Unit) world = perform client world (.assign setting) := by
  have published (after : World) : client.publishTemperature after =
      .ok () (after.emit [statusPacket client .temperature after.g_whirpool]) :=
    publishField_run client .temperature after
  have changed : world.control change = world.control setting.apply := by
    simp only [World.control, same]
  simp [published, publishStatus_run, perform, assigned, announces, changed]

/-- The temperature handler performs its verdict. The exception of a value without
a numeral is caught; the exception of a numeral that does not fit passes through. -/
theorem onTemperature_run (client : MqttClientForIR) (value : Bytes) (world : World) :
    client.onTemperature value world = perform client world (temperatureRequest value) := by
  cases value with
  | nil => rfl
  | cons first rest =>
    have present : first :: rest ≠ [] := List.cons_ne_nil first rest
    simp only [MqttClientForIR.onTemperature, if_neg present, temperatureRequest]
    by_cases up : first :: rest = lit "up"
    · have warmed := setpoint_run client .warmer
        (·.setTemperature (toUInt8 (world.g_whirpool.getTemperature.toNat + 1))) world rfl rfl
      simp only [bind_run, modifyWhirlpool_run] at warmed
      simp only [if_pos up, tryCatch_run, bind_run, whirlpool_run, modifyWhirlpool_run, warmed,
        perform]
    by_cases down : first :: rest = lit "down"
    · have cooled := setpoint_run client .cooler
        (·.setTemperature (toUInt8 (world.g_whirpool.getTemperature.toNat - 1))) world rfl rfl
      simp only [bind_run, modifyWhirlpool_run] at cooled
      simp only [if_neg up, if_pos down, tryCatch_run, bind_run, whirlpool_run,
        modifyWhirlpool_run, cooled, perform]
    simp only [if_neg up, if_neg down, numeralRequest]
    cases numeral : numericPrefix (first :: rest) with
    | none => simp [stoi, numeral, perform]
    | some number =>
      by_cases fits : FitsInt number
      · have moved := setpoint_run client (.temperature (toUInt8 number))
          (·.setTemperature (toUInt8 number)) world rfl rfl
        simp only [bind_run, modifyWhirlpool_run] at moved
        simp only [stoi, numeral, if_pos fits, tryCatch_run, bind_run, rethrow_ok,
          modifyWhirlpool_run, moved, perform]
      · simp [stoi, numeral, fits, perform]

/-- The client of a running controller: constructed, then set up with its name and
the commit routine of the main program. -/
def controller (name : CString) : MqttClientForIR :=
  MqttClientForIR.construct.setup name Firmware.onCommit

/-- The handler registered for a command. -/
def handler (client : MqttClientForIR) : Command → Bytes → Fw Unit
  | .change .temperature => client.onTemperature
  | .change .light => client.onLight
  | .change .mode => client.onMode
  | .change .state => client.onState
  | .change .fan => client.onFan
  | .change .swing => client.onSwing
  | .change .jet => client.onJet
  | .change .sleep => client.onSleep
  | .commit => fun _ => client.onCommit

/-- A table handler with its own announcement performs its verdict. -/
theorem onTable_performs {ν : Type} (client : MqttClientForIR) (table : Map Bytes ν)
    (setting : ν → Setting) (field : StatusField) (value : Bytes) (world : World)
    (announces : ∀ entry, (setting entry).announced = field) :
    client.onTable table (fun entry => (setting entry).apply) (publishField client field)
        value world = perform client world (tableRequest table setting value) := by
  rw [onTable_run, tableRequest]
  cases table.find value with
  | none => rfl
  | some entry => simp [perform, assigned, announces]

/-- The commit command of a running controller runs the commit routine and reports. -/
theorem onCommit_performs (name : CString) (world : World) :
    (controller name).onCommit world = .ok () (committed (controller name) world) := by
  have installed : (controller name).m_commitEvent = some Firmware.onCommit := rfl
  simp [MqttClientForIR.onCommit, installed, MqttClientForIR.publishCommited, committed,
    commitedPacket]

/-- Every handler performs the verdict on its value. -/
theorem handler_run (name : CString) (command : Command) (value : Bytes) (world : World) :
    handler (controller name) command value world =
      perform (controller name) world (request command value) := by
  cases command with
  | commit => exact onCommit_performs name world
  | change field =>
    cases field with
    | temperature => exact onTemperature_run _ value world
    | light => exact onTable_performs _ onoffMap .light .light value world fun _ => rfl
    | mode => exact onTable_performs _ modeMap .mode .mode value world fun _ => rfl
    | state => exact onTable_performs _ onoffMap .state .state value world fun _ => rfl
    | fan => exact onTable_performs _ fanMap .fan .swing value world fun _ => rfl
    | swing => exact onTable_performs _ onoffMap .swing .swing value world fun _ => rfl
    | jet => exact onTable_performs _ onoffMap .jet .jet value world fun _ => rfl
    | sleep => exact onTable_performs _ onoffMap .sleep .sleep value world fun _ => rfl

/-- The verdict on a command word and a folded value: an unregistered word is ignored. -/
def namedRequest (command value : Bytes) : Request :=
  match Command.ofName command with
  | some known => request known value
  | none => .ignored

/-- Command processing folds the value and performs the verdict of the command
with that word. -/
theorem proceedCommand_run (name : CString) (command payload : Bytes) (world : World) :
    (controller name).proceedCommand command payload world =
      perform (controller name) world (namedRequest command (lower payload)) := by
  have registered : (controller name).m_commands.find command =
      (Command.ofName command).map (handler (controller name)) :=
    Map.find_map commands Command.name (handler (controller name)) command
  rw [MqttClientForIR.proceedCommand, registered, namedRequest]
  cases Command.ofName command with
  | none => rfl
  | some known => exact handler_run name known (lower payload) world

end WhirlpoolAc.CommandRequests
