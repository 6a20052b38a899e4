import WhirlpoolAc.Firmware
import WhirlpoolAc.SplitString

/-!
# The MQTT client of the controller

`MqttClientForIR` parses incoming topics, folds the case of the value, looks the
command up and runs its handler; handlers change the controller object and publish
retained status topics. Every handler is written as the source has it, including
the topics it publishes. Seven handlers share one shape, a table lookup followed
by a setter and two publications, and are instances of `onTable`.

The library call that delivers a message passes a pointer and a length; a publish
is handed to the library, which is taken to deliver it.
-/

namespace WhirlpoolAc.MqttMessages

open ByteStrings CxxLibrary AirConditioner Firmware SplitString

/-- Prefix of every topic. -/
def mqttRoot : Bytes := lit "manobit/AC/"

/-- The words of a switch. -/
def onoffMap : Map Bytes Bool :=
  [(lit "on", true), (lit "off", false), (lit "true", true),
    (lit "false", false), (lit "0", false), (lit "1", true)]

/-- The words of the fan speeds. -/
def fanMap : Map Bytes Fan :=
  [(lit "Auto", .Auto), (lit "V1", .V1), (lit "V2", .V2), (lit "V3", .V3),
    (lit "0", .Auto), (lit "1", .V1), (lit "2", .V2), (lit "3", .V3)]

/-- The words of the modes. -/
def modeMap : Map Bytes Mode :=
  [(lit "Sense_6th", .Sense_6th), (lit "Cool", .Cool), (lit "Dry", .Dry), (lit "Fan", .Fan),
    (lit "Heat", .Heat), (lit "0", .Sense_6th), (lit "1", .Cool), (lit "2", .Dry),
    (lit "3", .Fan), (lit "4", .Heat)]

/-- The client's own data. The commit callback is absent until `setup` installs it. -/
structure MqttClientForIR where
  m_device : Bytes
  m_commitEvent : Option (Fw Unit)

namespace MqttClientForIR

/-- State after construction. -/
def construct : MqttClientForIR := ⟨mqttRoot, none⟩

/-- `setup` appends the device name and installs the commit callback. Server and
credentials go to the library and are not read here. -/
def setup (client : MqttClientForIR) (device : CString) (commit : Fw Unit) : MqttClientForIR :=
  ⟨client.m_device ++ device.bytes, some commit⟩

variable (client : MqttClientForIR)

/-- Publish a text of the controller, retained, below the device topic. -/
def publishRetained (suffix : Bytes) (text : WhirlpoolYJ1B → Except Exn Bytes) : Fw Unit := do
  let payload ← rethrow (text (← whirlpool))
  send (.publish (client.m_device ++ suffix) 0 true payload)

/-- The whole state, below the device topic itself. -/
def publishStatus : Fw Unit := client.publishRetained (lit "/") fun ac => .ok ac.getJson

/-- The setpoint, as a decimal number. -/
def publishTemperature : Fw Unit :=
  client.publishRetained (lit "/temperature") fun ac => .ok (toString ac.getTemperature.toNat)

/-- The light. -/
def publishLight : Fw Unit := client.publishRetained (lit "/light") (·.getLightText)

/-- The mode. -/
def publishMode : Fw Unit := client.publishRetained (lit "/mode") (·.getModeText)

/-- The power, under the name of state. -/
def publishState : Fw Unit := client.publishRetained (lit "/state") (·.getPowerText)

/-- The fan speed. -/
def publishFan : Fw Unit := client.publishRetained (lit "/fan") (·.getFanText)

/-- The swing. -/
def publishSwing : Fw Unit := client.publishRetained (lit "/swing") (·.getSwingText)

/-- The jet mode. -/
def publishJet : Fw Unit := client.publishRetained (lit "/jet") (·.getJetText)

/-- The sleep mode. -/
def publishSleep : Fw Unit := client.publishRetained (lit "/sleep") (·.getSleepText)

/-- The commit report is the one topic that is not retained. -/
def publishCommited : Fw Unit := do
  let ac ← whirlpool
  send (.publish (client.m_device ++ lit "/commited") 0 false ac.getJson)

/-- Everything that is published retained, the whole state first. -/
def sendInitValues : Fw Unit := do
  client.publishStatus
  client.publishTemperature
  client.publishLight
  client.publishMode
  client.publishState
  client.publishFan
  client.publishSwing
  client.publishJet
  client.publishSleep

/-- A new session subscribes to the commands and publishes the state. -/
def onConnect : Fw Unit := do
  send (.subscribe (client.m_device ++ lit "/cmd/#") 2)
  client.sendInitValues

/-- Only the invalid-argument exception of the conversion is caught. -/
def onTemperature (value : Bytes) : Fw Unit := do
  if value = [] then return ()
  try
    if value = lit "up" then
      let ac ← whirlpool
      modifyWhirlpool (·.setTemperature (toUInt8 (ac.getTemperature.toNat + 1)))
    else if value = lit "down" then
      let ac ← whirlpool
      modifyWhirlpool (·.setTemperature (toUInt8 (ac.getTemperature.toNat - 1)))
    else
      let number ← rethrow (stoi value)
      modifyWhirlpool (·.setTemperature (toUInt8 number))
    client.publishTemperature
    client.publishStatus
  catch exception =>
    match exception with
    | .invalidArgument => pure ()
    | other => throw other

/-- The shape of the other handlers: a value outside the table is ignored. -/
def onTable {ν : Type} (table : Map Bytes ν) (set : ν → WhirlpoolYJ1B → WhirlpoolYJ1B)
    (publish : Fw Unit) (value : Bytes) : Fw Unit := do
  match table.find value with
  | some entry =>
      modifyWhirlpool (set entry)
      publish
      client.publishStatus
  | none => pure ()

/-- `light`: a switch. -/
def onLight : Bytes → Fw Unit :=
  client.onTable onoffMap (fun light ac => ac.setLight light) client.publishLight

/-- `mode`: one of the words of the modes. -/
def onMode : Bytes → Fw Unit :=
  client.onTable modeMap (fun mode ac => ac.setMode mode.tounderlying) client.publishMode

/-- `state`: a switch, for the power. -/
def onState : Bytes → Fw Unit :=
  client.onTable onoffMap (fun power ac => ac.setPower power) client.publishState

/-- The handler announces the swing topic, not the fan topic. -/
def onFan : Bytes → Fw Unit :=
  client.onTable fanMap (fun fan ac => ac.setFan fan.tounderlying) client.publishSwing

/-- `swing`: a switch. -/
def onSwing : Bytes → Fw Unit :=
  client.onTable onoffMap (fun swing ac => ac.setSwing swing) client.publishSwing

/-- `jet`: a switch. -/
def onJet : Bytes → Fw Unit :=
  client.onTable onoffMap (fun jet ac => ac.setJet jet) client.publishJet

/-- `sleep`: a switch. -/
def onSleep : Bytes → Fw Unit :=
  client.onTable onoffMap (fun sleep ac => ac.setSleep sleep) client.publishSleep

/-- Calling an absent callback throws. -/
def onCommit : Fw Unit := do
  match client.m_commitEvent with
  | some commit => commit
  | none => throw .badFunctionCall
  client.publishCommited

/-- The handlers the constructor registers. -/
def m_commands : Map Bytes (Bytes → Fw Unit) :=
  [(lit "temperature", client.onTemperature), (lit "light", client.onLight),
    (lit "mode", client.onMode), (lit "state", client.onState), (lit "fan", client.onFan),
    (lit "swing", client.onSwing), (lit "jet", client.onJet), (lit "sleep", client.onSleep),
    (lit "commit", fun _ => client.onCommit)]

/-- A handler gets the payload in lower case; a name without a handler is ignored. -/
def proceedCommand (command payload : Bytes) : Fw Unit := do
  match client.m_commands.find command with
  | some handler => handler (lower payload)
  | none => pure ()

/-- The command name passes through a bare pointer, the value in the topic does not. -/
def parseMessage (topic : CString) (payload : Bytes) : Fw Unit := do
  let topic_s := topic.bytes
  let device := client.m_device ++ lit "/cmd/"
  if SequenceSearch.find topic_s device 0 = none then return ()
  let rest ← rethrow (CxxLibrary.substr topic_s device.length none)
  let commands ← rethrow (splitString rest (lit "/"))
  match commands with
  | [command] => client.proceedCommand (cStr command).bytes payload
  | [command, value] => client.proceedCommand (cStr command).bytes value
  | _ => pure ()

/-- The delivery callback. Position and total length are printed and not used. -/
def onMessage (topic : CString) (payload : Bytes) (len _index _total : Nat) : Fw Unit :=
  client.parseMessage topic (payload.take len)

end MqttClientForIR

end WhirlpoolAc.MqttMessages
