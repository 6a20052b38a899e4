import WhirlpoolAc.BoundedJson

/-!
# The device configuration and its file

Eight strings, kept in memory by the program and in `/config.json` between boots.
Saving copies the strings into a document of 512 bytes and writes it; booting starts
from the defaults and overwrites them with what the file holds, if there is one. Both
directions list the keys by hand.

The reader of the JSON library is a parameter: a document capacity and a text give an
object, or nothing when the library reports an error. An open failure and a read error
both end in `hang`, which resets the processor; such a call has no result here.
-/

namespace WhirlpoolAc.DeviceConfig

open ByteStrings CxxLibrary JsonText BoundedJson

/-- The name of the device in the network, with its default. -/
structure ConfigHost where
  hostName : Bytes := lit "IR_MQTT"
deriving DecidableEq

/-- The broker and the credentials, with their defaults. -/
structure ConfigMqtt where
  server : Bytes := []
  port : Bytes := lit "1883"
  password : Bytes := []
  user : Bytes := []
  name : Bytes := lit "default"
deriving DecidableEq

/-- The receiver of the log, with its defaults. -/
structure ConfigSysLog where
  server : Bytes := []
  port : Bytes := lit "514"
deriving DecidableEq

/-- A syslog receiver is configured when neither text is empty. -/
def ConfigSysLog.isSet (syslog : ConfigSysLog) : Bool :=
  !syslog.server.isEmpty && !syslog.port.isEmpty

/-- The number in front of the port text, narrowed to sixteen bits. -/
def ConfigSysLog.getPort (syslog : ConfigSysLog) : Except Exn UInt16 :=
  (stoi syslog.port).map toUInt16

/-- All that the device is configured with. -/
structure ConfigDevice where
  host : ConfigHost := {}
  mqtt : ConfigMqtt := {}
  syslog : ConfigSysLog := {}
deriving DecidableEq

/-- The global configuration and the content of `/config.json`, if the file exists. -/
structure ConfigState where
  deviceConfig : ConfigDevice
  configFile : Option Bytes
deriving DecidableEq

/-- The members that saving assigns, in order. -/
def savedMembers (config : ConfigDevice) : List (Bytes × Bytes) :=
  [(lit "mqtt_server", config.mqtt.server),
    (lit "mqtt_port", config.mqtt.port),
    (lit "host_name", config.host.hostName),
    (lit "mqtt_user", config.mqtt.user),
    (lit "mqtt_password", config.mqtt.password),
    (lit "mqtt_device", config.mqtt.name),
    (lit "syslog_server", config.syslog.server),
    (lit "syslog_port", config.syslog.port)]

/-- `saveParamsCallback`. It replaces both the configuration in memory and the file. The
    first argument tells whether the file could be opened. -/
def saveParamsCallback (opened : Bool) (config : ConfigDevice) : Option ConfigState :=
  let json := (document 512).assignAll (savedMembers config)
  if opened then some { deviceConfig := config, configFile := some (serializeJson json.members) }
  else none

/-- `readConfiguration`. -/
def readConfiguration (deserializeJson : Nat → Bytes → Option JsonObject) (state : ConfigState) :
    Option ConfigState :=
  match state.configFile with
  | none => some state
  | some file =>
      match deserializeJson 512 file with
      | none => none
      | some json =>
          let host : ConfigHost := { hostName := asString json (lit "host_name") }
          let mqtt : ConfigMqtt :=
            { name := asString json (lit "host_name")
              password := asString json (lit "mqtt_password")
              user := asString json (lit "mqtt_user")
              port := asString json (lit "mqtt_port")
              server := asString json (lit "mqtt_server") }
          let syslog : ConfigSysLog :=
            { server := asString json (lit "syslog_server")
              port := asString json (lit "syslog_port") }
          some { state with deviceConfig := ⟨host, mqtt, syslog⟩ }

/-- Static initialization after a restart: the file stays, the configuration in memory
    starts from its defaults. -/
def restart (state : ConfigState) : ConfigState := { state with deviceConfig := {} }

/-- The state in which the next boot leaves the configuration. -/
def nextBoot (deserializeJson : Nat → Bytes → Option JsonObject) (state : ConfigState) :
    Option ConfigState :=
  readConfiguration deserializeJson (restart state)

end WhirlpoolAc.DeviceConfig
