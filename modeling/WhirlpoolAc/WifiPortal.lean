import WhirlpoolAc.ConfigRoundTrip

/-!
# The configuration portal

`WifiParameters` registers eight text fields with the portal and copies them, one by
one, into a fresh configuration when the portal reports a save. A field is a buffer of
its own length: it keeps what fits in front of the first NUL, whether the text comes
from the configuration or from the browser.

Three of the fields are seeded with the running configuration, five start empty. The
save report reaches the program only if `setSaveParamsCallback` has registered it;
`setupWifi` never calls it.
-/

namespace WhirlpoolAc.WifiPortal

open ByteStrings CxxLibrary JsonText BoundedJson DeviceConfig ConfigRoundTrip

/-- What a buffer of `length` bytes and a terminator keeps of a text. -/
def kept (length : Nat) (text : Bytes) : Bytes := (upToNul text).take length

/-- Nothing that is kept lies behind a NUL. -/
theorem kept_nulFree (length : Nat) (text : Bytes) : 0 ∉ kept length text := by
  intro present
  exact (cStr text).nulFree (List.mem_of_mem_take present)

/-- The buffer never overflows. -/
theorem kept_short (length : Nat) (text : Bytes) : (kept length text).length ≤ length :=
  List.length_take_le length (upToNul text)

/-- A text that fits is kept whole exactly when it has no NUL. -/
theorem kept_eq_iff (length : Nat) (text : Bytes) (short : text.length ≤ length) :
    kept length text = text ↔ 0 ∉ text := by
  constructor
  · intro whole
    rw [← whole]
    exact kept_nulFree length text
  · intro nulFree
    rw [kept, upToNul_of_nulFree text nulFree, List.take_of_length_le short]

/-- `WiFiManagerParameter`: a text field of the portal. Its value is what `getValue`
points to, which always ends inside the buffer. -/
structure WiFiManagerParameter where
  id : Bytes
  label : Bytes
  length : Nat
  value : Bytes
  nulFree : 0 ∉ value
  short : value.length ≤ length

namespace WiFiManagerParameter

/-- `setValue` copies the default into a cleared buffer. -/
def construct (id label defaultValue : Bytes) (length : Nat) : WiFiManagerParameter where
  id := id
  label := label
  length := length
  value := kept length defaultValue
  nulFree := kept_nulFree length defaultValue
  short := kept_short length defaultValue

/-- `toCharArray` of a posted argument into the buffer. -/
def store (posted : Bytes) (parameter : WiFiManagerParameter) : WiFiManagerParameter :=
  { parameter with
    value := kept parameter.length posted
    nulFree := kept_nulFree parameter.length posted
    short := kept_short parameter.length posted }

end WiFiManagerParameter

/-- The keys of the fields, in the order in which the portal lists them. -/
inductive Parameters where
  | HostName | MqttServer | MqttPort | MqttName | MqttUser | MqttPasword | SyslogServer
  | SyslogPort
deriving DecidableEq

/-- The object behind the portal. The callback returns something of type `α`. Only the
object's own `saveParamsCallback` is ever registered with the manager, so whether it
is registered is all there is to know about the manager. -/
structure WifiParameters (α : Type) where
  m_saveParamCallback : Option (ConfigDevice → α)
  m_parameters : Map Parameters WiFiManagerParameter
  registered : Bool

namespace WifiParameters

variable {α : Type}

/-- The overload of `addParam` with a default value. -/
def addParamDefault (param : Parameters) (id label defaultValue : Bytes) (length : Nat)
    (object : WifiParameters α) : WifiParameters α :=
  { object with
    m_parameters := object.m_parameters ++
      [(param, WiFiManagerParameter.construct id label defaultValue length)] }

/-- The overload of `addParam` without one. -/
def addParam (param : Parameters) (id label : Bytes) (length : Nat) (object : WifiParameters α) :
    WifiParameters α :=
  object.addParamDefault param id label [] length

/-- The constructor. -/
def construct (defaultConfig : ConfigDevice) : WifiParameters α :=
  let mqtt := defaultConfig.mqtt
  let host := defaultConfig.host
  ({ m_saveParamCallback := none, m_parameters := [], registered := false } : WifiParameters α)
    |>.addParamDefault .HostName (lit "hostname") (lit "Wifi host name") host.hostName 20
    |>.addParam .MqttServer (lit "mqtt_server") (lit "MQTT server IP") 40
    |>.addParamDefault .MqttPort (lit "mqtt_port") (lit "MQTT server port") mqtt.port 5
    |>.addParam .MqttUser (lit "mqtt_user") (lit "MQTT user") 20
    |>.addParam .MqttPasword (lit "mqtt_password") (lit "MQTT password") 20
    |>.addParamDefault .MqttName (lit "mqtt_device") (lit "MQTT device") mqtt.name 20
    |>.addParam .SyslogServer (lit "syslog_server") (lit "Syslog server IP") 15
    |>.addParam .SyslogPort (lit "syslog_port") (lit "Syslog port") 5

/-- Install the callback, which registers this object with the library. -/
def setSaveParamsCallback (callback : ConfigDevice → α) (object : WifiParameters α) :
    WifiParameters α :=
  { object with m_saveParamCallback := some callback, registered := true }

/-- Calling an absent callback throws. -/
def saveParamsCallback (object : WifiParameters α) : Except Exn α := do
  let hostName ← object.m_parameters.at .HostName
  let name ← object.m_parameters.at .MqttName
  let server ← object.m_parameters.at .MqttServer
  let port ← object.m_parameters.at .MqttPort
  let user ← object.m_parameters.at .MqttUser
  let password ← object.m_parameters.at .MqttPasword
  let syslogServer ← object.m_parameters.at .SyslogServer
  let syslogPort ← object.m_parameters.at .SyslogPort
  let configDevice : ConfigDevice :=
    { host := { hostName := hostName.value }
      mqtt :=
        { server := server.value, port := port.value, password := password.value,
          user := user.value, name := name.value }
      syslog := { server := syslogServer.value, port := syslogPort.value } }
  match object.m_saveParamCallback with
  | some callback => pure (callback configDevice)
  | none => throw .badFunctionCall

/-- The manager's reaction to a posted form: it fills the buffers and, if a callback is
registered, calls it. -/
def doParamSave (posted : Parameters → Bytes) (object : WifiParameters α) :
    WifiParameters α × Option (Except Exn α) :=
  let stored : WifiParameters α :=
    { object with
      m_parameters := object.m_parameters.map fun entry =>
        (entry.1, entry.2.store (posted entry.1)) }
  (stored, if stored.registered then some stored.saveParamsCallback else none)

end WifiParameters

/-- The forms posted while the portal is open, in order. A callback that fails ends in a
reset. -/
def portal : WifiParameters (Option ConfigState) → List (Parameters → Bytes) → ConfigState →
    Option ConfigState
  | _, [], state => some state
  | object, posted :: later, state =>
      match object.doParamSave posted with
      | (stored, none) => portal stored later state
      | (stored, some (.ok (some next))) => portal stored later next
      | (_, some _) => none

/-- `setupWifi`, given the forms that are posted and whether a connection comes about;
without one the processor is reset. -/
def setupWifi (connected : Bool) (saves : List (Parameters → Bytes)) (state : ConfigState) :
    Option ConfigState := do
  let wifiParameters := WifiParameters.construct state.deviceConfig
  let next ← portal wifiParameters saves state
  if connected then some next else none

namespace Parameters

/-- The length of a field. -/
def limit : Parameters → Nat
  | .HostName | .MqttName | .MqttUser | .MqttPasword => 20
  | .MqttServer => 40
  | .MqttPort | .SyslogPort => 5
  | .SyslogServer => 15

/-- The key of a field in the configuration file. -/
def key : Parameters → Bytes
  | .HostName => lit "host_name"
  | .MqttServer => lit "mqtt_server"
  | .MqttPort => lit "mqtt_port"
  | .MqttName => lit "mqtt_device"
  | .MqttUser => lit "mqtt_user"
  | .MqttPasword => lit "mqtt_password"
  | .SyslogServer => lit "syslog_server"
  | .SyslogPort => lit "syslog_port"

/-- The member of a configuration that a field stands for. -/
def value (config : ConfigDevice) : Parameters → Bytes
  | .HostName => config.host.hostName
  | .MqttServer => config.mqtt.server
  | .MqttPort => config.mqtt.port
  | .MqttName => config.mqtt.name
  | .MqttUser => config.mqtt.user
  | .MqttPasword => config.mqtt.password
  | .SyslogServer => config.syslog.server
  | .SyslogPort => config.syslog.port

/-- What the constructor puts into a field. -/
def seed (config : ConfigDevice) : Parameters → Bytes
  | .HostName => config.host.hostName
  | .MqttPort => config.mqtt.port
  | .MqttName => config.mqtt.name
  | .MqttServer | .MqttUser | .MqttPasword | .SyslogServer | .SyslogPort => []

end Parameters

/-- The configuration with given texts in its eight members. -/
def configOf (text : Parameters → Bytes) : ConfigDevice where
  host := { hostName := text .HostName }
  mqtt :=
    { server := text .MqttServer, port := text .MqttPort, password := text .MqttPasword,
      user := text .MqttUser, name := text .MqttName }
  syslog := { server := text .SyslogServer, port := text .SyslogPort }

/-- Two configurations are equal when they agree in all eight members. -/
theorem configOf_eq_iff (text : Parameters → Bytes) (config : ConfigDevice) :
    configOf text = config ↔ ∀ param, text param = param.value config := by
  constructor
  · rintro rfl param
    cases param <;> rfl
  · intro same
    obtain ⟨⟨hostName⟩, ⟨server, port, password, user, name⟩, ⟨syslogServer, syslogPort⟩⟩ := config
    simp only [configOf, same, Parameters.value]

/-- The texts in the fields of a portal whose fields have their lengths. -/
def Filled {α : Type} (object : WifiParameters α) (text : Parameters → Bytes) : Prop :=
  ∀ param, ∃ field, object.m_parameters.find param = some field ∧
    field.length = param.limit ∧ field.value = text param

/-- The constructor fills the fields with their seeds. -/
theorem filled_construct {α : Type} (config : ConfigDevice) :
    Filled (WifiParameters.construct config : WifiParameters α)
      fun param => kept param.limit (param.seed config) := by
  intro param
  cases param <;> exact ⟨_, rfl, rfl, rfl⟩

/-- A posted form replaces all texts. -/
theorem filled_doParamSave {α : Type} (object : WifiParameters α) (text posted : Parameters → Bytes)
    (filled : Filled object text) :
    Filled (object.doParamSave posted).1 fun param => kept param.limit (posted param) := by
  intro param
  obtain ⟨field, found, length, _⟩ := filled param
  refine ⟨field.store (posted param), ?_, length, ?_⟩
  · have changed := Map.find_map_entries object.m_parameters
      (fun key field => field.store (posted key)) param
    rw [found] at changed
    exact changed
  · show kept field.length (posted param) = kept param.limit (posted param)
    rw [length]

/-- An entry that is found is returned by the checked lookup. -/
theorem at_of_find {κ ν : Type} [BEq κ] (map : Map κ ν) (key : κ) (value : ν)
    (found : map.find key = some value) : map.at key = .ok value := by
  rw [Map.at, found]

/-- A save hands the installed callback the configuration of the eight texts. -/
theorem saveParamsCallback_filled {α : Type} (object : WifiParameters α)
    (text : Parameters → Bytes) (callback : ConfigDevice → α) (filled : Filled object text)
    (installed : object.m_saveParamCallback = some callback) :
    object.saveParamsCallback = .ok (callback (configOf text)) := by
  obtain ⟨hostName, hostNameFound, _, hostNameText⟩ := filled .HostName
  obtain ⟨name, nameFound, _, nameText⟩ := filled .MqttName
  obtain ⟨server, serverFound, _, serverText⟩ := filled .MqttServer
  obtain ⟨port, portFound, _, portText⟩ := filled .MqttPort
  obtain ⟨user, userFound, _, userText⟩ := filled .MqttUser
  obtain ⟨password, passwordFound, _, passwordText⟩ := filled .MqttPasword
  obtain ⟨syslogServer, syslogServerFound, _, syslogServerText⟩ := filled .SyslogServer
  obtain ⟨syslogPort, syslogPortFound, _, syslogPortText⟩ := filled .SyslogPort
  simp only [WifiParameters.saveParamsCallback, at_of_find _ _ _ hostNameFound,
    at_of_find _ _ _ nameFound, at_of_find _ _ _ serverFound, at_of_find _ _ _ portFound,
    at_of_find _ _ _ userFound, at_of_find _ _ _ passwordFound,
    at_of_find _ _ _ syslogServerFound, at_of_find _ _ _ syslogPortFound, installed]
  simp only [configOf, ← hostNameText, ← nameText, ← serverText, ← portText, ← userText,
    ← passwordText, ← syslogServerText, ← syslogPortText]
  rfl

end WhirlpoolAc.WifiPortal
