import WhirlpoolAc.PortalSaves

/-!
# From the configuration file to the network services

At boot the texts of the file become the endpoints of the broker and of the syslog
receiver. A text passes through three conversions on the way: a key that is missing
reads as the text `null`, a port text is converted up to its first non-digit, and the
number is narrowed to sixteen bits. None of them is checked, and an exception resets
the processor before the web server or the portal is up.

The portal in between leaves the configuration alone, as `PortalSaves` shows.
-/

namespace WhirlpoolAc.BootServices

open ByteStrings CxxLibrary JsonText BoundedJson JsonReading DeviceConfig ConfigRoundTrip
  PortalSaves

/-- What `MqttClientForIR::setup` is given, the commit routine apart. -/
structure MqttEndpoint where
  server : CString
  port : UInt16
  user : CString
  password : CString
  device : CString
deriving DecidableEq

/-- What the syslog client is given. The platform parses the address text and reports a
failure only by its result, which is not looked at. -/
structure SyslogEndpoint where
  server : CString
  port : UInt16
deriving DecidableEq

/-- The services that `setup` initialises from the configuration. -/
structure Services where
  mqtt : MqttEndpoint
  syslog : Option SyslogEndpoint
deriving DecidableEq

/-- The call of `MqttClientForIR::setup`. -/
def setupMqtt (mqttConfig : ConfigMqtt) : Except Exn MqttEndpoint := do
  let port ← stoi mqttConfig.port
  pure
    { server := cStr mqttConfig.server, port := toUInt16 port, user := cStr mqttConfig.user,
      password := cStr mqttConfig.password, device := cStr mqttConfig.name }

/-- The syslog part of `setup`. The port is converted once more for the serial line. -/
def setupSyslog (syslogConfig : ConfigSysLog) : Except Exn (Option SyslogEndpoint) := do
  if syslogConfig.isSet then
    let port ← syslogConfig.getPort
    let _ ← syslogConfig.getPort
    pure (some { server := cStr syslogConfig.server, port := port })
  else
    pure none

/-- `setup`, as far as the configuration is concerned. -/
def setup (deserializeJson : Nat → Bytes → Option JsonObject) (state : ConfigState) :
    Option (ConfigState × Except Exn Services) := do
  let configured ← readConfiguration deserializeJson state
  let services : Except Exn Services := do
    let mqtt ← setupMqtt configured.deviceConfig.mqtt
    let syslog ← setupSyslog configured.deviceConfig.syslog
    pure { mqtt := mqtt, syslog := syslog }
  pure (configured, services)

/-- The port is the decimal number of the text. -/
def IsPort (text : Bytes) (port : UInt16) : Prop := numericPrefix text = some (port.toNat : Int)

/-- Booting from a file is robust: no exception escapes, a key that the file does not
have leaves its member at the default, and the ports are the configured numbers. The
member of a key is the one that saving writes under it. -/
def Robust (deserializeJson : Nat → Bytes → Option JsonObject) (file : Bytes)
    (json : JsonObject) : Prop :=
  ∃ state services, setup deserializeJson ⟨{}, some file⟩ = some (state, .ok services) ∧
    (∀ key, key ∉ json.map Prod.fst →
      Map.find (savedMembers state.deviceConfig) key = Map.find (savedMembers {}) key) ∧
    IsPort state.deviceConfig.mqtt.port services.mqtt.port ∧
    ∀ endpoint, services.syslog = some endpoint →
      IsPort state.deviceConfig.syslog.port endpoint.port

/-- A text with a number in front that fits sixteen bits. -/
def PortText (text : Bytes) : Prop :=
  ∃ number : Nat, number < 65536 ∧ numericPrefix text = some number

/-- The keys that `readConfiguration` reads. -/
def readKeys : List Bytes :=
  [lit "host_name", lit "mqtt_password", lit "mqtt_user", lit "mqtt_port", lit "mqtt_server",
    lit "syslog_server", lit "syslog_port"]

/-- When a file boots: it has every key that is read, its broker port is a port, and so
is its syslog port unless no receiver is configured. The device name comes from the host
name, so a file without the key `mqtt_device` must name the host as the default device. -/
structure Bootable (json : JsonObject) : Prop where
  complete : ∀ key ∈ readKeys, key ∈ json.map Prod.fst
  named : lit "mqtt_device" ∈ json.map Prod.fst ∨
    asString json (lit "host_name") = lit "default"
  mqttPort : PortText (asString json (lit "mqtt_port"))
  syslogPort : asString json (lit "syslog_server") ≠ [] →
    asString json (lit "syslog_port") ≠ [] → PortText (asString json (lit "syslog_port"))

/-- The configuration that is read from an object. -/
def configured (json : JsonObject) : ConfigDevice where
  host := { hostName := asString json (lit "host_name") }
  mqtt :=
    { name := asString json (lit "host_name"), password := asString json (lit "mqtt_password"),
      user := asString json (lit "mqtt_user"), port := asString json (lit "mqtt_port"),
      server := asString json (lit "mqtt_server") }
  syslog :=
    { server := asString json (lit "syslog_server"), port := asString json (lit "syslog_port") }

/-- The conversion of a port text succeeds without wrap-around exactly for port texts. -/
theorem port_converted_iff (text : Bytes) :
    (∃ number, stoi text = .ok number ∧ IsPort text (toUInt16 number)) ↔ PortText text := by
  have narrowed (number : Int) : ((toUInt16 number).toNat : Int) = number % 65536 := by
    rw [toUInt16, UInt16.toNat_ofNat']
    omega
  unfold IsPort PortText stoi
  cases numeral : numericPrefix text with
  | none => simp
  | some value =>
    constructor
    · rintro ⟨number, converted, same⟩
      simp only at converted
      split at converted
      · have equal : value = number := Except.ok.inj converted
        have kept : value = number % 65536 := by
          rw [← narrowed]
          exact Option.some.inj same
        exact ⟨value.toNat, by omega, by congr 1; omega⟩
      · cases converted
    · rintro ⟨number, small, same⟩
      have equal : value = number := Option.some.inj same
      have fits : FitsInt value := by
        unfold FitsInt
        omega
      refine ⟨value, by simp [fits], ?_⟩
      rw [narrowed]
      congr 1
      omega

/-- The broker is set up with the configured port exactly for port texts. -/
theorem setupMqtt_iff (mqttConfig : ConfigMqtt) :
    (∃ endpoint, setupMqtt mqttConfig = .ok endpoint ∧ IsPort mqttConfig.port endpoint.port) ↔
      PortText mqttConfig.port := by
  rw [← port_converted_iff]
  constructor
  · rintro ⟨endpoint, returned, port⟩
    obtain ⟨number, converted, built⟩ := (bind_ok_iff _ _ _).mp returned
    cases built
    exact ⟨number, converted, port⟩
  · rintro ⟨number, converted, port⟩
    exact ⟨_, (bind_ok_iff _ _ _).mpr ⟨number, converted, rfl⟩, port⟩

/-- The syslog port is read as the configured port exactly for port texts. -/
theorem getPort_iff (syslogConfig : ConfigSysLog) :
    (∃ port, syslogConfig.getPort = .ok port ∧ IsPort syslogConfig.port port) ↔
      PortText syslogConfig.port := by
  rw [← port_converted_iff]
  constructor
  · rintro ⟨port, returned, isPort⟩
    obtain ⟨number, converted, narrowed⟩ := (bind_ok_iff _ _ _).mp returned
    cases narrowed
    exact ⟨number, converted, isPort⟩
  · rintro ⟨number, converted, isPort⟩
    exact ⟨_, (bind_ok_iff _ _ _).mpr ⟨number, converted, rfl⟩, isPort⟩

/-- The syslog client is set up with the configured port, if at all, exactly when no
receiver is configured or its port text is a port text. -/
theorem setupSyslog_iff (syslogConfig : ConfigSysLog) :
    (∃ result, setupSyslog syslogConfig = .ok result ∧
        ∀ endpoint, result = some endpoint → IsPort syslogConfig.port endpoint.port) ↔
      (syslogConfig.server ≠ [] → syslogConfig.port ≠ [] → PortText syslogConfig.port) := by
  have isSet : syslogConfig.isSet = true ↔ syslogConfig.server ≠ [] ∧ syslogConfig.port ≠ [] := by
    simp [ConfigSysLog.isSet]
  rw [← and_imp, ← isSet, ← getPort_iff, setupSyslog]
  cases syslogConfig.isSet with
  | false =>
    constructor
    · intro _ impossible
      cases impossible
    · intro _
      refine ⟨none, rfl, ?_⟩
      intro endpoint impossible
      cases impossible
  | true =>
    constructor
    · rintro ⟨result, returned, ports⟩ _
      obtain ⟨port, read, rest⟩ := (bind_ok_iff _ _ _).mp returned
      obtain ⟨_, _, built⟩ := (bind_ok_iff _ _ _).mp rest
      cases built
      exact ⟨port, read, ports _ rfl⟩
    · intro needed
      obtain ⟨port, read, isPort⟩ := needed rfl
      refine ⟨_, (bind_ok_iff _ _ _).mpr
        ⟨port, read, (bind_ok_iff _ _ _).mpr ⟨port, read, rfl⟩⟩, ?_⟩
      intro endpoint given
      cases given
      exact isPort

/-- A key that is missing reads as `null`. -/
theorem asString_absent (json : JsonObject) (key : Bytes) (absent : key ∉ json.map Prod.fst) :
    asString json key = lit "null" := by
  have missing : Map.find json key = none := by
    rw [Map.find, List.lookup_eq_none_iff]
    intro entry present
    have other : key ≠ entry.1 := by
      rintro rfl
      exact absent (List.mem_map.mpr ⟨entry, present, rfl⟩)
    simpa using other
  rw [asString, missing]
  rfl

/-- A configuration has members under the saved keys only. -/
theorem find_unsaved (config : ConfigDevice) (key : Bytes) (unsaved : key ∉ savedKeys) :
    Map.find (savedMembers config) key = none := by
  simp only [savedKeys, List.mem_cons, List.not_mem_nil, or_false, not_or] at unsaved
  simp [Map.find, savedMembers, unsaved]

/-- Under a key that is read, the configuration has what the object has. -/
theorem find_configured (json : JsonObject) (key : Bytes) (member : key ∈ readKeys) :
    Map.find (savedMembers (configured json)) key = some (asString json key) := by
  simp only [readKeys, List.mem_cons, List.not_mem_nil, or_false] at member
  rcases member with rfl | rfl | rfl | rfl | rfl | rfl | rfl <;> rfl

/-- Defaults survive exactly when no key that is read is missing and the device name is
either in the file or the default by way of the host name. No default is the text that
a missing key reads as. -/
theorem defaults_kept_iff (json : JsonObject) :
    (∀ key, key ∉ json.map Prod.fst →
        Map.find (savedMembers (configured json)) key = Map.find (savedMembers {}) key) ↔
      (∀ key ∈ readKeys, key ∈ json.map Prod.fst) ∧
        (lit "mqtt_device" ∈ json.map Prod.fst ∨
          asString json (lit "host_name") = lit "default") := by
  have noNull : ∀ key ∈ readKeys, Map.find (savedMembers {}) key ≠ some (lit "null") := by decide
  have split : ∀ key ∈ savedKeys, key ∈ readKeys ∨ key = lit "mqtt_device" := by decide
  have device : Map.find (savedMembers (configured json)) (lit "mqtt_device") =
      some (asString json (lit "host_name")) := rfl
  have deviceDefault : Map.find (savedMembers {}) (lit "mqtt_device") = some (lit "default") := rfl
  constructor
  · intro kept
    constructor
    · intro key member
      apply Classical.byContradiction
      intro absent
      apply noNull key member
      rw [← kept key absent, find_configured json key member, asString_absent json key absent]
    · by_cases present : lit "mqtt_device" ∈ json.map Prod.fst
      · exact .inl present
      · have same := kept _ present
        rw [device, deviceDefault] at same
        exact .inr (Option.some.inj same)
  · rintro ⟨complete, named⟩ key absent
    by_cases saved : key ∈ savedKeys
    · rcases split key saved with read | rfl
      · exact absurd (complete key read) absent
      · have host := named.resolve_left absent
        rw [device, deviceDefault, host]
    · rw [find_unsaved _ key saved, find_unsaved _ key saved]

/-- A file that parses is read, and the services are set up from what was read. -/
theorem setup_parsed (deserializeJson : Nat → Bytes → Option JsonObject) (file : Bytes)
    (json : JsonObject) (parsed : deserializeJson 512 file = some json) :
    setup deserializeJson ⟨{}, some file⟩ =
      some (⟨configured json, some file⟩, do
        let mqtt ← setupMqtt (configured json).mqtt
        let syslog ← setupSyslog (configured json).syslog
        pure { mqtt := mqtt, syslog := syslog }) := by
  simp only [setup, readConfiguration, parsed]
  rfl

/-- Both services are set up exactly when each of them is. -/
theorem services_ok_iff (config : ConfigDevice) (services : Services) :
    (do
      let mqtt ← setupMqtt config.mqtt
      let syslog ← setupSyslog config.syslog
      pure { mqtt := mqtt, syslog := syslog } : Except Exn Services) = .ok services ↔
      setupMqtt config.mqtt = .ok services.mqtt ∧
        setupSyslog config.syslog = .ok services.syslog := by
  constructor
  · intro returned
    obtain ⟨mqtt, mqttReturned, rest⟩ := (bind_ok_iff _ _ _).mp returned
    obtain ⟨syslog, syslogReturned, built⟩ := (bind_ok_iff _ _ _).mp rest
    cases built
    exact ⟨mqttReturned, syslogReturned⟩
  · rintro ⟨mqtt, syslog⟩
    exact (bind_ok_iff _ _ _).mpr ⟨_, mqtt, (bind_ok_iff _ _ _).mpr ⟨_, syslog, rfl⟩⟩

/-- For every reader, every file and every object that it reads from the file: booting is
robust exactly for bootable objects. -/
theorem boot_robust_iff (deserializeJson : Nat → Bytes → Option JsonObject) (file : Bytes)
    (json : JsonObject) (parsed : deserializeJson 512 file = some json) :
    Robust deserializeJson file json ↔ Bootable json := by
  have booted := setup_parsed deserializeJson file json parsed
  have mqttIff := setupMqtt_iff (configured json).mqtt
  have syslogIff := setupSyslog_iff (configured json).syslog
  constructor
  · rintro ⟨state, services, run, kept, mqttPort, syslogPort⟩
    rw [booted] at run
    obtain ⟨rfl, served⟩ := Prod.mk.inj (Option.some.inj run)
    obtain ⟨mqtt, syslog⟩ := (services_ok_iff _ _).mp served
    obtain ⟨complete, named⟩ := (defaults_kept_iff json).mp kept
    exact ⟨complete, named, mqttIff.mp ⟨_, mqtt, mqttPort⟩,
      syslogIff.mp ⟨_, syslog, syslogPort⟩⟩
  · intro bootable
    obtain ⟨endpoint, mqtt, mqttPort⟩ := mqttIff.mpr bootable.mqttPort
    obtain ⟨result, syslog, syslogPort⟩ := syslogIff.mpr bootable.syslogPort
    have kept := (defaults_kept_iff json).mpr ⟨bootable.complete, bootable.named⟩
    have served := (services_ok_iff (configured json) ⟨endpoint, result⟩).mpr ⟨mqtt, syslog⟩
    rw [served] at booted
    exact ⟨_, _, booted, kept, mqttPort, syslogPort⟩

/-- The shipped configuration boots. -/
theorem boot_robust_iff_bedroom :
    Robust parseObject (serializeJson (textObject (savedMembers bedroom)))
      (textObject (savedMembers bedroom)) := by
  have bootable : Bootable (textObject (savedMembers bedroom)) :=
    ⟨by decide, by decide, ⟨1883, by decide, by decide⟩, fun _ _ => ⟨1514, by decide, by decide⟩⟩
  have read := saved_read parseObject (parseObject_readsBack 512) bedroom bedroom_fits
  exact (boot_robust_iff parseObject _ _ read).mpr bootable

/-- The shipped configuration after its broker port has been cleared in the portal. -/
def clearedPort : ConfigDevice := { bedroom with mqtt := { bedroom.mqtt with port := [] } }

/-- From that file the device never boots again: the conversion of the port throws. -/
theorem cleared_port_resets :
    ¬ ∀ (file : Bytes) (json : JsonObject), parseObject 512 file = some json →
      Robust parseObject file json := by
  intro robust
  have fits : PortalFits clearedPort :=
    { bedroom_fits with port := ⟨by decide, by decide⟩ }
  have read := saved_read parseObject (parseObject_readsBack 512) clearedPort fits
  obtain ⟨state, services, run, _⟩ := robust _ _ read
  rw [setup_parsed parseObject _ _ read] at run
  obtain ⟨_, served⟩ := Prod.mk.inj (Option.some.inj run)
  obtain ⟨mqtt, _⟩ := (services_ok_iff _ _).mp served
  have refused : setupMqtt (configured (textObject (savedMembers clearedPort))).mqtt =
      .error .invalidArgument := by decide
  rw [refused] at mqtt
  cases mqtt

end WhirlpoolAc.BootServices
