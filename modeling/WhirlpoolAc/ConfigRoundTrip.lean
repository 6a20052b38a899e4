import WhirlpoolAc.DeviceConfig
import WhirlpoolAc.JsonReading

/-!
# What survives from a saved configuration to the next boot

Saving writes eight distinct keys, and with fields of the portal's lengths both the
document that is written and the one that is read back stay within their 512 bytes.
Every key is therefore read back with the text that was saved under it. Seven fields
are read from their own key. The MQTT device name is written under `mqtt_device` but
read from `host_name`, so it comes back as the host name.
-/

namespace WhirlpoolAc.ConfigRoundTrip

open ByteStrings CxxLibrary JsonText BoundedJson JsonReading DeviceConfig

/-- What a portal field of a given length can hold. -/
structure FieldFits (text : Bytes) (limit : Nat) : Prop where
  short : text.length ≤ limit
  nulFree : 0 ∉ text

/-- A configuration within the lengths of the portal's fields. -/
structure PortalFits (config : ConfigDevice) : Prop where
  hostName : FieldFits config.host.hostName 20
  server : FieldFits config.mqtt.server 40
  port : FieldFits config.mqtt.port 5
  user : FieldFits config.mqtt.user 20
  password : FieldFits config.mqtt.password 20
  name : FieldFits config.mqtt.name 20
  syslogServer : FieldFits config.syslog.server 15
  syslogPort : FieldFits config.syslog.port 5

/-- The reader gives back every object of strings that the writer can write and that
    fits the reader's document. -/
def ReadsBack (deserializeJson : Nat → Bytes → Option JsonObject) (capacity : Nat) : Prop :=
  ∀ texts : List (Bytes × Bytes), (texts.map Prod.fst).Nodup → NulFree texts →
    readingSize texts ≤ capacity →
    deserializeJson capacity (serializeJson (textObject texts)) = some (textObject texts)

/-- The keys under which a configuration is saved. -/
def savedKeys : List Bytes :=
  [lit "mqtt_server", lit "mqtt_port", lit "host_name", lit "mqtt_user", lit "mqtt_password",
    lit "mqtt_device", lit "syslog_server", lit "syslog_port"]

/-- The eight keys are pairwise different, whatever is stored under them. -/
theorem saved_keys_distinct (config : ConfigDevice) :
    ((savedMembers config).map Prod.fst).Nodup := by
  have distinct : savedKeys.Nodup := by decide
  exact distinct

/-- Keys and fields are free of NUL. -/
theorem saved_nulFree (config : ConfigDevice) (fits : PortalFits config) :
    NulFree (savedMembers config) := by
  have keys : ∀ key ∈ savedKeys, 0 ∉ key := by decide
  intro entry present
  have keyClean := keys entry.1 (List.mem_map.mpr ⟨entry, present, rfl⟩)
  simp only [savedMembers, List.mem_cons, List.not_mem_nil, or_false] at present
  rcases present with rfl | rfl | rfl | rfl | rfl | rfl | rfl | rfl
  · exact ⟨keyClean, fits.server.nulFree⟩
  · exact ⟨keyClean, fits.port.nulFree⟩
  · exact ⟨keyClean, fits.hostName.nulFree⟩
  · exact ⟨keyClean, fits.user.nulFree⟩
  · exact ⟨keyClean, fits.password.nulFree⟩
  · exact ⟨keyClean, fits.name.nulFree⟩
  · exact ⟨keyClean, fits.syslogServer.nulFree⟩
  · exact ⟨keyClean, fits.syslogPort.nulFree⟩

/-- Reading the file back needs at most 375 bytes: 128 for the slots, 94 for the keys and
    153 for the longest texts. -/
theorem saved_readingSize (config : ConfigDevice) (fits : PortalFits config) :
    readingSize (savedMembers config) ≤ 512 := by
  have server := fits.server.short
  have port := fits.port.short
  have hostName := fits.hostName.short
  have user := fits.user.short
  have password := fits.password.short
  have name := fits.name.short
  have syslogServer := fits.syslogServer.short
  have syslogPort := fits.syslogPort.short
  have keys : (savedKeys.map List.length).sum = 86 := by decide
  simp only [savedKeys, savedMembers, readingSize, copySize, slotSize, List.map_cons, List.map_nil,
    List.sum_cons, List.sum_nil] at keys ⊢
  omega

/-- Writing copies less than reading back does, so nothing is left out of the file. -/
theorem saved_members (config : ConfigDevice) (fits : PortalFits config) :
    ((document 512).assignAll (savedMembers config)).members =
      textObject (savedMembers config) := by
  have enough := saved_readingSize config fits
  have less : ∀ texts : List (Bytes × Bytes),
      (texts.map fun entry => slotSize + copySize entry.2).sum ≤ readingSize texts := by
    intro texts
    induction texts with
    | nil => exact Nat.le_refl _
    | cons entry rest step =>
        simp only [readingSize, List.map_cons, List.sum_cons] at step ⊢
        omega
  have written := less (savedMembers config)
  have filled := assignAll_fits (savedMembers config) (document 512)
    (saved_keys_distinct config) (by simpa [JsonDocument.size, document] using written.trans enough)
  exact filled

/-- Under a key that occurs once, the object has the text stored there. -/
theorem find_stored (texts : List (Bytes × Bytes)) (key text : Bytes)
    (distinct : (texts.map Prod.fst).Nodup) (present : (key, text) ∈ texts) :
    Map.find (textObject texts) key = some (.string text) := by
  induction texts with
  | nil => cases present
  | cons entry rest step =>
      obtain ⟨other, stored⟩ := entry
      simp only [List.map_cons, List.nodup_cons] at distinct
      rcases List.mem_cons.mp present with same | later
      · cases same
        simp [textObject, Map.find]
      · have differs : key ≠ other := by
          rintro rfl
          exact distinct.1 (List.mem_map.mpr ⟨(key, text), later, rfl⟩)
        have missed : (key == other) = false := by simpa using differs
        simpa [textObject, Map.find, List.lookup_cons, missed] using step distinct.2 later

/-- Under a key that occurs once, reading gives the text stored there. -/
theorem asString_stored (texts : List (Bytes × Bytes)) (key text : Bytes)
    (distinct : (texts.map Prod.fst).Nodup) (present : (key, text) ∈ texts) :
    asString (textObject texts) key = text := by
  rw [asString, find_stored texts key text distinct present]

/-- The file of a saved configuration is read back as the object of its members. -/
theorem saved_read (deserializeJson : Nat → Bytes → Option JsonObject)
    (readsBack : ReadsBack deserializeJson 512) (config : ConfigDevice) (fits : PortalFits config) :
    deserializeJson 512 (serializeJson (textObject (savedMembers config))) =
      some (textObject (savedMembers config)) :=
  readsBack (savedMembers config) (saved_keys_distinct config) (saved_nulFree config fits)
    (saved_readingSize config fits)

/-- What the next boot reads: the saved configuration with the host name in place of the
    MQTT device name. -/
theorem next_boot_configuration (deserializeJson : Nat → Bytes → Option JsonObject)
    (readsBack : ReadsBack deserializeJson 512) (config : ConfigDevice) (fits : PortalFits config) :
    ((saveParamsCallback true config).bind (nextBoot deserializeJson)).map
        ConfigState.deviceConfig =
      some { config with mqtt := { config.mqtt with name := config.host.hostName } } := by
  have read := saved_read deserializeJson readsBack config fits
  have stored : ∀ key text, (key, text) ∈ savedMembers config →
      asString (textObject (savedMembers config)) key = text := fun key text present =>
    asString_stored (savedMembers config) key text (saved_keys_distinct config) present
  simp only [saveParamsCallback, saved_members config fits, if_pos, Option.bind_some, nextBoot,
    restart, readConfiguration, read, Option.map_some]
  rw [stored (lit "host_name") config.host.hostName (by simp [savedMembers]),
    stored (lit "mqtt_password") config.mqtt.password (by simp [savedMembers]),
    stored (lit "mqtt_user") config.mqtt.user (by simp [savedMembers]),
    stored (lit "mqtt_port") config.mqtt.port (by simp [savedMembers]),
    stored (lit "mqtt_server") config.mqtt.server (by simp [savedMembers]),
    stored (lit "syslog_server") config.syslog.server (by simp [savedMembers]),
    stored (lit "syslog_port") config.syslog.port (by simp [savedMembers])]

/-- The saved configuration comes back in all eight fields exactly when the MQTT device
    name is the host name. -/
theorem configuration_restored_iff (deserializeJson : Nat → Bytes → Option JsonObject)
    (readsBack : ReadsBack deserializeJson 512) (config : ConfigDevice) (fits : PortalFits config) :
    ((saveParamsCallback true config).bind (nextBoot deserializeJson)).map
        ConfigState.deviceConfig = some config ↔
      config.mqtt.name = config.host.hostName := by
  rw [next_boot_configuration deserializeJson readsBack config fits]
  constructor
  · intro restored
    have same := congrArg (fun result => result.map fun read => read.mqtt.name) restored
    simpa using same.symm
  · intro same
    rw [← same]

/-- The concrete reader of text objects meets the requirement for every capacity. -/
theorem parseObject_readsBack (capacity : Nat) : ReadsBack parseObject capacity := by
  intro texts _ nulFree fits
  exact parse_serialize texts capacity nulFree fits

/-- A device whose two names agree is restored. -/
theorem configuration_restored_iff_oneName :
    ((saveParamsCallback true { host := ⟨lit "salon"⟩, mqtt := { name := lit "salon" } }).bind
        (nextBoot parseObject)).map ConfigState.deviceConfig =
      some { host := ⟨lit "salon"⟩, mqtt := { name := lit "salon" } } :=
  (configuration_restored_iff parseObject (parseObject_readsBack 512) _
    ⟨⟨by decide, by decide⟩, ⟨by decide, by decide⟩, ⟨by decide, by decide⟩,
      ⟨by decide, by decide⟩, ⟨by decide, by decide⟩, ⟨by decide, by decide⟩,
      ⟨by decide, by decide⟩, ⟨by decide, by decide⟩⟩).mpr rfl

/-- The configuration that the project ships. -/
def bedroom : ConfigDevice where
  host := { hostName := lit "Mariano-IR" }
  mqtt :=
    { server := lit "192.168.1.102", port := lit "1883", password := lit "plug@",
      user := lit "shelly", name := lit "Sypialnia" }
  syslog := { server := lit "192.168.1.102", port := lit "1514" }

/-- It fits the portal's fields. -/
theorem bedroom_fits : PortalFits bedroom :=
  ⟨⟨by decide, by decide⟩, ⟨by decide, by decide⟩, ⟨by decide, by decide⟩,
    ⟨by decide, by decide⟩, ⟨by decide, by decide⟩, ⟨by decide, by decide⟩,
    ⟨by decide, by decide⟩, ⟨by decide, by decide⟩⟩

/-- It fits the portal's fields, but its MQTT device name is lost over a restart. -/
theorem bedroom_name_lost :
    PortalFits bedroom ∧ ReadsBack parseObject 512 ∧
      ((saveParamsCallback true bedroom).bind (nextBoot parseObject)).map
        ConfigState.deviceConfig ≠ some bedroom := by
  refine ⟨bedroom_fits, parseObject_readsBack 512, ?_⟩
  rw [next_boot_configuration parseObject (parseObject_readsBack 512) bedroom bedroom_fits]
  decide

end WhirlpoolAc.ConfigRoundTrip
