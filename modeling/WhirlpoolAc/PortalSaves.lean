import WhirlpoolAc.WifiPortal

/-!
# What a save in the portal does

Two questions about the portal. Does a save that changes nothing hand the program its
own configuration? Only if the five fields without a seed are empty in it. Is what the
user submits in the configuration file when `setupWifi` returns? Only if it was there
before: the save report is not wired to the program. With that one wire in place the
same portal stores every submission.
-/

namespace WhirlpoolAc.PortalSaves

open ByteStrings CxxLibrary JsonText BoundedJson JsonReading DeviceConfig ConfigRoundTrip WifiPortal

/-- An unedited save hands over what the fields keep of their seeds. -/
theorem unedited_save (config : ConfigDevice) :
    ((WifiParameters.construct config).setSaveParamsCallback id).saveParamsCallback =
      .ok (configOf fun param => kept param.limit (param.seed config)) := by
  have filled : Filled ((WifiParameters.construct config).setSaveParamsCallback id)
      fun param => kept param.limit (param.seed config) := filled_construct config
  exact saveParamsCallback_filled _ _ id filled rfl

/-- For every configuration whose members fit the fields, an unedited save hands over
that configuration exactly when its broker address, its credentials and its syslog
address and port are empty and the three seeded members are free of NUL. -/
theorem unedited_save_identity_iff (config : ConfigDevice)
    (fits : ∀ param : Parameters, (param.value config).length ≤ param.limit) :
    ((WifiParameters.construct config).setSaveParamsCallback id).saveParamsCallback =
        .ok config ↔
      (config.mqtt.server = [] ∧ config.mqtt.user = [] ∧ config.mqtt.password = [] ∧
        config.syslog.server = [] ∧ config.syslog.port = []) ∧
      (0 ∉ config.host.hostName ∧ 0 ∉ config.mqtt.port ∧ 0 ∉ config.mqtt.name) := by
  rw [unedited_save, Except.ok.injEq, configOf_eq_iff]
  constructor
  · intro same
    constructor
    · exact ⟨(same .MqttServer).symm, (same .MqttUser).symm, (same .MqttPasword).symm,
        (same .SyslogServer).symm, (same .SyslogPort).symm⟩
    · exact ⟨(kept_eq_iff 20 _ (fits .HostName)).mp (same .HostName),
        (kept_eq_iff 5 _ (fits .MqttPort)).mp (same .MqttPort),
        (kept_eq_iff 20 _ (fits .MqttName)).mp (same .MqttName)⟩
  · rintro ⟨⟨server, user, password, syslogServer, syslogPort⟩, hostName, port, name⟩ param
    cases param with
    | HostName => exact (kept_eq_iff 20 _ (fits .HostName)).mpr hostName
    | MqttServer => exact server.symm
    | MqttPort => exact (kept_eq_iff 5 _ (fits .MqttPort)).mpr port
    | MqttName => exact (kept_eq_iff 20 _ (fits .MqttName)).mpr name
    | MqttUser => exact user.symm
    | MqttPasword => exact password.symm
    | SyslogServer => exact syslogServer.symm
    | SyslogPort => exact syslogPort.symm

/-- A configuration with a host name and nothing in the unseeded members. -/
def unconnected : ConfigDevice where
  host := { hostName := lit "salon" }
  syslog := { port := [] }

/-- It survives an unedited save. -/
theorem unedited_save_identity_iff_unconnected :
    ((WifiParameters.construct unconnected).setSaveParamsCallback id).saveParamsCallback =
      .ok unconnected := by
  refine (unedited_save_identity_iff unconnected ?_).mpr (by decide)
  intro param
  cases param <;> decide

/-- The configuration that the project ships loses its broker and its credentials. -/
theorem bedroom_erased :
    ¬ ∀ config : ConfigDevice, (∀ param : Parameters, (param.value config).length ≤ param.limit) →
      ((WifiParameters.construct config).setSaveParamsCallback id).saveParamsCallback =
        .ok config := by
  intro identity
  have fits : ∀ param : Parameters, (param.value bedroom).length ≤ param.limit := by
    intro param
    cases param <;> decide
  have same := identity bedroom fits
  rw [unedited_save, Except.ok.injEq] at same
  have server := congrArg (fun config : ConfigDevice => config.mqtt.server) same
  revert server
  decide

/-- The file holds the submitted texts: it reads as an object that has each of them under
the key of its field. -/
def FileHolds (deserializeJson : Nat → Bytes → Option JsonObject) (file : Option Bytes)
    (submitted : Parameters → Bytes) : Prop :=
  ∃ content json, file = some content ∧ deserializeJson 512 content = some json ∧
    ∀ param : Parameters, Map.find json param.key = some (.string (submitted param))

/-- Without a registered callback the forms change nothing in the program. -/
theorem portal_unregistered (object : WifiParameters (Option ConfigState))
    (saves : List (Parameters → Bytes)) (state : ConfigState)
    (unregistered : object.registered = false) : portal object saves state = some state := by
  induction saves generalizing object with
  | nil => rfl
  | cons posted later ih =>
    have silent : (object.doParamSave posted).2 = none := by
      simp [WifiParameters.doParamSave, unregistered]
    have saved : object.doParamSave posted = ((object.doParamSave posted).1, none) :=
      Prod.ext rfl silent
    rw [portal, saved]
    exact ih (object.doParamSave posted).1 unregistered

/-- When `setupWifi` returns, the configuration and its file are what they were. -/
theorem setupWifi_keeps (connected : Bool) (saves : List (Parameters → Bytes))
    (before after : ConfigState) (returned : setupWifi connected saves before = some after) :
    after = before := by
  have unchanged := portal_unregistered (WifiParameters.construct before.deviceConfig) saves before
    rfl
  simp only [setupWifi, unchanged] at returned
  cases connected with
  | false => cases returned
  | true => exact (Option.some.inj returned).symm

/-- For every reader of the file, every state before and every sequence of forms: when
`setupWifi` returns, the file holds what was submitted last exactly when it held that
before the portal opened. -/
theorem submission_persisted_iff (deserializeJson : Nat → Bytes → Option JsonObject)
    (connected : Bool) (saves : List (Parameters → Bytes)) (submitted : Parameters → Bytes)
    (before after : ConfigState)
    (returned : setupWifi connected (saves ++ [submitted]) before = some after) :
    FileHolds deserializeJson after.configFile submitted ↔
      FileHolds deserializeJson before.configFile submitted := by
  rw [setupWifi_keeps connected (saves ++ [submitted]) before after returned]

/-- What the user of the shipped device would type. -/
def typed (param : Parameters) : Bytes := param.value bedroom

/-- The file that the shipped configuration is saved in. -/
def bedroomFile : Option Bytes := some (serializeJson (textObject (savedMembers bedroom)))

/-- Submitting what the file holds already leaves a file that holds it. -/
theorem submission_persisted_iff_again :
    FileHolds parseObject bedroomFile typed := by
  have read := saved_read parseObject (parseObject_readsBack 512) bedroom bedroom_fits
  have held : FileHolds parseObject bedroomFile typed := by
    refine ⟨_, _, rfl, read, fun param => find_stored _ _ _ (saved_keys_distinct bedroom) ?_⟩
    cases param <;> simp [savedMembers, Parameters.key, typed, Parameters.value]
  exact (submission_persisted_iff parseObject true [] typed ⟨bedroom, bedroomFile⟩
    ⟨bedroom, bedroomFile⟩ rfl).mpr held

/-- A new device has no file, and none after its owner has submitted one either. -/
theorem first_submission_lost :
    ¬ ∀ (saves : List (Parameters → Bytes)) (submitted : Parameters → Bytes)
      (before after : ConfigState), (∀ param, FieldFits (submitted param) param.limit) →
        setupWifi true (saves ++ [submitted]) before = some after →
          FileHolds parseObject after.configFile submitted := by
  intro persisted
  have fits : ∀ param, FieldFits (typed param) param.limit := by
    intro param
    cases param <;> exact ⟨by decide, by decide⟩
  obtain ⟨content, _, missing, _⟩ := persisted [] typed ⟨{}, none⟩ ⟨{}, none⟩ fits rfl
  cases missing

/-- With a registered callback, a form is handed over as far as its fields keep it. -/
theorem doParamSave_registered {α : Type} (object : WifiParameters α)
    (text posted : Parameters → Bytes) (callback : ConfigDevice → α) (filled : Filled object text)
    (installed : object.m_saveParamCallback = some callback)
    (registered : object.registered = true) :
    object.doParamSave posted = ((object.doParamSave posted).1,
      some (.ok (callback (configOf fun param => kept param.limit (posted param))))) := by
  have stored := filled_doParamSave object text posted filled
  have called := saveParamsCallback_filled (object.doParamSave posted).1 _ callback stored installed
  rw [← called]
  simp [WifiParameters.doParamSave, registered]

/-- With the main program's callback registered, the forms end in the state that the
last one is saved in. Induction on the forms before it. -/
theorem portal_registered (saves : List (Parameters → Bytes)) (submitted : Parameters → Bytes)
    (object : WifiParameters (Option ConfigState)) (text : Parameters → Bytes)
    (filled : Filled object text)
    (installed : object.m_saveParamCallback = some (saveParamsCallback true))
    (registered : object.registered = true) (state : ConfigState) :
    portal object (saves ++ [submitted]) state =
      saveParamsCallback true (configOf fun param => kept param.limit (submitted param)) := by
  induction saves generalizing object text state with
  | nil =>
    rw [List.nil_append, portal,
      doParamSave_registered object text submitted _ filled installed registered]
    rfl
  | cons posted later ih =>
    have stored := filled_doParamSave object text posted filled
    rw [List.cons_append, portal,
      doParamSave_registered object text posted _ filled installed registered]
    exact ih (object.doParamSave posted).1 _ stored installed registered _

/-- With the main program's callback registered, every submission that fits the fields is
in the configuration and in its file when the portal closes. -/
theorem portal_with_callback_persists (deserializeJson : Nat → Bytes → Option JsonObject)
    (readsBack : ReadsBack deserializeJson 512) (saves : List (Parameters → Bytes))
    (submitted : Parameters → Bytes) (fits : ∀ param, FieldFits (submitted param) param.limit)
    (state : ConfigState) :
    ∃ after,
      portal ((WifiParameters.construct state.deviceConfig).setSaveParamsCallback
        (saveParamsCallback true)) (saves ++ [submitted]) state = some after ∧
      after.deviceConfig = configOf submitted ∧
      FileHolds deserializeJson after.configFile submitted := by
  have whole : (fun param : Parameters => kept param.limit (submitted param)) = submitted := by
    funext param
    exact (kept_eq_iff _ _ (fits param).short).mpr (fits param).nulFree
  have portalFits : PortalFits (configOf submitted) :=
    ⟨fits .HostName, fits .MqttServer, fits .MqttPort, fits .MqttUser, fits .MqttPasword,
      fits .MqttName, fits .SyslogServer, fits .SyslogPort⟩
  have distinct := saved_keys_distinct (configOf submitted)
  have read := saved_read deserializeJson readsBack (configOf submitted) portalFits
  have closed := portal_registered saves submitted
    ((WifiParameters.construct state.deviceConfig).setSaveParamsCallback (saveParamsCallback true))
    _ (filled_construct state.deviceConfig) rfl rfl state
  rw [whole, saveParamsCallback, if_pos rfl, saved_members _ portalFits] at closed
  refine ⟨_, closed, rfl, _, _, rfl, read, fun param => find_stored _ _ _ distinct ?_⟩
  cases param <;> simp [savedMembers, Parameters.key, configOf]

end WhirlpoolAc.PortalSaves
