import WhirlpoolAc.FrameInvariant

/-!
# Sending a published status back as a command

A status topic and the command of the same name use the same words, so a published
payload should restore its field on any device. Flags and the temperature do. The
tables of mode and fan are keyed by capitalized words, while command processing
folds the value to lower case first: no published mode or fan word is ever found,
and the command leaves the target as it was. The echo then restores the field only
where there was nothing to restore.
-/

namespace WhirlpoolAc.StatusEcho

open ByteStrings CxxLibrary FrameLayout AirConditioner Firmware MqttMessages CommandRequests
  TopicGrammar FieldEffects DeviceRuns FrameInvariant WireFrames PartialRuns

/-- The payload that the source publishes for a field, sent to the target as the
command of that field, makes the field equal on both and changes nothing else. -/
def Restores (name : CString) (field : StatusField) (source target : World) : Prop :=
  ∃ payload restored,
    publishField (controller name) field source =
      .ok () (source.emit
        [.publish ((controller name).m_device ++ (lit "/" ++ field.name)) 0 true payload]) ∧
    (controller name).onMessage (commandTopic name (.change field)) payload payload.length 0
      payload.length target = .ok () restored ∧
    restored.g_whirpool.field (bitsOf field) = source.g_whirpool.field (bitsOf field) ∧
    ∀ other, other ≠ bitsOf field →
      restored.g_whirpool.field other = target.g_whirpool.field other

/-- No published word of mode or fan is in the table that is searched after folding. -/
theorem echo_ignored (field : StatusField) (ac : WhirlpoolYJ1B)
    (lost : field = .mode ∨ field = .fan) :
    request (.change field) (lower (field.text ac)) = .ignored := by
  rcases lost with rfl | rfl
  · by_cases zero : ac.field .mode = 0
    · rw [StatusField.text, zero]
      decide
    · rw [StatusField.text, modeText, if_neg zero]
      decide
  · have every (speed : Fan) : request (.change .fan) (lower (fanName speed)) = .ignored := by
      cases speed <;> decide
    exact every _

/-- The text of a flag is accepted as that flag. -/
theorem onOffText_found (on : Bool) : onoffMap.find (lower (onOffText on)) = some on := by
  cases on <;> rfl

/-- The text of a reachable temperature is accepted as that temperature. -/
theorem temperature_found (raw : Nat) (inside : raw ≤ 14) :
    temperatureRequest (lower (toString (raw + 16))) =
      .assign (.temperature (UInt8.ofNat (raw + 16))) := by
  have every : ∀ raw < 15, temperatureRequest (lower (toString (raw + 16))) =
      .assign (.temperature (UInt8.ofNat (raw + 16))) := by
    decide
  exact every raw (Nat.lt_succ_of_le inside)

/-- Every other published text is accepted as a setting of its own field with the
published value. -/
theorem echo_assigns (field : StatusField) (ac : WhirlpoolYJ1B)
    (bounded : ac.field .temperature ≤ 14) (kept : ¬ (field = .mode ∨ field = .fan)) :
    ∃ setting, request (.change field) (lower (field.text ac)) = .assign setting ∧
      target setting = bitsOf field ∧ ∀ raw, stored raw setting = ac.field (bitsOf field) := by
  have flagged (setting : Bool → Setting) (name : BitField) (oneBit : name.size = 1)
      (assigns : ∀ on raw, stored raw (setting on) = on.toNat) :
      tableRequest onoffMap setting (lower (onOffText (ac.flag name))) =
          .assign (setting (ac.flag name)) ∧
        ∀ raw, stored raw (setting (ac.flag name)) = ac.field name := by
    constructor
    · rw [tableRequest, onOffText_found]
    · intro raw
      rw [assigns, flag_toNat ac name oneBit]
  cases field with
  | mode => exact absurd (.inl rfl) kept
  | fan => exact absurd (.inr rfl) kept
  | temperature =>
    refine ⟨.temperature (UInt8.ofNat (ac.field .temperature + 16)), ?_, rfl, ?_⟩
    · rw [StatusField.text, getTemperature_toNat]
      exact temperature_found _ bounded
    · intro raw
      rw [stored, UInt8.toNat_ofNat', setpoint, bitsOf]
      omega
  | light =>
    obtain ⟨accepted, value⟩ := flagged .light .light rfl fun _ _ => rfl
    exact ⟨_, accepted, rfl, value⟩
  | state =>
    obtain ⟨accepted, value⟩ := flagged .state .power rfl fun _ _ => rfl
    exact ⟨_, accepted, rfl, value⟩
  | swing =>
    obtain ⟨accepted, value⟩ := flagged .swing .swing rfl fun _ _ => rfl
    exact ⟨_, accepted, rfl, value⟩
  | jet =>
    obtain ⟨accepted, value⟩ := flagged .jet .jet rfl fun _ _ => rfl
    exact ⟨_, accepted, rfl, value⟩
  | sleep =>
    obtain ⟨accepted, value⟩ := flagged .sleep .sleep rfl fun _ _ => rfl
    exact ⟨_, accepted, rfl, value⟩

/-- Delivery of the published payload performs the verdict on its text. -/
theorem echo_run (name : CString) (field : StatusField) (source target : World) :
    (controller name).onMessage (commandTopic name (.change field)) (field.text source.g_whirpool)
        (field.text source.g_whirpool).length 0 (field.text source.g_whirpool).length target =
      perform (controller name) target
        (request (.change field) (lower (field.text source.g_whirpool))) := by
  rw [onMessage_run, verdict_commandTopic]

/-- A restored field is the published one, whatever payload witnesses it. -/
theorem restores_iff (name : CString) (field : StatusField) (source target : World) :
    Restores name field source target ↔
      ∃ restored, perform (controller name) target
          (request (.change field) (lower (field.text source.g_whirpool))) = .ok () restored ∧
        restored.g_whirpool.field (bitsOf field) = source.g_whirpool.field (bitsOf field) ∧
        ∀ other, other ≠ bitsOf field →
          restored.g_whirpool.field other = target.g_whirpool.field other := by
  constructor
  · rintro ⟨payload, restored, published, delivered, equal, frame⟩
    have same : payload = field.text source.g_whirpool := by
      rw [publishField_run] at published
      simpa [statusPacket, World.emit] using (EStateM.Result.ok.inj published).2.symm
    subst same
    rw [echo_run] at delivered
    exact ⟨restored, delivered, equal, frame⟩
  · rintro ⟨restored, delivered, equal, frame⟩
    exact ⟨field.text source.g_whirpool, restored, publishField_run _ _ _,
      (echo_run _ _ _ _).trans delivered, equal, frame⟩

/-- For every reachable source and every target, reachable or not, the echo of a
field restores it exactly when the field is neither mode nor fan, or when the two
states agree in it already. -/
theorem echo_restores_iff (name : CString) (field : StatusField) (source target : World)
    (reachable : Reachable (step name) powerOn source) :
    Restores name field source target ↔
      (field = .mode ∨ field = .fan →
        target.g_whirpool.field (bitsOf field) = source.g_whirpool.field (bitsOf field)) := by
  have wellFormed : WellFormed source.g_whirpool.field := wellFormed_reachable name source reachable
  rw [restores_iff]
  by_cases lost : field = .mode ∨ field = .fan
  · simp [echo_ignored field _ lost, perform, lost]
  · obtain ⟨setting, accepted, aims, value⟩ :=
      echo_assigns field source.g_whirpool wellFormed.temperature lost
    refine iff_of_true ⟨_, congrArg _ accepted, ?_, ?_⟩ fun impossible => absurd impossible lost
    · show (setting.apply target.g_whirpool).field (bitsOf field) = _
      rw [apply_field, if_pos aims.symm, value]
    · intro other different
      show (setting.apply target.g_whirpool).field other = _
      rw [apply_field, if_neg (aims ▸ different)]

/-- A device whose mode has been changed to heating. -/
def heating : World :=
  after (cStr (lit "salon")) (order (cStr (lit "salon")) (clock 8 0 0) (.change .mode) (lit "4"))
    powerOn

/-- The heating device is reachable. -/
theorem reachable_heating : Reachable (step (cStr (lit "salon"))) powerOn heating :=
  ⟨[order (cStr (lit "salon")) (clock 8 0 0) (.change .mode) (lit "4")],
    (run_some_iff _ _ _ _).mpr ⟨by decide, rfl⟩⟩

/-- The published temperature of the heating device restores that of a fresh one. -/
theorem echo_restores_iff_temperature :
    Restores (cStr (lit "salon")) .temperature heating powerOn :=
  (echo_restores_iff _ .temperature heating powerOn reachable_heating).mpr (by decide)

/-- A fresh device publishes `Cool`; the heating device ignores the word and goes on
heating. -/
theorem published_mode_lost :
    ¬ ∀ (name : CString) (field : StatusField) (source target : World),
      Reachable (step name) powerOn source → Reachable (step name) powerOn target →
        Restores name field source target := by
  intro always
  have restored := always (cStr (lit "salon")) .mode powerOn heating ⟨[], rfl⟩ reachable_heating
  rw [restores_iff, echo_ignored .mode _ (.inl rfl)] at restored
  obtain ⟨world, unchanged, equal, _⟩ := restored
  have same : heating = world := (EStateM.Result.ok.inj unchanged).2
  subst same
  revert equal
  decide

end WhirlpoolAc.StatusEcho
