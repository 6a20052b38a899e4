import WhirlpoolAc.DeviceRuns

/-!
# Settings and clock stamps as field assignments

Each accepted setting assigns exactly one bit-field, with a value that fits it;
a clock stamp assigns the clock fields and no other. Reading any field after a
setting or a stamp is then a case distinction on the field, and invariants of the
frame never look at setters again.
-/

namespace WhirlpoolAc.FieldEffects

open ByteStrings CxxLibrary FrameLayout AirConditioner Firmware MqttMessages CommandRequests

/-- The setpoint nearest to a requested temperature. -/
def setpoint (degrees : Nat) : Nat := min 30 (max 16 degrees)

/-- An assignment is read back in its own field, cut to the width, and in no other. -/
@[simp] theorem assign_field (field written : BitField) (value : Nat) (ac : WhirlpoolYJ1B) :
    (ac.assign written value).field field =
      if field = written then value % 2 ^ written.size else ac.field field :=
  readField_writeField field written value ac.m_data

/-- A stored temperature never exceeds its four bits, so the sum does not wrap. -/
@[simp] theorem getTemperature_toNat (ac : WhirlpoolYJ1B) :
    ac.getTemperature.toNat = ac.field .temperature + 16 := by
  have small : ac.field .temperature < 16 := readField_lt .temperature ac.m_data
  rw [WhirlpoolYJ1B.getTemperature, UInt8.toNat_ofNat']
  omega

/-- A stored flag is the number of its Boolean. -/
theorem flag_toNat (ac : WhirlpoolYJ1B) (name : BitField) (oneBit : name.size = 1) :
    (ac.flag name).toNat = ac.field name := by
  have small : ac.field name < 2 := by
    have bounded : ac.field name < 2 ^ name.size := readField_lt name ac.m_data
    rw [oneBit] at bounded
    exact bounded
  unfold WhirlpoolYJ1B.flag
  rcases Nat.le_one_iff_eq_zero_or_eq_one.mp (Nat.le_of_lt_succ small) with clear | set
  · rw [clear]
    rfl
  · rw [set]
    rfl

/-- Conversion of an `int` to a byte. -/
theorem toUInt8_toNat (value : Int) : (toUInt8 value).toNat = (value % 256).toNat := by
  rw [toUInt8, UInt8.toNat_ofNat']
  omega

/-- The three branches of the temperature setter store the nearest setpoint. -/
theorem setTemperature_eq (temp : UInt8) (ac : WhirlpoolYJ1B) :
    ac.setTemperature temp = ac.assign .temperature (setpoint temp.toNat - 16) := by
  unfold WhirlpoolYJ1B.setTemperature setpoint
  by_cases hot : temp.toNat > 30
  · have top : min 30 (max 16 temp.toNat) = 30 := by omega
    rw [if_pos hot, top]
  · by_cases cold : temp.toNat < 16
    · have bottom : min 30 (max 16 temp.toNat) = 16 := by omega
      rw [if_neg hot, if_pos cold, bottom]
    · have same : min 30 (max 16 temp.toNat) = temp.toNat := by omega
      rw [if_neg hot, if_neg cold, same]

/-- The bit-field behind a published field. -/
def bitsOf : StatusField → BitField
  | .temperature => .temperature
  | .light => .light
  | .mode => .mode
  | .state => .power
  | .fan => .fan
  | .swing => .swing
  | .jet => .jet
  | .sleep => .sleep

/-- The field a setting assigns. -/
def target : Setting → BitField
  | .temperature _ | .warmer | .cooler => .temperature
  | .light _ => .light
  | .mode _ => .mode
  | .state _ => .power
  | .fan _ => .fan
  | .swing _ => .swing
  | .jet _ => .jet
  | .sleep _ => .sleep

/-- The fields that settings assign. -/
def controlFields : List BitField :=
  [.temperature, .light, .mode, .power, .fan, .swing, .jet, .sleep]

/-- A setting assigns no other field. -/
theorem target_control (setting : Setting) : target setting ∈ controlFields := by
  cases setting <;> simp [target, controlFields]

/-- The value a setting assigns, given the stored temperature. -/
def stored (raw : Nat) : Setting → Nat
  | .temperature degrees => setpoint degrees.toNat - 16
  | .warmer => setpoint (raw + 17) - 16
  | .cooler => setpoint (raw + 15) - 16
  | .mode selected => selected.tounderlying.toNat
  | .fan speed => speed.tounderlying.toNat
  | .light on | .state on | .swing on | .jet on | .sleep on => on.toNat

/-- The mode setter stores its argument whether or not it assigned the fallback first. -/
theorem setMode_eq (mode : UInt8) (ac : WhirlpoolYJ1B) :
    ac.setMode mode = ac.assign .mode mode.toNat := by
  unfold WhirlpoolYJ1B.setMode
  by_cases undeclared : mode.toNat > 4
  · simp only [undeclared, if_true, WhirlpoolYJ1B.assign, writeField_twice]
  · simp only [undeclared, if_false]

/-- Every setting is one field assignment. -/
theorem apply_eq_assign (setting : Setting) (ac : WhirlpoolYJ1B) :
    setting.apply ac = ac.assign (target setting) (stored (ac.field .temperature) setting) := by
  have small : ac.field .temperature < 16 := readField_lt .temperature ac.m_data
  cases setting with
  | temperature degrees => exact setTemperature_eq degrees ac
  | warmer =>
    have sum : (toUInt8 (ac.getTemperature.toNat + 1)).toNat = ac.field .temperature + 17 := by
      rw [toUInt8_toNat, getTemperature_toNat]
      omega
    rw [Setting.apply, setTemperature_eq, sum]
    rfl
  | cooler =>
    have difference :
        (toUInt8 (ac.getTemperature.toNat - 1)).toNat = ac.field .temperature + 15 := by
      rw [toUInt8_toNat, getTemperature_toNat]
      omega
    rw [Setting.apply, setTemperature_eq, difference]
    rfl
  | mode selected => exact setMode_eq selected.tounderlying ac
  | light on => rfl
  | state on => rfl
  | fan speed => rfl
  | swing on => rfl
  | jet on => rfl
  | sleep on => rfl

/-- The assigned value fits the field. -/
theorem stored_lt (raw : Nat) (setting : Setting) :
    stored raw setting < 2 ^ (target setting).size := by
  have flags (on : Bool) : on.toNat < 2 := Bool.toNat_lt on
  have modes (selected : Mode) : selected.tounderlying.toNat < 8 := by cases selected <;> decide
  have speeds (speed : Fan) : speed.tounderlying.toNat < 4 := by cases speed <;> decide
  cases setting with
  | temperature degrees =>
    show setpoint degrees.toNat - 16 < 16
    unfold setpoint
    omega
  | warmer =>
    show setpoint (raw + 17) - 16 < 16
    unfold setpoint
    omega
  | cooler =>
    show setpoint (raw + 15) - 16 < 16
    unfold setpoint
    omega
  | mode selected => exact modes selected
  | fan speed => exact speeds speed
  | light on => exact flags on
  | state on => exact flags on
  | swing on => exact flags on
  | jet on => exact flags on
  | sleep on => exact flags on

/-- Reading a field after a setting. -/
theorem apply_field (setting : Setting) (field : BitField) (ac : WhirlpoolYJ1B) :
    (setting.apply ac).field field =
      if field = target setting then stored (ac.field .temperature) setting
      else ac.field field := by
  rw [apply_eq_assign, assign_field, Nat.mod_eq_of_lt (stored_lt _ setting)]

/-- Reading a field after the hour setter. The afternoon bit is only ever set. -/
theorem setClockHours_field (hours : UInt8) (field : BitField) (ac : WhirlpoolYJ1B) :
    (ac.setClockHours hours).field field =
      if field = .clock_AM_PM ∧ 12 ≤ hours.toNat then 1
      else if field = .clock_Hours then hours.toNat % 12
      else ac.field field := by
  have fits : hours.toNat % 12 % 2 ^ BitField.clock_Hours.size = hours.toNat % 12 :=
    Nat.mod_eq_of_lt (show hours.toNat % 12 < 2 ^ 4 by omega)
  have flagFits : true.toNat % 2 ^ BitField.clock_AM_PM.size = 1 := rfl
  unfold WhirlpoolYJ1B.setClockHours
  by_cases afternoon : 12 ≤ hours.toNat
  · rw [if_pos afternoon, WhirlpoolYJ1B.setClockAMPM, assign_field, assign_field, flagFits, fits]
    simp only [afternoon, and_true]
  · rw [if_neg afternoon, assign_field, fits]
    simp only [afternoon, and_false, if_false]

/-- Reading a field after a clock stamp. The hour and the minute keep their value,
and seconds are counted in quarters of a minute. -/
theorem setClock_field (time : Tm) (field : BitField) (ac : WhirlpoolYJ1B) :
    (setClock time ac).field field =
      if field = .clock_Seconds then time.tm_sec.val % 60 / 15
      else if field = .clock_Minutes then time.tm_min.val
      else if field = .clock_AM_PM ∧ 12 ≤ time.tm_hour.val then 1
      else if field = .clock_Hours then time.tm_hour.val % 12
      else ac.field field := by
  have hour : (UInt8.ofNat time.tm_hour.val).toNat = time.tm_hour.val := by
    rw [UInt8.toNat_ofNat']
    omega
  have minute : (UInt8.ofNat time.tm_min.val).toNat = time.tm_min.val := by
    rw [UInt8.toNat_ofNat']
    omega
  have second : (UInt8.ofNat time.tm_sec.val).toNat = time.tm_sec.val := by
    rw [UInt8.toNat_ofNat']
    omega
  have minuteFits : time.tm_min.val % 60 % 2 ^ BitField.clock_Minutes.size = time.tm_min.val := by
    show time.tm_min.val % 60 % 64 = time.tm_min.val
    omega
  have secondFits : time.tm_sec.val % 60 / 15 % 2 ^ BitField.clock_Seconds.size =
      time.tm_sec.val % 60 / 15 := by
    show time.tm_sec.val % 60 / 15 % 16 = time.tm_sec.val % 60 / 15
    omega
  rw [setClock, WhirlpoolYJ1B.setClockSeconds, assign_field, WhirlpoolYJ1B.setClockMinutes,
    assign_field, setClockHours_field, hour, minute, second, minuteFits, secondFits]

/-- A clock stamp leaves the eight fields alone. -/
theorem setClock_bitsOf (time : Tm) (ac : WhirlpoolYJ1B) (field : StatusField) :
    (setClock time ac).field (bitsOf field) = ac.field (bitsOf field) := by
  cases field <;> simp [setClock_field, bitsOf]

end WhirlpoolAc.FieldEffects
