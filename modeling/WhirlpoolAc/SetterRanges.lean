import WhirlpoolAc.SetterCalls

/-!
# Ranges that setters keep

A controller in static storage is built in range. Each setter normalizes its argument
in its own way: by saturation, by a remainder, or by the width of its field. The mode
setter means to fall back to the sixth sense, but its next statement overwrites the
fallback with the low three bits of the argument. A run of calls is in range throughout,
with the fallback honoured, exactly when every mode argument is declared or has clear
low bits.
-/

namespace WhirlpoolAc.SetterRanges

open FrameLayout AirConditioner FieldEffects PackedWrites SetterCalls

/-- The ranges of a controller's values. -/
structure InRange (ac : WhirlpoolYJ1B) : Prop where
  mode : ∃ declared : Mode, ac.getMode = declared.tounderlying
  fan : ∃ declared : Fan, ac.getFan = declared.tounderlying
  temperature : 16 ≤ ac.getTemperature.toNat ∧ ac.getTemperature.toNat ≤ 30
  hours : ac.field .clock_Hours ≤ 11
  minutes : ac.field .clock_Minutes ≤ 59
  seconds : ac.field .clock_Seconds ≤ 14
  upperPattern : ac.field .byte7_endPattern = 0b1010
  lowerPattern : ac.field .byte8_endPattern = 0b0101

/-- A mode call with an undeclared argument has selected the sixth sense. -/
def FallsBack (call : SetterCall) (ac : WhirlpoolYJ1B) : Prop :=
  ∀ mode, call = .setMode mode → 4 < mode.toNat → ac.getMode = Mode.Sense_6th.tounderlying

/-- A default-constructed controller in static storage. -/
def defaultConstructed : WhirlpoolYJ1B := construct zeroFilled

/-- A mode argument that the setter stores as a declared mode, and as the fallback if it
is undeclared. -/
def Harmless (mode : UInt8) : Prop := mode.toNat ≤ 4 ∨ mode.toNat % 8 = 0

/-- The largest value of a field that is in range. -/
def ceiling : BitField → Nat
  | .mode => 4
  | .temperature => 14
  | .clock_Hours => 11
  | .clock_Minutes => 59
  | .clock_Seconds => 14
  | field => 2 ^ field.size - 1

/-- The invariant: every field below its ceiling, and the patterns of the constructor. -/
structure Bounded (ac : WhirlpoolYJ1B) : Prop where
  below : ∀ field, ac.field field ≤ ceiling field
  upperPattern : ac.field .byte7_endPattern = 0b1010
  lowerPattern : ac.field .byte8_endPattern = 0b0101

/-- A number below five is a declared mode. -/
theorem declared_mode (number : Nat) (small : number ≤ 4) :
    ∃ declared : Mode, UInt8.ofNat number = declared.tounderlying := by
  have cases : number = 0 ∨ number = 1 ∨ number = 2 ∨ number = 3 ∨ number = 4 := by omega
  rcases cases with rfl | rfl | rfl | rfl | rfl
  · exact ⟨.Sense_6th, rfl⟩
  · exact ⟨.Cool, rfl⟩
  · exact ⟨.Dry, rfl⟩
  · exact ⟨.Fan, rfl⟩
  · exact ⟨.Heat, rfl⟩

/-- A number below four is a declared fan speed. -/
theorem declared_fan (number : Nat) (small : number ≤ 3) :
    ∃ declared : Fan, UInt8.ofNat number = declared.tounderlying := by
  have cases : number = 0 ∨ number = 1 ∨ number = 2 ∨ number = 3 := by omega
  rcases cases with rfl | rfl | rfl | rfl
  · exact ⟨.Auto, rfl⟩
  · exact ⟨.V1, rfl⟩
  · exact ⟨.V2, rfl⟩
  · exact ⟨.V3, rfl⟩

/-- The invariant puts every value in range. -/
theorem Bounded.inRange (ac : WhirlpoolYJ1B) (bounded : Bounded ac) : InRange ac := by
  constructor
  · exact declared_mode (ac.field .mode) (bounded.below .mode)
  · exact declared_fan (ac.field .fan) (bounded.below .fan)
  · have top : ac.field .temperature ≤ 14 := bounded.below .temperature
    rw [getTemperature_toNat]
    omega
  · exact bounded.below .clock_Hours
  · exact bounded.below .clock_Minutes
  · exact bounded.below .clock_Seconds
  · exact bounded.upperPattern
  · exact bounded.lowerPattern

/-- What a call stores is below the ceiling, if a mode argument is harmless. The fields
without a ceiling of their own are bounded by their width. -/
theorem writes_below (call : SetterCall)
    (harmless : ∀ mode, call = .setMode mode → Harmless mode) :
    ∀ entry ∈ call.writes, entry.2 % 2 ^ entry.1.size ≤ ceiling entry.1 := by
  have narrow (field : BitField) (value : Nat) : value % 2 ^ field.size ≤ 2 ^ field.size - 1 :=
    Nat.le_sub_one_of_lt (Nat.mod_lt _ (Nat.two_pow_pos _))
  cases call with
  | setMode mode =>
    have stored : mode.toNat % 8 ≤ 4 := by
      rcases harmless mode rfl with declared | clear
      · omega
      · omega
    exact List.forall_mem_singleton.mpr stored
  | setTemperatureRaw temp =>
    have stored : min 14 temp.toNat % 16 ≤ 14 := by omega
    exact List.forall_mem_singleton.mpr stored
  | setTemperature temp =>
    have stored : (setpoint temp.toNat - 16) % 16 ≤ 14 := by
      unfold setpoint
      omega
    exact List.forall_mem_singleton.mpr stored
  | setClockSeconds seconds =>
    have stored : seconds.toNat % 60 / 15 % 16 ≤ 14 := by omega
    exact List.forall_mem_singleton.mpr stored
  | setClockMinutes minutes =>
    have stored : minutes.toNat % 60 % 64 ≤ 59 := by omega
    exact List.forall_mem_singleton.mpr stored
  | setClockHours hours =>
    have stored : hours.toNat % 12 % 16 ≤ 11 := by omega
    refine List.forall_mem_cons.mpr ⟨stored, ?_⟩
    intro entry member
    rw [List.mem_ite_nil_right, List.mem_singleton] at member
    rw [member.2]
    exact narrow .clock_AM_PM 1
  | _ => exact List.forall_mem_singleton.mpr (narrow _ _)

/-- No call writes the end patterns. -/
theorem pattern_unassigned (call : SetterCall) (field : BitField)
    (pattern : field = .byte7_endPattern ∨ field = .byte8_endPattern) :
    call.assigned field = none := by
  rw [SetterCall.assigned, lastValue_none_iff]
  intro entry member
  have settable : entry.1 ≠ .byte7_endPattern ∧ entry.1 ≠ .byte8_endPattern := by
    cases call with
    | setClockHours hours =>
      rcases List.mem_cons.mp member with rfl | flag
      · simp
      · rw [List.mem_ite_nil_right, List.mem_singleton] at flag
        simp [flag.2]
    | _ => simp [List.mem_singleton.mp member]
  rcases pattern with rfl | rfl
  · exact settable.1
  · exact settable.2

/-- A call keeps the invariant, if a mode argument is harmless. -/
theorem Bounded.apply (call : SetterCall) (ac : WhirlpoolYJ1B)
    (harmless : ∀ mode, call = .setMode mode → Harmless mode) (bounded : Bounded ac) :
    Bounded (call.apply ac) := by
  constructor
  · intro field
    rw [apply_assigned]
    cases assigns : call.assigned field with
    | none => exact bounded.below field
    | some value =>
      have wrote : (field, value) ∈ call.writes := lastValue_mem field call.writes value assigns
      exact writes_below call harmless (field, value) wrote
  · rw [apply_assigned, pattern_unassigned call _ (.inl rfl)]
    exact bounded.upperPattern
  · rw [apply_assigned, pattern_unassigned call _ (.inr rfl)]
    exact bounded.lowerPattern

/-- The constructor builds a controller in range. -/
theorem Bounded.defaultConstructed : Bounded defaultConstructed := by
  constructor
  · intro field
    cases field <;> decide
  · decide
  · decide

/-- The mode that a mode call leaves is its argument's low three bits. -/
theorem getMode_setMode (mode : UInt8) (ac : WhirlpoolYJ1B) :
    (SetterCall.apply ac (.setMode mode)).getMode = UInt8.ofNat (mode.toNat % 8) := by
  rw [WhirlpoolYJ1B.getMode, apply_assigned]
  rfl

/-- A mode call honours the fallback exactly when its argument is harmless. -/
theorem fallsBack_setMode_iff (mode : UInt8) (ac : WhirlpoolYJ1B) :
    FallsBack (.setMode mode) (SetterCall.apply ac (.setMode mode)) ↔ Harmless mode := by
  have selects : (SetterCall.apply ac (.setMode mode)).getMode = Mode.Sense_6th.tounderlying ↔
      mode.toNat % 8 = 0 := by
    rw [getMode_setMode, ← UInt8.toNat_inj, UInt8.toNat_ofNat']
    show mode.toNat % 8 % 256 = 0 ↔ mode.toNat % 8 = 0
    omega
  constructor
  · intro honoured
    by_cases declared : mode.toNat ≤ 4
    · exact .inl declared
    · exact .inr (selects.mp (honoured mode rfl (Nat.lt_of_not_le declared)))
  · rintro harmless other same undeclared
    cases same
    rcases harmless with declared | clear
    · omega
    · exact selects.mpr clear

/-- In every sequence of calls on a default-constructed controller in static storage, each
call leaves all values in range and honours the fallback, exactly when every mode argument
is declared or has clear low bits. -/
theorem setter_ranges_iff (calls : List SetterCall) :
    (∀ before call after, calls = before ++ call :: after →
      InRange (applyAll defaultConstructed (before ++ [call])) ∧
        FallsBack call (applyAll defaultConstructed (before ++ [call]))) ↔
      ∀ mode, .setMode mode ∈ calls → mode.toNat ≤ 4 ∨ mode.toNat % 8 = 0 := by
  have ends (before : List SetterCall) (call : SetterCall) :
      applyAll defaultConstructed (before ++ [call]) =
        call.apply (applyAll defaultConstructed before) :=
    applyAll_append before [call] defaultConstructed
  constructor
  · intro throughout mode member
    obtain ⟨before, after, split⟩ := List.append_of_mem member
    have honoured := (throughout before (.setMode mode) after split).2
    rw [ends] at honoured
    exact (fallsBack_setMode_iff mode _).mp honoured
  · intro harmless before call after split
    have upTo : ∀ other ∈ before ++ [call], ∀ mode, other = .setMode mode → Harmless mode := by
      rintro other member mode rfl
      apply harmless mode
      rw [split, List.append_cons]
      exact List.mem_append_left after member
    have bounded : Bounded (applyAll defaultConstructed (before ++ [call])) :=
      applyAll_invariant Bounded _
        (fun other member ac => Bounded.apply other ac (upTo other member)) _
        Bounded.defaultConstructed
    refine ⟨bounded.inRange, ?_⟩
    rintro mode rfl undeclared
    rw [ends]
    exact (fallsBack_setMode_iff mode _).mpr
      (upTo (.setMode mode) (List.mem_append_right before List.mem_cons_self) mode rfl)
      mode rfl undeclared

/-- A single mode call with argument five stores an undeclared mode. -/
theorem setMode_five_breaks_range :
    ¬ ∀ before call after, [SetterCall.setMode 5] = before ++ call :: after →
      InRange (applyAll defaultConstructed (before ++ [call])) ∧
        FallsBack call (applyAll defaultConstructed (before ++ [call])) := by
  intro throughout
  obtain ⟨declared, selected⟩ := (throughout [] (.setMode 5) [] rfl).1.mode
  revert selected
  cases declared <;> decide

end WhirlpoolAc.SetterRanges
