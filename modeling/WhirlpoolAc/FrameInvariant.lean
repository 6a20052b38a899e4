import WhirlpoolAc.WireFrames

/-!
# Well-formed frames

The invariant of the packed frame: every bounded field stays inside its range, the
two end patterns keep the values of the constructor, and the fields that no setter
names stay as clear as static storage is before construction. A setting or a clock
stamp assigns fields of the first kind only, with values inside their ranges, so
the invariant holds in every run and hence of every transmitted frame.
-/

namespace WhirlpoolAc.FrameInvariant

open ByteStrings CxxLibrary FrameLayout PulseSender AirConditioner Firmware CommandRequests
  FieldEffects DeviceRuns WireFrames PartialRuns

/-- The fields no setter names: both timers and everything undocumented. -/
def idleFields : List BitField :=
  [.timer_Enable_Minutes_LSB, .timer_Enable_Minutes_MSB, .timer_Enable_AM_PM,
    .timer_Enable_ON_OFF, .timer_Enable_Hours, .timer_Disable_Minutes_LSB, .timer_Disable_AM_PM,
    .timer_Disable_ON_OFF, .timer_Disable_Hours, .byte2_unknown, .byte6_unknown, .byte7_unknown,
    .byte7_round, .byte7_unknownA]

/-- A frame whose fields have the given values is well formed. -/
structure WellFormed (value : BitField → Nat) : Prop where
  mode : value .mode ≤ 4
  temperature : value .temperature ≤ 14
  hours : value .clock_Hours ≤ 11
  minutes : value .clock_Minutes ≤ 59
  idle : ∀ field ∈ idleFields, value field = 0
  upperPattern : value .byte7_endPattern = 0b1010
  lowerPattern : value .byte8_endPattern = 0b0101

/-- The largest value a setting may assign to a field, where the width allows more. -/
theorem stored_bounds (raw : Nat) (setting : Setting) :
    (target setting = .mode → stored raw setting ≤ 4) ∧
      (target setting = .temperature → stored raw setting ≤ 14) := by
  have clamped (degrees : Nat) : setpoint degrees - 16 ≤ 14 := by
    unfold setpoint
    omega
  constructor
  · intro isMode
    cases setting with
    | mode selected => cases selected <;> exact Nat.le_of_ble_eq_true rfl
    | _ => cases isMode
  · intro isTemperature
    cases setting with
    | temperature degrees => exact clamped degrees.toNat
    | warmer => exact clamped (raw + 17)
    | cooler => exact clamped (raw + 15)
    | _ => cases isTemperature

/-- A setting never targets a clock field, a pattern or an idle field. -/
theorem target_settable (setting : Setting) (field : BitField)
    (other : field ∈ .clock_Hours :: .clock_Minutes :: .byte7_endPattern :: .byte8_endPattern ::
      idleFields) : field ≠ target setting := by
  have control : target setting ∈ controlFields := target_control setting
  rintro same
  rw [← same] at control
  revert other control
  cases field <;> decide

/-- A setting keeps the frame well formed. -/
theorem wellFormed_apply (setting : Setting) (ac : WhirlpoolYJ1B) (holds : WellFormed ac.field) :
    WellFormed (setting.apply ac).field := by
  have bounds := stored_bounds (ac.field .temperature) setting
  have kept (field : BitField)
      (other : field ∈ .clock_Hours :: .clock_Minutes :: .byte7_endPattern ::
        .byte8_endPattern :: idleFields) :
      (setting.apply ac).field field = ac.field field := by
    rw [apply_field, if_neg (target_settable setting field other)]
  constructor
  · rw [apply_field]
    split
    · next same => exact bounds.1 same.symm
    · exact holds.mode
  · rw [apply_field]
    split
    · next same => exact bounds.2 same.symm
    · exact holds.temperature
  · rw [kept .clock_Hours (by decide)]
    exact holds.hours
  · rw [kept .clock_Minutes (by decide)]
    exact holds.minutes
  · intro field member
    rw [kept field (by simp [member])]
    exact holds.idle field member
  · rw [kept .byte7_endPattern (by decide)]
    exact holds.upperPattern
  · rw [kept .byte8_endPattern (by decide)]
    exact holds.lowerPattern

/-- A clock stamp keeps the frame well formed. -/
theorem wellFormed_setClock (time : Tm) (ac : WhirlpoolYJ1B) (holds : WellFormed ac.field) :
    WellFormed (setClock time ac).field := by
  have kept (field : BitField)
      (other : field ∈ .mode :: .temperature :: .byte7_endPattern :: .byte8_endPattern ::
        idleFields) :
      (setClock time ac).field field = ac.field field := by
    have apart : field ≠ .clock_Seconds ∧ field ≠ .clock_Minutes ∧ field ≠ .clock_AM_PM ∧
        field ≠ .clock_Hours := by
      revert other
      cases field <;> decide
    simp [setClock_field, apart]
  constructor
  · rw [kept .mode (by decide)]
    exact holds.mode
  · rw [kept .temperature (by decide)]
    exact holds.temperature
  · have stampedHours : (setClock time ac).field .clock_Hours = time.tm_hour.val % 12 := by
      simp [setClock_field]
    omega
  · have stampedMinutes : (setClock time ac).field .clock_Minutes = time.tm_min.val := by
      simp [setClock_field]
    omega
  · intro field member
    rw [kept field (by simp [member])]
    exact holds.idle field member
  · rw [kept .byte7_endPattern (by decide)]
    exact holds.upperPattern
  · rw [kept .byte8_endPattern (by decide)]
    exact holds.lowerPattern

/-- The constructor, run on cleared storage, builds a well-formed frame. -/
theorem wellFormed_powerOn : WellFormed powerOn.g_whirpool.field := by
  have fields (field : BitField) : powerOn.g_whirpool.field field =
      match field with
      | .mode => 1
      | .temperature => 8
      | .light => 1
      | .byte7_endPattern => 0b1010
      | .byte8_endPattern => 0b0101
      | _ => 0 := by
    cases field <;> decide
  constructor
  · exact (fields .mode).le.trans (by decide)
  · exact (fields .temperature).le.trans (by decide)
  · exact (fields .clock_Hours).le.trans (by decide)
  · exact (fields .clock_Minutes).le.trans (by decide)
  · intro field member
    rw [fields]
    revert member
    cases field <;> decide
  · exact fields .byte7_endPattern
  · exact fields .byte8_endPattern

/-- No reaction breaks the frame. -/
theorem wellFormed_step (name : CString) (world next : World) (event : Event)
    (holds : WellFormed world.g_whirpool.field) (stepped : step name world event = some next) :
    WellFormed next.g_whirpool.field := by
  obtain ⟨_, rfl⟩ := step_some name world next event stepped
  exact change_preserves (fun ac => WellFormed ac.field) wellFormed_apply wellFormed_setClock
    event.now (event.request name) world.g_whirpool holds

/-- The controller of a running device holds a well-formed frame. -/
theorem wellFormed_reachable (name : CString) (world : World)
    (reachable : Reachable (step name) powerOn world) : WellFormed world.g_whirpool.field := by
  obtain ⟨events, ran⟩ := reachable
  exact run_invariant (step name) (fun world => WellFormed world.g_whirpool.field) events
    (fun world event next _ => wellFormed_step name world next event) powerOn world
    wellFormed_powerOn ran

/-- In every run from power-on each transmitted frame is well formed, both in the
buffer and as the receiver reads it from the emitted bits; the sender is asked for
68 bits, finds each of them inside the nine bytes and emits them; and no reaction,
to whatever comes next, reads past the buffer. -/
theorem transmitted_frames_wellFormed (name : CString) (events : List Event) (world : World)
    (ran : run (step name) powerOn events = some world) :
    (∀ transmission ∈ world.transmissions,
      WellFormed (fun field => readField field transmission.data) ∧
      WellFormed (carried transmission) ∧
      transmission.numberOfBits = 68 ∧
      (∀ bit < transmission.numberOfBits.toNat, dataBit transmission.data.toList bit ≠ none) ∧
      emission transmission.data.toList transmission.numberOfBits = some transmission.signals) ∧
    ∀ event exception after,
      handle name event world = .error exception after → exception ≠ .outOfBounds := by
  constructor
  · intro transmission member
    obtain ⟨_, frames⟩ := run_controllers name (fun ac => WellFormed ac.field) wellFormed_apply
      wellFormed_setClock wellFormed_powerOn events world ran
    obtain ⟨time, ac, holds, rfl⟩ := frames transmission member
    have wellFormed : WellFormed (setClock time ac).field := wellFormed_setClock time ac holds
    have received : carried (stamped time ac) = (setClock time ac).field :=
      funext fun field => carried_stamped time ac field
    refine ⟨wellFormed, received ▸ wellFormed, rfl, ?_, emission_frame _⟩
    intro bit inside
    have short : bit < 8 * (stamped time ac).data.toList.length := by
      have counted : (stamped time ac).data.toList.length = 9 := Vector.length_toList
      have bounded : bit < 68 := inside
      omega
    rw [dataBit_inside _ _ short]
    exact Option.some_ne_none _
  · rintro event exception after failed rfl
    cases (handle_error name event world after _ failed).1

/-- A mode and a setpoint beyond the range, then commits from two sources. -/
def changedTwice : List Event :=
  [order (cStr (lit "salon")) (clock 8 0 0) (.change .mode) (lit "4"),
    order (cStr (lit "salon")) (clock 8 1 0) (.change .temperature) (lit "99"),
    .serialCommit (clock 8 2 60),
    order (cStr (lit "salon")) (clock 23 59 59) .commit (lit "")]

/-- Both frames of that run are well formed. -/
theorem transmitted_frames_wellFormed_changedTwice :
    ∃ world, run (step (cStr (lit "salon"))) powerOn changedTwice = some world ∧
      world.transmissions.length = 2 ∧
      ∀ transmission ∈ world.transmissions, WellFormed (carried transmission) := by
  have ran := (run_some_iff (cStr (lit "salon")) powerOn _ changedTwice).mpr
    ⟨by decide, rfl⟩
  refine ⟨_, ran, ?_, ?_⟩
  · rfl
  · intro transmission member
    exact ((transmitted_frames_wellFormed _ _ _ ran).1 transmission member).2.1

end WhirlpoolAc.FrameInvariant
