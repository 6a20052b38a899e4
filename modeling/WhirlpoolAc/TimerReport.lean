import WhirlpoolAc.ReferenceDecoder
import WhirlpoolAc.SetterCalls

/-!
# Timers and seconds in the reference decoder

The minutes of the on-timer are split over two bytes. The decoder shifts the upper part
out of its own mask and joins the parts by AND, so it always prints zero; every other
timer entry shows its field. Seconds are counted in intervals: the decoder takes a unit
as four seconds, which the frame's layout notes as a fifteenth of a minute, while the
setter divides by fifteen. Both agree in the first four seconds of a minute only.
-/

namespace WhirlpoolAc.TimerReport

open ByteStrings CxxLibrary FrameLayout PackedWrites AirConditioner ReferenceDecoder SetterCalls

/-- The text for an afternoon flag. -/
def halfOfDay (afternoon : Bool) : Shown := .text (if afternoon then lit "PM" else lit "AM")

/-- The timer entries of a printed frame show the timer fields. -/
structure TimersAgree (ac : WhirlpoolYJ1B) (protocol : Map Bytes Shown) : Prop where
  onMinutes : protocol.find (lit "Timer On: Minutes") = some (.number
    (ac.field .timer_Enable_Minutes_LSB + 16 * ac.field .timer_Enable_Minutes_MSB))
  onHours : protocol.find (lit "Timer On: Hours") = some (.number (ac.field .timer_Enable_Hours))
  onHalf : protocol.find (lit "Timer On:") = some (halfOfDay (ac.flag .timer_Enable_AM_PM))
  onEnable : protocol.find (lit "Timer On: Enable") = some (.flag (ac.flag .timer_Enable_ON_OFF))
  offMinutes : protocol.find (lit "Timer Off: Minutes") =
    some (.number (ac.field .timer_Disable_Minutes_LSB))
  offHours : protocol.find (lit "Timer Off: Hours") =
    some (.number (ac.field .timer_Disable_Hours))
  offHalf : protocol.find (lit "Timer Off:") = some (halfOfDay (ac.flag .timer_Disable_AM_PM))
  offEnable : protocol.find (lit "Timer Off: Enable") =
    some (.flag (ac.flag .timer_Disable_ON_OFF))

/-- The seconds of a printed frame are at most the given ones within their minute, by less
than one interval of four seconds. -/
def SecondsAgree (seconds : Nat) (protocol : Map Bytes Shown) : Prop :=
  ∃ shown, protocol.find (lit "Clock: 4SecondsInterval") = some (.number shown) ∧
    seconds % 60 < shown + 4 ∧ shown ≤ seconds % 60

/-- What the decoder prints for a controller's frame has a property. -/
def Prints (ac : WhirlpoolYJ1B) (property : Map Bytes Shown → Prop) : Prop :=
  ∃ protocol, printCommon (frameBytes ac) (frameRawBits ac) = some protocol ∧ property protocol

/-- The text of a one-bit field. -/
theorem getAMPM_field (ac : WhirlpoolYJ1B) (name : BitField) (oneBit : name.size = 1) :
    getAMPM (ac.field name) = halfOfDay (ac.flag name) := by
  have number : (ac.flag name).toNat = ac.field name := FieldEffects.flag_toNat ac name oneBit
  rw [← number]
  cases ac.flag name <;> rfl

/-- Masking the two low bits behind a shift by four leaves nothing. -/
theorem shifted_out (byte : Nat) : (byte <<< 4) &&& 0b000011 = 0 := by
  have masked : (byte <<< 4) &&& 0b000011 = (byte <<< 4) % 4 :=
    Nat.and_two_pow_sub_one_eq_mod (byte <<< 4) 2
  have shifted : byte <<< 4 = byte * 16 := Nat.shiftLeft_eq byte 4
  omega

/-- For every content of the frame the decoder prints it. Seven of the timer entries show
their fields, the minutes of the on-timer are zero, and seconds are the field's units
of four. -/
theorem printed_clock (ac : WhirlpoolYJ1B) :
    ∃ protocol, printCommon (frameBytes ac) (frameRawBits ac) = some protocol ∧
      protocol.find (lit "Clock: 4SecondsInterval") =
        some (.number (ac.field .clock_Seconds * 4)) ∧
      protocol.find (lit "Timer Off: Minutes") =
        some (.number (ac.field .timer_Disable_Minutes_LSB)) ∧
      protocol.find (lit "Timer Off: Hours") = some (.number (ac.field .timer_Disable_Hours)) ∧
      protocol.find (lit "Timer Off:") = some (halfOfDay (ac.flag .timer_Disable_AM_PM)) ∧
      protocol.find (lit "Timer Off: Enable") = some (.flag (ac.flag .timer_Disable_ON_OFF)) ∧
      protocol.find (lit "Timer On: Minutes") = some (.number 0) ∧
      protocol.find (lit "Timer On: Hours") = some (.number (ac.field .timer_Enable_Hours)) ∧
      protocol.find (lit "Timer On:") = some (halfOfDay (ac.flag .timer_Enable_AM_PM)) ∧
      protocol.find (lit "Timer On: Enable") = some (.flag (ac.flag .timer_Enable_ON_OFF)) := by
  have byte := frameBytes_getElem ac
  have raw := frameRawBits_getElem ac
  have seconds : ((ac.m_data[1].toNat >>> 4) &&& 0b1111) * 4 = ac.field .clock_Seconds * 4 :=
    congrArg (· * 4) (shift_mask ac .clock_Seconds)
  have offMinutes : ac.m_data[5].toNat &&& 0b111111 = ac.field .timer_Disable_Minutes_LSB :=
    mask_only ac .timer_Disable_Minutes_LSB rfl
  have offHours : ac.m_data[6].toNat &&& 0b1111 = ac.field .timer_Disable_Hours :=
    mask_only ac .timer_Disable_Hours rfl
  have offHalf : getAMPM ((ac.m_data[5].toNat >>> 6) &&& 0b1) =
      halfOfDay (ac.flag .timer_Disable_AM_PM) :=
    (congrArg getAMPM (shift_mask ac .timer_Disable_AM_PM)).trans
      (getAMPM_field ac .timer_Disable_AM_PM rfl)
  have offEnable : bool ((ac.m_data[5].toNat >>> 7) &&& 0b1) = ac.flag .timer_Disable_ON_OFF :=
    bool_flag ac .timer_Disable_ON_OFF
  have onMinutes : ((ac.m_data[3].toNat >>> 4) &&& 0b11111) &&&
      ((ac.m_data[4].toNat <<< 4) &&& 0b000011) = 0 := by
    rw [shifted_out, Nat.and_zero]
  have onHours : (ac.m_data[4].toNat >>> 4) &&& 0b1111 = ac.field .timer_Enable_Hours :=
    shift_mask ac .timer_Enable_Hours
  have onHalf : getAMPM ((ac.m_data[4].toNat >>> 2) &&& 0b1) =
      halfOfDay (ac.flag .timer_Enable_AM_PM) :=
    (congrArg getAMPM (shift_mask ac .timer_Enable_AM_PM)).trans
      (getAMPM_field ac .timer_Enable_AM_PM rfl)
  have onEnable : bool ((ac.m_data[4].toNat >>> 3) &&& 0b1) = ac.flag .timer_Enable_ON_OFF :=
    bool_flag ac .timer_Enable_ON_OFF
  rw [← seconds, ← offMinutes, ← offHours, ← offHalf, ← offEnable, ← onMinutes, ← onHours,
    ← onHalf, ← onEnable]
  refine ⟨?protocol, ?printed, ?entries⟩
  case printed =>
    simp only [printCommon, byte 0 (by decide), byte 1 (by decide), byte 2 (by decide),
      byte 3 (by decide), byte 4 (by decide), byte 5 (by decide), byte 6 (by decide),
      byte 7 (by decide), raw 3 (by decide), raw 6 (by decide), raw 7 (by decide)]
    rfl
  case entries => exact ⟨rfl, rfl, rfl, rfl, rfl, rfl, rfl, rfl, rfl⟩

/-- The printed timers show the timer fields exactly when the minutes of the on-timer are
zero in both bytes. -/
theorem timersAgree_iff (ac : WhirlpoolYJ1B) :
    Prints ac (TimersAgree ac) ↔
      ac.field .timer_Enable_Minutes_LSB = 0 ∧ ac.field .timer_Enable_Minutes_MSB = 0 := by
  obtain ⟨protocol, printed, _, offMinutes, offHours, offHalf, offEnable, onMinutes, onHours,
    onHalf, onEnable⟩ := printed_clock ac
  constructor
  · rintro ⟨other, same, agree⟩
    rw [printed] at same
    obtain rfl := Option.some.inj same
    have told := agree.onMinutes
    rw [onMinutes, Option.some.injEq, Shown.number.injEq] at told
    omega
  · rintro ⟨lower, upper⟩
    refine ⟨protocol, printed, ?_, onHours, onHalf, onEnable, offMinutes, offHours, offHalf,
      offEnable⟩
    rw [onMinutes, lower, upper]

/-- The printed seconds agree exactly when the stored units are the given quarters. -/
theorem secondsAgree_iff (ac : WhirlpoolYJ1B) (seconds : Nat) :
    Prints ac (SecondsAgree seconds) ↔
      seconds % 60 < ac.field .clock_Seconds * 4 + 4 ∧
        ac.field .clock_Seconds * 4 ≤ seconds % 60 := by
  obtain ⟨protocol, printed, interval, _⟩ := printed_clock ac
  constructor
  · rintro ⟨other, same, shown, told, bounds⟩
    rw [printed] at same
    obtain rfl := Option.some.inj same
    rw [interval, Option.some.injEq, Shown.number.injEq] at told
    rw [told]
    exact bounds
  · intro bounds
    exact ⟨protocol, printed, _, interval, bounds⟩

/-- The seconds field after a call of its setter and any calls that leave it alone. -/
theorem clock_Seconds_produced (before : WhirlpoolYJ1B) (seconds : UInt8)
    (later : List SetterCall) (others : ∀ call ∈ later, call.assigned .clock_Seconds = none) :
    (applyAll before (.setClockSeconds seconds :: later)).field .clock_Seconds =
      seconds.toNat % 60 / 15 := by
  have last := last_assigned .clock_Seconds [] later (.setClockSeconds seconds) _ rfl others
  rw [List.nil_append] at last
  rw [applyAll_field, last]
  show seconds.toNat % 60 / 15 % 16 = seconds.toNat % 60 / 15
  omega

/-- For every content of the fields, the printed timers agree exactly when the minutes of
the on-timer are zero; in every frame produced after a call of the seconds setter, the
printed seconds agree exactly in the first four seconds of a minute. -/
theorem timer_report_iff (ac before : WhirlpoolYJ1B) (seconds : UInt8) (later : List SetterCall)
    (others : ∀ call ∈ later, call.assigned .clock_Seconds = none) :
    (Prints ac (TimersAgree ac) ↔
      ac.field .timer_Enable_Minutes_LSB = 0 ∧ ac.field .timer_Enable_Minutes_MSB = 0) ∧
    (Prints (applyAll before (.setClockSeconds seconds :: later)) (SecondsAgree seconds.toNat) ↔
      seconds.toNat % 60 < 4) := by
  constructor
  · exact timersAgree_iff ac
  · rw [secondsAgree_iff, clock_Seconds_produced before seconds later others]
    omega

/-- Cleared storage has agreeing timers; three seconds past a minute, and a later minute
call, the printed seconds agree. -/
theorem timer_report_iff_cleared :
    Prints ⟨zeroFilled⟩ (TimersAgree ⟨zeroFilled⟩) ∧
      Prints (applyAll ⟨zeroFilled⟩ [.setClockSeconds 63, .setClockMinutes 5])
        (SecondsAgree 63) := by
  have report := timer_report_iff ⟨zeroFilled⟩ ⟨zeroFilled⟩ 63 [.setClockMinutes 5]
    fun call member => by
      rw [List.mem_singleton.mp member]
      rfl
  exact ⟨report.1.mpr (by decide), report.2.mpr (by decide)⟩

/-- An on-timer at one minute is printed as zero, and fifteen seconds past the minute are
printed as four. -/
theorem timer_report_disagrees :
    ¬ Prints ⟨writeField .timer_Enable_Minutes_LSB 1 zeroFilled⟩
        (TimersAgree ⟨writeField .timer_Enable_Minutes_LSB 1 zeroFilled⟩) ∧
      ¬ Prints (applyAll ⟨zeroFilled⟩ [.setClockSeconds 15]) (SecondsAgree 15) := by
  constructor
  · rw [timersAgree_iff]
    decide
  · rw [secondsAgree_iff]
    decide

end WhirlpoolAc.TimerReport
