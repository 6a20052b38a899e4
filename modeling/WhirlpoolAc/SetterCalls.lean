import WhirlpoolAc.FieldEffects
import WhirlpoolAc.PackedWrites

/-!
# Sequences of setter calls

Every public setter assigns bit-fields with values that depend on its argument alone,
so a sequence of calls is a sequence of writes to disjoint places. Each raw bit then
comes from the last call that assigns the field owning it. The hour setter is the only
one that may assign two fields.
-/

namespace WhirlpoolAc.SetterCalls

open FrameLayout PackedFields PackedWrites AirConditioner FieldEffects

/-- A call of a public setter. A mode or a fan speed is any byte, since the enumerations
have an underlying type of eight bits. -/
inductive SetterCall where
  | setMode (mode : UInt8)
  | setPower (power : Bool)
  | setFan (fan : UInt8)
  | setSwing (swing : Bool)
  | setSleep (sleep : Bool)
  | setJet (jet : Bool)
  | setLight (light : Bool)
  | setTemperatureRaw (temp : UInt8)
  | setTemperature (temp : UInt8)
  | setClockAMPMOf (amPm : AM_PM)
  | setClockAMPM (pm : Bool)
  | setClockSeconds (seconds : UInt8)
  | setClockMinutes (minutes : UInt8)
  | setClockHours (hours : UInt8)
deriving DecidableEq

/-- The object after a call. -/
def SetterCall.apply (ac : WhirlpoolYJ1B) : SetterCall → WhirlpoolYJ1B
  | setMode mode => ac.setMode mode
  | setPower power => ac.setPower power
  | setFan fan => ac.setFan fan
  | setSwing swing => ac.setSwing swing
  | setSleep sleep => ac.setSleep sleep
  | setJet jet => ac.setJet jet
  | setLight light => ac.setLight light
  | setTemperatureRaw temp => ac.setTemperatureRaw temp
  | setTemperature temp => ac.setTemperature temp
  | setClockAMPMOf amPm => ac.setClockAMPMOf amPm
  | setClockAMPM pm => ac.setClockAMPM pm
  | setClockSeconds seconds => ac.setClockSeconds seconds
  | setClockMinutes minutes => ac.setClockMinutes minutes
  | setClockHours hours => ac.setClockHours hours

/-- The object after a sequence of calls. -/
def applyAll (ac : WhirlpoolYJ1B) (calls : List SetterCall) : WhirlpoolYJ1B :=
  calls.foldl SetterCall.apply ac

/-- The assignments a call makes in effect, whatever the object holds. -/
def SetterCall.writes : SetterCall → List (BitField × Nat)
  | setMode mode => [(.mode, mode.toNat)]
  | setPower power => [(.power, power.toNat)]
  | setFan fan => [(.fan, fan.toNat)]
  | setSwing swing => [(.swing, swing.toNat)]
  | setSleep sleep => [(.sleep, sleep.toNat)]
  | setJet jet => [(.jet, jet.toNat)]
  | setLight light => [(.light, light.toNat)]
  | setTemperatureRaw temp => [(.temperature, min 14 temp.toNat)]
  | setTemperature temp => [(.temperature, setpoint temp.toNat - 16)]
  | setClockAMPMOf amPm => [(.clock_AM_PM, amPm.tounderlying.toNat)]
  | setClockAMPM pm => [(.clock_AM_PM, pm.toNat)]
  | setClockSeconds seconds => [(.clock_Seconds, seconds.toNat % 60 / 15)]
  | setClockMinutes minutes => [(.clock_Minutes, minutes.toNat % 60)]
  | setClockHours hours =>
      (.clock_Hours, hours.toNat % 12) ::
        if hours.toNat ≥ 12 then [(.clock_AM_PM, 1)] else []

/-- The value a call assigns to a field, if it assigns the field. -/
def SetterCall.assigned (call : SetterCall) (field : BitField) : Option Nat :=
  lastValue field call.writes

/-- A call writes its assignments in order. -/
theorem apply_writes (call : SetterCall) (ac : WhirlpoolYJ1B) :
    (call.apply ac).m_data = perform BitField.place call.writes ac.m_data := by
  cases call with
  | setMode mode => exact congrArg WhirlpoolYJ1B.m_data (setMode_eq mode ac)
  | setTemperatureRaw temp =>
    have least : (if temp.toNat > 14 then 14 else temp.toNat) = min 14 temp.toNat := by
      split <;> omega
    simp only [SetterCall.apply, WhirlpoolYJ1B.setTemperatureRaw, least]
    rfl
  | setTemperature temp => exact congrArg WhirlpoolYJ1B.m_data (setTemperature_eq temp ac)
  | setClockHours hours =>
    simp only [SetterCall.apply, SetterCall.writes, WhirlpoolYJ1B.setClockHours]
    by_cases afternoon : hours.toNat ≥ 12
    · simp only [afternoon, if_true]
      rfl
    · simp only [afternoon, if_false]
      rfl
  | _ => rfl

/-- The value of a field after a call is the assigned one, truncated, if there is one. -/
theorem apply_assigned (call : SetterCall) (ac : WhirlpoolYJ1B) (field : BitField) :
    (call.apply ac).field field =
      match call.assigned field with
      | some value => value % 2 ^ field.size
      | none => ac.field field := by
  rw [WhirlpoolYJ1B.field, readField, apply_writes]
  exact perform_read BitField.place place_disjoint call.writes ac.m_data field

/-- A sequence of calls writes all their assignments in order. -/
theorem applyAll_writes (calls : List SetterCall) (ac : WhirlpoolYJ1B) :
    (applyAll ac calls).m_data =
      perform BitField.place (calls.flatMap SetterCall.writes) ac.m_data := by
  induction calls generalizing ac with
  | nil => rfl
  | cons call rest ih =>
    have later := ih (call.apply ac)
    rw [apply_writes, ← perform_append] at later
    exact later

/-- What every call of a sequence preserves, the sequence preserves. -/
theorem applyAll_invariant (invariant : WhirlpoolYJ1B → Prop) (calls : List SetterCall)
    (kept : ∀ call ∈ calls, ∀ ac, invariant ac → invariant (call.apply ac))
    (ac : WhirlpoolYJ1B) (start : invariant ac) : invariant (applyAll ac calls) := by
  induction calls generalizing ac with
  | nil => exact start
  | cons call rest ih =>
    obtain ⟨first, others⟩ := List.forall_mem_cons.mp kept
    exact ih others (call.apply ac) (first ac start)

/-- Sequences of calls compose. -/
theorem applyAll_append (first second : List SetterCall) (ac : WhirlpoolYJ1B) :
    applyAll ac (first ++ second) = applyAll (applyAll ac first) second :=
  List.foldl_append

/-- The value of a field after a sequence of calls is the one assigned last. -/
theorem applyAll_field (calls : List SetterCall) (ac : WhirlpoolYJ1B) (field : BitField) :
    (applyAll ac calls).field field =
      match lastValue field (calls.flatMap SetterCall.writes) with
      | some value => value % 2 ^ field.size
      | none => ac.field field := by
  rw [WhirlpoolYJ1B.field, readField, applyAll_writes]
  exact perform_read BitField.place place_disjoint _ _ field

/-- Calls that do not assign a field leave no last value for it. -/
theorem unassigned_lastValue (field : BitField) (calls : List SetterCall)
    (unassigned : ∀ call ∈ calls, call.assigned field = none) :
    lastValue field (calls.flatMap SetterCall.writes) = none := by
  induction calls with
  | nil => rfl
  | cons call rest ih =>
    obtain ⟨first, others⟩ := List.forall_mem_cons.mp unassigned
    have here : lastValue field call.writes = none := first
    rw [List.flatMap_cons, lastValue_append, ih others, here]
    rfl

/-- The last call on a field gives its last value. -/
theorem last_assigned (field : BitField) (before after : List SetterCall) (call : SetterCall)
    (value : Nat) (assigns : call.assigned field = some value)
    (last : ∀ later ∈ after, later.assigned field = none) :
    lastValue field ((before ++ call :: after).flatMap SetterCall.writes) = some value := by
  have here : lastValue field call.writes = some value := assigns
  rw [List.flatMap_append, List.flatMap_cons, lastValue_append, lastValue_append,
    unassigned_lastValue field after last, here]
  rfl

/-- Only the calls on a field matter for its last value. -/
theorem lastValue_filter (field : BitField) (calls : List SetterCall) :
    lastValue field (calls.flatMap SetterCall.writes) =
      lastValue field
        ((calls.filter fun call => (call.assigned field).isSome).flatMap SetterCall.writes) := by
  induction calls with
  | nil => rfl
  | cons call rest ih =>
    cases assigns : call.assigned field with
    | none =>
      have here : lastValue field call.writes = none := assigns
      rw [List.flatMap_cons, lastValue_append, here, Option.or_none, ih,
        List.filter_cons_of_neg (by simp [assigns])]
    | some value =>
      rw [List.filter_cons_of_pos (by simp [assigns]), List.flatMap_cons, List.flatMap_cons,
        lastValue_append, lastValue_append, ih]

/-- Calls without a common field commute. -/
theorem apply_comm (first second : SetterCall) (ac : WhirlpoolYJ1B)
    (separate : ∀ field, first.assigned field = none ∨ second.assigned field = none) :
    second.apply (first.apply ac) = first.apply (second.apply ac) := by
  rw [WhirlpoolYJ1B.mk.injEq, apply_writes, apply_writes, apply_writes, apply_writes]
  apply perform_comm BitField.place place_disjoint
  intro entry member other otherMember same
  rcases separate entry.1 with absent | absent
  · exact (lastValue_none_iff entry.1 first.writes).mp absent entry member rfl
  · exact (lastValue_none_iff entry.1 second.writes).mp absent other otherMember same.symm

/-- Sequences with the same calls on every field, in the same order for each field,
build the same nine bytes. -/
theorem applyAll_congr (calls others : List SetterCall) (ac : WhirlpoolYJ1B)
    (same : ∀ field, (calls.filter fun call => (call.assigned field).isSome) =
      others.filter fun call => (call.assigned field).isSome) :
    applyAll ac calls = applyAll ac others := by
  rw [WhirlpoolYJ1B.mk.injEq, applyAll_writes, applyAll_writes]
  apply perform_congr BitField.place place_disjoint
  intro field
  rw [lastValue_filter field calls, lastValue_filter field others, same field]

/-- For every content of the nine bytes: the bits of a field come from the last call that
assigns it, and a bit whose owner no call assigns keeps its value. Hence calls on
different fields commute, and reordering calls without changing the order of those on
one field builds the same bytes. -/
theorem setters_last_writer (ac : WhirlpoolYJ1B) :
    (∀ before call after field value byte index, call.assigned field = some value →
      (∀ later ∈ after, SetterCall.assigned later field = none) →
      Owns field.place byte index →
      wordBit (applyAll ac (before ++ call :: after)).m_data byte index =
        value.testBit (index - field.place.low)) ∧
    (∀ calls byte index,
      (∀ call ∈ calls, ∀ field, Owns field.place byte index →
        SetterCall.assigned call field = none) →
      wordBit (applyAll ac calls).m_data byte index = wordBit ac.m_data byte index) ∧
    (∀ first second : SetterCall,
      (∀ field, first.assigned field = none ∨ second.assigned field = none) →
      second.apply (first.apply ac) = first.apply (second.apply ac)) ∧
    ∀ calls others,
      (∀ field, (calls.filter fun call => (SetterCall.assigned call field).isSome) =
        others.filter fun call => (SetterCall.assigned call field).isSome) →
      applyAll ac calls = applyAll ac others := by
  refine ⟨?_, ?_, fun first second => apply_comm first second ac,
    fun calls others => applyAll_congr calls others ac⟩
  · intro before call after field value byte index assigns last owned
    rw [applyAll_writes, perform_bit BitField.place place_disjoint _ _ field byte index owned,
      last_assigned field before after call value assigns last]
  · intro calls byte index untouched
    rw [applyAll_writes]
    apply perform_unowned
    intro entry member owned
    obtain ⟨call, called, wrote⟩ := List.mem_flatMap.mp member
    exact (lastValue_none_iff entry.1 call.writes).mp (untouched call called entry.1 owned)
      entry wrote rfl

/-- Two mode calls around a fan call, on nine full bytes: bit 1 of the mode comes from the
second mode call, and the fan call commutes with it. -/
theorem setters_last_writer_modes :
    let full : WhirlpoolYJ1B := ⟨Vector.replicate 9 (BitVec.allOnes 8)⟩
    wordBit (applyAll full [.setMode 2, .setFan 1, .setMode 4]).m_data 0 1 = false ∧
      wordBit (applyAll full [.setMode 2, .setFan 1, .setMode 4]).m_data 0 3 = true ∧
      (SetterCall.setMode 4).apply ((SetterCall.setFan 1).apply full) =
        (SetterCall.setFan 1).apply ((SetterCall.setMode 4).apply full) ∧
      applyAll full [.setFan 1, .setMode 4] = applyAll full [.setMode 4, .setFan 1] := by
  intro full
  obtain ⟨lastCall, untouched, commute, reorder⟩ := setters_last_writer full
  refine ⟨?_, ?_, ?_, ?_⟩
  · exact lastCall [.setMode 2, .setFan 1] (.setMode 4) [] .mode 4 0 1 rfl (by simp) (by decide)
  · have quiet : ∀ call ∈ [SetterCall.setMode 2, .setFan 1, .setMode 4],
        call.assigned .power = none := by decide
    have kept := untouched [.setMode 2, .setFan 1, .setMode 4] 0 3 (by
      intro call member field owned
      have owner : field = .power := by
        revert owned
        cases field <;> decide
      rw [owner]
      exact quiet call member)
    exact kept.trans (by decide)
  · apply commute
    intro field
    cases field <;> decide
  · apply reorder
    intro field
    cases field <;> decide

end WhirlpoolAc.SetterCalls
