import WhirlpoolAc.WireFrames

/-!
# The clock of transmitted frames

A frame should carry the local time of its own commit. The hour setter switches the
afternoon bit on and never off, so the bit remembers every earlier commit: a frame
is right exactly when the bit was clear or the hour is an afternoon hour. Over a
run, all frames are right exactly when no morning commit follows an afternoon one.

The run lemma carries the stored bit along: it is the only part of the history that
a stamped clock depends on.
-/

namespace WhirlpoolAc.CommitClock

open ByteStrings FrameLayout AirConditioner Firmware CommandRequests FieldEffects DeviceRuns
  WireFrames PartialRuns

/-- The fields a clock stamp is about. -/
def clockFields : List BitField := [.clock_Seconds, .clock_Minutes, .clock_AM_PM, .clock_Hours]

/-- A frame carries the hour and the minute of its own commit, and its clock bits
are those a fresh device would send at that time. -/
structure CarriesOwnTime (transmission : Transmission) : Prop where
  hour : carried transmission .clock_Hours + 12 * carried transmission .clock_AM_PM =
    transmission.time.tm_hour.val
  minute : carried transmission .clock_Minutes = transmission.time.tm_min.val
  independent : ∀ field ∈ clockFields, carried transmission field =
    carried (stamped transmission.time powerOn.g_whirpool) field

/-- An afternoon hour by the twenty-four hour clock. -/
def Afternoon (time : Tm) : Prop := 12 ≤ time.tm_hour.val

instance (time : Tm) : Decidable (Afternoon time) := by unfold Afternoon; infer_instance

/-- The local times of a run's commits, in order. -/
def commitTimes (name : CString) (events : List Event) : List Tm :=
  (events.filter fun event => event.request name = .commit).map Event.now

/-- Whether the stored afternoon bit is set. -/
def AfternoonStored (ac : WhirlpoolYJ1B) : Prop := ac.field .clock_AM_PM = 1

/-- After a stamp the afternoon bit is set when the hour says so or when it was set. -/
theorem afternoonStored_setClock (time : Tm) (ac : WhirlpoolYJ1B) :
    AfternoonStored (setClock time ac) ↔ Afternoon time ∨ AfternoonStored ac := by
  by_cases afternoon : 12 ≤ time.tm_hour.val <;>
    simp [AfternoonStored, Afternoon, setClock_field, afternoon]

/-- Settings leave the afternoon bit alone. -/
theorem afternoonStored_apply (setting : Setting) (ac : WhirlpoolYJ1B) :
    AfternoonStored (setting.apply ac) ↔ AfternoonStored ac := by
  have other : .clock_AM_PM ≠ target setting := by cases setting <;> exact BitField.noConfusion
  rw [AfternoonStored, apply_field, if_neg other, AfternoonStored]

/-- A fresh device has a clear afternoon bit. -/
theorem afternoonStored_powerOn : ¬ AfternoonStored powerOn.g_whirpool := by
  unfold AfternoonStored
  decide

/-- A stamped frame carries its own time exactly when the afternoon bit was not set
before a morning hour. -/
theorem carriesOwnTime_stamped (time : Tm) (ac : WhirlpoolYJ1B) :
    CarriesOwnTime (stamped time ac) ↔ (AfternoonStored ac → Afternoon time) := by
  have bit : ac.field .clock_AM_PM < 2 := readField_lt .clock_AM_PM ac.m_data
  have hours : carried (stamped time ac) .clock_Hours = time.tm_hour.val % 12 := by
    simp [carried_stamped, setClock_field]
  have flag : carried (stamped time ac) .clock_AM_PM =
      if 12 ≤ time.tm_hour.val then 1 else ac.field .clock_AM_PM := by
    simp [carried_stamped, setClock_field]
  unfold AfternoonStored Afternoon
  constructor
  · intro own stored
    have told : carried (stamped time ac) .clock_Hours +
        12 * carried (stamped time ac) .clock_AM_PM = time.tm_hour.val := own.hour
    rw [hours, flag] at told
    split at told <;> omega
  · intro fits
    have clear : powerOn.g_whirpool.field .clock_AM_PM = 0 := by decide
    have fresh : (if 12 ≤ time.tm_hour.val then 1 else ac.field .clock_AM_PM) =
        if 12 ≤ time.tm_hour.val then 1 else 0 := by
      split <;> omega
    constructor
    · show carried (stamped time ac) .clock_Hours + 12 * carried (stamped time ac) .clock_AM_PM =
        time.tm_hour.val
      rw [hours, flag, fresh]
      split <;> omega
    · show carried (stamped time ac) .clock_Minutes = time.tm_min.val
      simp [carried_stamped, setClock_field]
    · intro field member
      show carried (stamped time ac) field = carried (stamped time powerOn.g_whirpool) field
      simp only [clockFields, List.mem_cons, List.not_mem_nil, or_false] at member
      rcases member with rfl | rfl | rfl | rfl
      · simp [carried_stamped, setClock_field]
      · simp [carried_stamped, setClock_field]
      · rw [flag, fresh]
        simp [carried_stamped, setClock_field, clear]
      · simp [carried_stamped, setClock_field]

/-- The new frames of a run, their times, and when all of them are right: every
commit must be in the afternoon once the bit is set, by an earlier history or by a
commit of the run itself. -/
theorem run_frames (name : CString) (events : List Event) (start final : World)
    (ran : run (step name) start events = some final) :
    ∃ frames, final.transmissions = start.transmissions ++ frames ∧
      frames.map Transmission.time = commitTimes name events ∧
      ((∀ transmission ∈ frames, CarriesOwnTime transmission) ↔
        (AfternoonStored start.g_whirpool → ∀ time ∈ commitTimes name events, Afternoon time) ∧
          (commitTimes name events).Pairwise
            fun earlier later => Afternoon earlier → Afternoon later) := by
  induction events generalizing start with
  | nil =>
    cases ran
    exact ⟨[], by simp [commitTimes]⟩
  | cons event events ih =>
    obtain ⟨next, stepped, rest⟩ := (run_cons _ _ _ _ _).mp ran
    obtain ⟨accepted, rfl⟩ := step_some name start next event stepped
    obtain ⟨frames, joined, times, right⟩ := ih _ rest
    cases decided : event.request name with
    | overflow => exact absurd decided accepted
    | ignored =>
      have others : commitTimes name (event :: events) = commitTimes name events := by
        simp [commitTimes, decided]
      refine ⟨frames, ?_, ?_, ?_⟩
      · simpa [after, decided, Request.frames] using joined
      · rw [times, others]
      · simpa [after, decided, Request.change, others] using right
    | assign setting =>
      have others : commitTimes name (event :: events) = commitTimes name events := by
        simp [commitTimes, decided]
      refine ⟨frames, ?_, ?_, ?_⟩
      · simpa [after, decided, Request.frames] using joined
      · rw [times, others]
      · simpa [after, decided, Request.change, others, afternoonStored_apply] using right
    | commit =>
      have one : commitTimes name (event :: events) = event.now :: commitTimes name events := by
        simp [commitTimes, decided]
      refine ⟨stamped event.now start.g_whirpool :: frames, ?_, ?_, ?_⟩
      · simpa [after, decided, Request.frames] using joined
      · rw [List.map_cons, times, one]
        rfl
      · have tail := right
        simp only [after, decided, Request.change, afternoonStored_setClock] at tail
        rw [one, List.forall_mem_cons, carriesOwnTime_stamped, tail, List.forall_mem_cons,
          List.pairwise_cons]
        constructor
        · rintro ⟨own, throughout, sorted⟩
          refine ⟨fun stored => ⟨own stored, throughout (.inr stored)⟩, ?_, sorted⟩
          intro later member noon
          exact throughout (.inl noon) later member
        · rintro ⟨stays, behind, sorted⟩
          refine ⟨fun stored => (stays stored).1, ?_, sorted⟩
          rintro (noon | stored) later member
          · exact behind later member noon
          · exact (stays stored).2 later member

/-- In every run from power-on there is one frame for each commit, and all frames
carry their own commit's time exactly when no morning commit comes after an
afternoon one. -/
theorem frames_carry_own_time_iff (name : CString) (events : List Event) (world : World)
    (ran : run (step name) powerOn events = some world) :
    world.transmissions.map Transmission.time = commitTimes name events ∧
      ((∀ transmission ∈ world.transmissions, CarriesOwnTime transmission) ↔
        (commitTimes name events).Pairwise
          fun earlier later => Afternoon earlier → Afternoon later) := by
  obtain ⟨frames, joined, times, right⟩ := run_frames name events powerOn world ran
  have all : world.transmissions = frames := joined
  have fresh : AfternoonStored powerOn.g_whirpool →
      ∀ time ∈ commitTimes name events, Afternoon time :=
    fun stored => absurd stored afternoonStored_powerOn
  rw [all]
  exact ⟨times, right.trans (and_iff_right fresh)⟩

/-- Commits at nine in the morning, at noon and in the evening. -/
def wholeDay : List Event :=
  [.serialCommit (clock 9 5 0), .restCommit (clock 12 0 0), .serialCommit (clock 21 30 0)]

/-- Over that day all frames carry their own time. -/
theorem frames_carry_own_time_iff_wholeDay :
    ∃ world, run (step (cStr (lit "salon"))) powerOn wholeDay = some world ∧
      ∀ transmission ∈ world.transmissions, CarriesOwnTime transmission := by
  have ran := (run_some_iff (cStr (lit "salon")) powerOn _ wholeDay).mpr ⟨by decide, rfl⟩
  exact ⟨_, ran, (frames_carry_own_time_iff _ _ _ ran).2.mpr (by decide)⟩

/-- A commit at nine in the morning after one at one in the afternoon sends 21:00. -/
theorem morning_after_afternoon_stale :
    ¬ ∀ (name : CString) (events : List Event) (world : World),
      run (step name) powerOn events = some world →
        ∀ transmission ∈ world.transmissions, CarriesOwnTime transmission := by
  intro always
  have ran := (run_some_iff (cStr (lit "salon")) powerOn _
    [.serialCommit (clock 13 0 0), .serialCommit (clock 9 0 0)]).mpr ⟨by decide, rfl⟩
  have last := always _ _ _ ran _ (List.mem_append_right _ List.mem_cons_self)
  have told := last.hour
  revert told
  decide

end WhirlpoolAc.CommitClock
