import WhirlpoolAc.ByteStrings
import WhirlpoolAc.WrappingClock

/-!
# The humidity and temperature sensor

The main loop polls the sensor at a limited rate and keeps either two readings or an
error code in three optionals, which the status page turns into a document. The
abstract view is one outcome: the readings of the latest attempt or its code. The
three optionals show an outcome from construction on, so the document never takes
the value of an empty one.

The sensor library is met at its results: the return code of an attempt and what the
two getters deliver after it, as values of an arbitrary type. Writing a document as
text is a parameter, because it formats those values. The stamp of the last attempt
is a static variable of the function; the firmware has one sensor object.
-/

namespace WhirlpoolAc.HumiditySensor

open ByteStrings WrappingClock

variable {ρ : Type}

/-- `millis()`: the low 32 bits of the true time in milliseconds. -/
def millis (time : Nat) : BitVec 32 := shown 32 time

/-- The attempt succeeded. -/
def DHTLIB_OK : Int := 0

/-- The code before the first attempt. -/
def DHTLIB_WAITING_FOR_READ : Int := -8

/-- The members of a sensor, and the static stamp of `loop` once it is initialised. -/
structure DHTSensor (ρ : Type) where
  m_humidity : Option ρ
  m_temperature : Option ρ
  m_lastError : Option Int
  lastTime : Option (BitVec 32)

/-- A sensor before the first call. -/
def constructed : DHTSensor ρ := ⟨none, none, some DHTLIB_WAITING_FOR_READ, none⟩

/-- A call of `loop`: the read rate, the true times at which it samples the counter, and
what the sensor answers if the call makes an attempt. -/
structure Call (ρ : Type) extends Visit 32 where
  ret : Int
  humidity : ρ
  temperature : ρ

/-- The argument of a call. -/
def Call.readRate (call : Call ρ) : BitVec 32 := call.interval

/-- `loop`. -/
def loop (call : Call ρ) (sensor : DHTSensor ρ) : DHTSensor ρ :=
  let lastTime := sensor.lastTime.getD (millis call.entered)
  if call.readRate < millis call.checked - lastTime then
    let cleared : DHTSensor ρ := ⟨none, none, none, some (millis call.recorded)⟩
    if call.ret = DHTLIB_OK then
      { cleared with m_humidity := some call.humidity, m_temperature := some call.temperature }
    else { cleared with m_lastError := some call.ret }
  else { sensor with lastTime := some lastTime }

/-- Values of the sensor's document. -/
inductive Member (ρ : Type) where
  | flag (value : Bool)
  | reading (value : ρ)
  | code (value : Int)
deriving DecidableEq

/-- The members of a document in order. -/
abbrev Document (ρ : Type) := List (Bytes × Member ρ)

/-- The document that `getJson` fills. There is none when an empty optional would be
dereferenced. -/
def document (sensor : DHTSensor ρ) : Option (Document ρ) :=
  let valid : Document ρ := [(lit "valid", .flag (!sensor.m_lastError.isSome))]
  match sensor.m_lastError with
  | none => do
      let humidity ← sensor.m_humidity
      let temperature ← sensor.m_temperature
      pure (valid ++ [(lit "humidity", .reading humidity),
        (lit "temperature", .reading temperature)])
  | some error => pure (valid ++ [(lit "error", .code error)])

/-- `getJson`, for a serializer of documents. -/
def getJson (serializeJson : Document ρ → Bytes) (sensor : DHTSensor ρ) : Option Bytes :=
  (document sensor).map serializeJson

/-- The sensor after a sequence of calls. -/
def run (sensor : DHTSensor ρ) (calls : List (Call ρ)) : DHTSensor ρ :=
  calls.foldl (fun sensor call => loop call sensor) sensor

/-- A call reads the sensor. -/
def Attempts (sensor : DHTSensor ρ) (call : Call ρ) : Prop := Opens sensor.lastTime call.toVisit

instance (sensor : DHTSensor ρ) (call : Call ρ) : Decidable (Attempts sensor call) :=
  inferInstanceAs (Decidable (Opens _ _))

/-- The calls of a sequence that read the sensor, in order. -/
def attempts : DHTSensor ρ → List (Call ρ) → List (Call ρ)
  | _, [] => []
  | sensor, call :: rest =>
      if Attempts sensor call then call :: attempts (loop call sensor) rest
      else attempts (loop call sensor) rest

/-- What is known of the air: two readings, or why there are none. -/
inductive Outcome (ρ : Type) where
  | reading (humidity temperature : ρ)
  | failure (code : Int)

/-- What an attempt learns. -/
def Call.outcome (call : Call ρ) : Outcome ρ :=
  if call.ret = DHTLIB_OK then .reading call.humidity call.temperature else .failure call.ret

/-- The outcome of the latest attempt, if there was one. -/
def latest (before : Outcome ρ) (attempted : List (Call ρ)) : Outcome ρ :=
  attempted.foldl (fun _ call => call.outcome) before

/-- The document that tells an outcome. -/
def Outcome.report : Outcome ρ → Document ρ
  | .reading humidity temperature => [(lit "valid", .flag true),
      (lit "humidity", .reading humidity), (lit "temperature", .reading temperature)]
  | .failure code => [(lit "valid", .flag false), (lit "error", .code code)]

/-- The three optionals show an outcome: both readings and no code, or the other way. -/
def Shows (sensor : DHTSensor ρ) : Outcome ρ → Prop
  | .reading humidity temperature => sensor.m_humidity = some humidity ∧
      sensor.m_temperature = some temperature ∧ sensor.m_lastError = none
  | .failure code => sensor.m_humidity = none ∧ sensor.m_temperature = none ∧
      sensor.m_lastError = some code

/-- A sensor that shows an outcome has no error exactly when it has both readings. -/
theorem Shows.consistent (sensor : DHTSensor ρ) (outcome : Outcome ρ)
    (shows : Shows sensor outcome) :
    sensor.m_lastError = none ↔ sensor.m_humidity.isSome ∧ sensor.m_temperature.isSome := by
  cases outcome with
  | reading humidity temperature =>
    obtain ⟨humid, warm, clear⟩ := shows
    simp [humid, warm, clear]
  | failure code =>
    obtain ⟨dry, cold, error⟩ := shows
    simp [dry, cold, error]

/-- The document of a sensor tells the outcome that the sensor shows. -/
theorem Shows.document (sensor : DHTSensor ρ) (outcome : Outcome ρ)
    (shows : Shows sensor outcome) : document sensor = some outcome.report := by
  cases outcome with
  | reading humidity temperature =>
    obtain ⟨humid, warm, clear⟩ := shows
    simp [HumiditySensor.document, Outcome.report, humid, warm, clear]
  | failure code =>
    obtain ⟨_, _, error⟩ := shows
    simp [HumiditySensor.document, Outcome.report, error]

/-- An attempt replaces what the sensor shows. -/
theorem loop_attempt (call : Call ρ) (sensor : DHTSensor ρ) (attempting : Attempts sensor call) :
    Shows (loop call sensor) call.outcome := by
  have passed : call.readRate < millis call.checked -
      sensor.lastTime.getD (millis call.entered) := attempting
  by_cases succeeded : call.ret = DHTLIB_OK
  · simp [loop, Call.outcome, Shows, passed, succeeded]
  · simp [loop, Call.outcome, Shows, passed, succeeded]

/-- A call that makes no attempt only initialises the stamp. -/
theorem loop_idle (call : Call ρ) (sensor : DHTSensor ρ) (idle : ¬ Attempts sensor call) :
    loop call sensor =
      { sensor with lastTime := some (sensor.lastTime.getD (millis call.entered)) } := by
  have blocked : ¬ call.readRate < millis call.checked -
      sensor.lastTime.getD (millis call.entered) := idle
  simp [loop, blocked]

/-- The stamp of the sensor is the stamp of a rate gate. -/
theorem loop_lastTime (call : Call ρ) (sensor : DHTSensor ρ) :
    (loop call sensor).lastTime = restamp sensor.lastTime call.toVisit := by
  by_cases attempting : Attempts sensor call
  · have passed : call.readRate < millis call.checked -
        sensor.lastTime.getD (millis call.entered) := attempting
    have stamped : restamp sensor.lastTime call.toVisit = some (millis call.recorded) :=
      if_pos attempting
    rw [stamped]
    by_cases succeeded : call.ret = DHTLIB_OK
    · simp [loop, passed, succeeded]
    · simp [loop, passed, succeeded]
  · have kept : restamp sensor.lastTime call.toVisit =
        some (sensor.lastTime.getD (millis call.entered)) := if_neg attempting
    rw [loop_idle call sensor attempting, kept]

/-- The attempts of a sequence are the visits that pass the gate. -/
theorem attempts_visits (sensor : DHTSensor ρ) (calls : List (Call ρ)) :
    (attempts sensor calls).map Call.toVisit =
      passing sensor.lastTime (calls.map Call.toVisit) := by
  induction calls generalizing sensor with
  | nil => rfl
  | cons call rest ih =>
    have later := ih (loop call sensor)
    rw [loop_lastTime] at later
    by_cases attempting : Attempts sensor call
    · have opened : Opens sensor.lastTime call.toVisit := attempting
      rw [attempts, if_pos attempting, List.map_cons, List.map_cons, passing, if_pos opened, later]
    · have shut : ¬ Opens sensor.lastTime call.toVisit := attempting
      rw [attempts, if_neg attempting, List.map_cons, passing, if_neg shut, later]

/-- A sequence of calls leaves the sensor showing the outcome of its latest attempt. -/
theorem run_shows (sensor : DHTSensor ρ) (calls : List (Call ρ)) (before : Outcome ρ)
    (shows : Shows sensor before) :
    Shows (run sensor calls) (latest before (attempts sensor calls)) := by
  induction calls generalizing sensor before with
  | nil => exact shows
  | cons call rest ih =>
    by_cases attempting : Attempts sensor call
    · have later := ih (loop call sensor) call.outcome (loop_attempt call sensor attempting)
      rw [attempts, if_pos attempting]
      exact later
    · have same : Shows (loop call sensor) before := by
        rw [loop_idle call sensor attempting]
        cases before with
        | reading humidity temperature => exact shows
        | failure code => exact shows
      have later := ih (loop call sensor) before same
      rw [attempts, if_neg attempting]
      exact later

/-- A sensor under construction shows that it waits for its first attempt. -/
theorem constructed_shows :
    Shows (constructed : DHTSensor ρ) (.failure DHTLIB_WAITING_FOR_READ) := ⟨rfl, rfl, rfl⟩

/-- Successive attempts of a sequence are further apart than the read rate of the later. -/
theorem attempts_apart (calls : List (Call ρ)) (now : Nat)
    (ordered : Chronological now (calls.map Call.toVisit)) :
    (attempts constructed calls).IsChain fun earlier later =>
      earlier.recorded + later.readRate.toNat < later.recorded := by
  have apart := passing_apart now (calls.map Call.toVisit) ordered
  have visits : (attempts constructed calls).map Call.toVisit =
      passing none (calls.map Call.toVisit) := attempts_visits constructed calls
  rw [← visits, List.isChain_map] at apart
  exact apart

/-- The latest attempt of a sequence decides its outcome. -/
theorem latest_last (before : Outcome ρ) (attempted : List (Call ρ)) (call : Call ρ)
    (last : attempted.getLast? = some call) : latest before attempted = call.outcome := by
  obtain ⟨earlier, shape⟩ := List.getLast?_eq_some_iff.mp last
  rw [shape, latest, List.foldl_append]
  rfl

/-- An outcome's report is the one of two readings exactly when the attempt succeeded. -/
theorem outcome_report_iff (call : Call ρ) :
    call.outcome.report = (Outcome.reading call.humidity call.temperature).report ↔
      call.ret = DHTLIB_OK := by
  by_cases succeeded : call.ret = DHTLIB_OK
  · simp [Call.outcome, succeeded]
  · simp [Call.outcome, Outcome.report, succeeded]

/-- The document after a sequence of calls tells the outcome of the latest attempt. -/
theorem run_document (calls : List (Call ρ)) (call : Call ρ)
    (last : (attempts constructed calls).getLast? = some call) :
    document (run constructed calls) = some call.outcome.report := by
  rw [(run_shows constructed calls _ constructed_shows).document, latest_last _ _ call last]

/-- So does its text. -/
theorem run_getJson (calls : List (Call ρ)) (serializeJson : Document ρ → Bytes) (call : Call ρ)
    (last : (attempts constructed calls).getLast? = some call) :
    getJson serializeJson (run constructed calls) = some (serializeJson call.outcome.report) := by
  rw [getJson, run_document calls call last]
  rfl

/-- After every sequence of calls in the order of true time, the sensor has no error
exactly when it has both readings and its document exists. Once there was an attempt,
the document tells the readings of the latest one exactly when that succeeded, and its
code otherwise, and `getJson` writes that document; if documents have different texts,
it writes that of the readings exactly when the attempt succeeded. Successive attempts
are recorded truly more than the read rate apart. -/
theorem sensor_snapshots (calls : List (Call ρ)) (serializeJson : Document ρ → Bytes)
    (ordered : Chronological 0 (calls.map Call.toVisit)) :
    ((run constructed calls).m_lastError = none ↔
      (run constructed calls).m_humidity.isSome ∧ (run constructed calls).m_temperature.isSome) ∧
    (getJson serializeJson (run constructed calls)).isSome ∧
    (∀ call, (attempts constructed calls).getLast? = some call →
      (document (run constructed calls) =
          some (Outcome.reading call.humidity call.temperature).report ↔ call.ret = DHTLIB_OK) ∧
      (call.ret ≠ DHTLIB_OK →
        document (run constructed calls) = some (Outcome.failure call.ret).report) ∧
      (call.ret = DHTLIB_OK → getJson serializeJson (run constructed calls) =
        some (serializeJson (Outcome.reading call.humidity call.temperature).report)) ∧
      (call.ret ≠ DHTLIB_OK → getJson serializeJson (run constructed calls) =
        some (serializeJson (Outcome.failure call.ret).report)) ∧
      (Function.Injective serializeJson → (getJson serializeJson (run constructed calls) =
          some (serializeJson (Outcome.reading call.humidity call.temperature).report) ↔
        call.ret = DHTLIB_OK))) ∧
    (attempts constructed calls).IsChain fun earlier later =>
      earlier.recorded + later.readRate.toNat < later.recorded := by
  have shows := run_shows constructed calls _ constructed_shows
  have success (call : Call ρ) (succeeded : call.ret = DHTLIB_OK) :
      call.outcome = .reading call.humidity call.temperature := if_pos succeeded
  have failure (call : Call ρ) (failed : call.ret ≠ DHTLIB_OK) :
      call.outcome = .failure call.ret := if_neg failed
  refine ⟨shows.consistent, ?_, ?_, attempts_apart calls 0 ordered⟩
  · rw [getJson, shows.document]
    rfl
  · intro call last
    rw [run_document calls call last, run_getJson calls serializeJson call last]
    refine ⟨?_, ?_, ?_, ?_, ?_⟩
    · rw [Option.some.injEq]
      exact outcome_report_iff call
    · intro failed
      rw [failure call failed]
    · intro succeeded
      rw [success call succeeded]
    · intro failed
      rw [failure call failed]
    · intro injective
      rw [Option.some.injEq, injective.eq_iff]
      exact outcome_report_iff call

/-- Three calls around a wrap of the counter: the first only takes a stamp, the second
reads the sensor, the third fails to. -/
def aroundWrap : List (Call Nat) :=
  [{ interval := 10, entered := 4294967290, checked := 4294967290, recorded := 4294967290,
     checked_after := by decide, recorded_after := by decide, ret := 0, humidity := 0,
     temperature := 0 },
   { interval := 10, entered := 4294967300, checked := 4294967301, recorded := 4294967302,
     checked_after := by decide, recorded_after := by decide, ret := 0, humidity := 41,
     temperature := 23 },
   { interval := 10, entered := 4294967313, checked := 4294967313, recorded := 4294967313,
     checked_after := by decide, recorded_after := by decide, ret := -2, humidity := 41,
     temperature := 23 }]

/-- These calls are in order, two of them are attempts, and the second one's code is told. -/
theorem sensor_snapshots_aroundWrap :
    Chronological 0 (aroundWrap.map Call.toVisit) ∧
      ((attempts constructed aroundWrap).map fun call => call.recorded) =
        [4294967302, 4294967313] ∧
      document (run constructed aroundWrap) = some (Outcome.failure (-2)).report ∧
      (attempts constructed aroundWrap).IsChain fun earlier later =>
        earlier.recorded + later.readRate.toNat < later.recorded := by
  have ordered : Chronological 0 (aroundWrap.map Call.toVisit) :=
    ⟨by decide, by decide, by decide, trivial⟩
  obtain ⟨_, _, _, apart⟩ := sensor_snapshots aroundWrap (fun _ => []) ordered
  exact ⟨ordered, by decide, by decide, apart⟩

end WhirlpoolAc.HumiditySensor
