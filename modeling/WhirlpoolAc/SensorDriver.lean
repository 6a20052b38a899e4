import WhirlpoolAc.SensorWire

/-!
# The sensor driver

The driver finds out by itself which kind of sensor it has: as long as it does not know, it
tries one kind and then the other, and the kind of the first success is kept for good. A
known sensor is not asked again before its delay is over. The five bytes are turned into
two readings, and the last byte has to be the sum of the others.

The arithmetic of the readings is a parameter: three expressions of the code and two
constants. No caller sets an offset or lets the driver wait, so both are left out.
-/

namespace WhirlpoolAc.SensorDriver

open WrappingClock PolledLine HumiditySensor SensorWire

variable {ρ : Type}

/-- The five bytes do not add up. -/
def DHTLIB_ERROR_CHECKSUM : Int := -1

/-- How long the older kind is woken up, in milliseconds. -/
def DHTLIB_DHT11_WAKEUP : Nat := 18

/-- How long the other kinds are woken up. -/
def DHTLIB_DHT_WAKEUP : Nat := 1

/-- The pause between two readings of the older kind, in milliseconds. -/
def DHTLIB_DHT11_READ_DELAY : Nat := 1000

/-- The pause for the newer kind. -/
def DHTLIB_DHT22_READ_DELAY : Nat := 2000

/-- The floating-point expressions of the driver: a number of tenths, a whole number and
tenths, a change of sign, and what stands for no reading. -/
structure Arithmetic (ρ : Type) where
  tenths : Nat → ρ
  mixed : Nat → Nat → ρ
  neg : ρ → ρ
  zero : ρ
  invalid : ρ

/-- The members of the driver that a reading uses. -/
structure DHTNEW (ρ : Type) where
  wakeupDelay : Nat
  type : Nat
  humidity : ρ
  temperature : ρ
  lastRead : BitVec 32
  suppressError : Bool
  readDelay : Nat
  bits : Buffer

/-- `reset`. -/
def reset (zero : ρ) (bits : Buffer) : DHTNEW ρ where
  wakeupDelay := 0
  type := 0
  humidity := zero
  temperature := zero
  lastRead := 0
  suppressError := false
  readDelay := 0
  bits := bits

/-- What one `_readSensor` comes back with, and the true time in milliseconds behind it. -/
structure Answer where
  rv : Int
  bits : Buffer
  finished : Nat

/-- The readings in the five bytes, by the kind of the sensor. -/
def convert (ops : Arithmetic ρ) (type : Nat) (bits : Buffer) : ρ × ρ :=
  if type = 22 then
    let t := ((bits.get 2).toNat &&& 0x7F) * 256 + (bits.get 3).toNat
    (ops.tenths ((bits.get 0).toNat * 256 + (bits.get 1).toNat),
      if t = 0 then ops.zero
      else if bits.get 2 &&& 0x80 = 0x80 then ops.neg (ops.tenths t)
      else ops.tenths t)
  else
    (ops.mixed (bits.get 0).toNat (bits.get 1).toNat,
      ops.mixed (bits.get 2).toNat (bits.get 3).toNat)

/-- `_read`. -/
def readValues (ops : Arithmetic ρ) (answer : Answer) (sensor : DHTNEW ρ) : Int × DHTNEW ρ :=
  let sensor := { sensor with bits := answer.bits, lastRead := millis answer.finished }
  if answer.rv ≠ DHTLIB_OK then
    (answer.rv,
      if sensor.suppressError = false then
        { sensor with humidity := ops.invalid, temperature := ops.invalid }
      else sensor)
  else
    let bits := sensor.bits
    let sensor :=
      { sensor with
        humidity := (convert ops sensor.type bits).1
        temperature := (convert ops sensor.type bits).2 }
    if bits.get 4 ≠ bits.get 0 + bits.get 1 + bits.get 2 + bits.get 3 then
      (DHTLIB_ERROR_CHECKSUM, sensor)
    else (DHTLIB_OK, sensor)

/-- The first lines of `read`: a delay that has not been set is that of the data sheet. -/
def chooseDelay (sensor : DHTNEW ρ) : DHTNEW ρ :=
  if sensor.readDelay = 0 then
    { sensor with
      readDelay :=
        if sensor.type = 11 then DHTLIB_DHT11_READ_DELAY else DHTLIB_DHT22_READ_DELAY }
  else sensor

/-- The last lines of `read`: both kinds of sensors are tried. -/
def detect (ops : Arithmetic ρ) (first second : Answer) (sensor : DHTNEW ρ) : Int × DHTNEW ρ :=
  let (rv, sensor) :=
    readValues ops first { sensor with type := 22, wakeupDelay := DHTLIB_DHT_WAKEUP }
  if rv = DHTLIB_OK then (rv, sensor)
  else
    let (rv, sensor) :=
      readValues ops second { sensor with type := 11, wakeupDelay := DHTLIB_DHT11_WAKEUP }
    if rv = DHTLIB_OK then (rv, sensor) else (rv, { sensor with type := 0 })

/-- `read`, asked at a true time, with what up to two attempts come back with. -/
def read (ops : Arithmetic ρ) (asked : Nat) (first second : Answer) (sensor : DHTNEW ρ) :
    Int × DHTNEW ρ :=
  let sensor := chooseDelay sensor
  if sensor.type ≠ 0 then
    if (millis asked - sensor.lastRead).toNat < sensor.readDelay then
      (DHTLIB_WAITING_FOR_READ, sensor)
    else readValues ops first sensor
  else detect ops first second sensor

/-- A turn of the main loop at the sensor: the visit to the rate gate, and what happens when
the sensor is read. -/
structure Poll extends Visit 32 where
  asked : Nat
  first : Answer
  second : Answer

/-- The sensor object with its driver. -/
structure Station (ρ : Type) where
  sensor : DHTSensor ρ
  driver : DHTNEW ρ

/-- The call of `loop` in a turn: its readings are those of the driver. -/
def Poll.call (ops : Arithmetic ρ) (driver : DHTNEW ρ) (poll : Poll) : Call ρ where
  toVisit := poll.toVisit
  ret := (read ops poll.asked poll.first poll.second driver).1
  humidity := (read ops poll.asked poll.first poll.second driver).2.humidity
  temperature := (read ops poll.asked poll.first poll.second driver).2.temperature

/-- One turn. The driver is asked when the gate opens. -/
def Station.turn (ops : Arithmetic ρ) (station : Station ρ) (poll : Poll) : Station ρ where
  sensor := loop (poll.call ops station.driver) station.sensor
  driver :=
    if Opens station.sensor.lastTime poll.toVisit then
      (read ops poll.asked poll.first poll.second station.driver).2
    else station.driver

/-- Turns one after the other. -/
def Station.turns (ops : Arithmetic ρ) (station : Station ρ) (polls : List Poll) : Station ρ :=
  polls.foldl (Station.turn ops) station

/-- Five bytes that a success can come from: the last one is the sum of the others, and the
highest bit of the first one is clear. -/
structure Genuine (bits : Buffer) : Prop where
  sum : bits.get 4 = bits.get 0 + bits.get 1 + bits.get 2 + bits.get 3
  top : bits.get 0 &&& 0x80 = 0

/-- What an attempt does to the driver: it keeps the kind, takes a stamp and, when it
succeeds, has the readings of genuine bytes. -/
theorem readValues_spec (ops : Arithmetic ρ) (answer : Answer) (sensor : DHTNEW ρ)
    (sensible : Sensible answer.rv answer.bits) :
    (readValues ops answer sensor).2.type = sensor.type ∧
      (readValues ops answer sensor).2.readDelay = sensor.readDelay ∧
      (readValues ops answer sensor).2.lastRead = millis answer.finished ∧
      (readValues ops answer sensor).1 ∈ DHTLIB_ERROR_CHECKSUM :: codes ∧
      ((readValues ops answer sensor).1 = DHTLIB_OK →
        Genuine answer.bits ∧
          (readValues ops answer sensor).2.humidity = (convert ops sensor.type answer.bits).1 ∧
          (readValues ops answer sensor).2.temperature =
            (convert ops sensor.type answer.bits).2) := by
  obtain ⟨code, top⟩ := sensible
  unfold readValues
  by_cases failed : answer.rv ≠ DHTLIB_OK
  · simp only [if_pos failed]
    refine ⟨?_, ?_, ?_, List.mem_cons_of_mem _ code, fun same => absurd same failed⟩
    · split <;> rfl
    · split <;> rfl
    · split <;> rfl
  · simp only [if_neg failed]
    by_cases wrong : answer.bits.get 4 ≠
        answer.bits.get 0 + answer.bits.get 1 + answer.bits.get 2 + answer.bits.get 3
    · simp only [if_pos wrong]
      have different : DHTLIB_ERROR_CHECKSUM ≠ DHTLIB_OK := by decide
      exact ⟨trivial, trivial, trivial, List.mem_cons_self, fun same => absurd same different⟩
    · simp only [if_neg wrong]
      refine ⟨trivial, trivial, trivial, List.mem_cons_of_mem _ (by decide),
        fun _ => ⟨⟨?_, ?_⟩, trivial, trivial⟩⟩
      · exact not_not.mp wrong
      · exact top (not_not.mp failed)

/-- A kind of sensor. -/
def Known (type : Nat) : Prop := type = 11 ∨ type = 22

/-- The delay of a driver is one of the data sheets, or not yet chosen. -/
def Delayed (readDelay : Nat) : Prop := readDelay = 0 ∨ readDelay = 1000 ∨ readDelay = 2000

/-- What a request does to the driver. -/
structure Asked (ops : Arithmetic ρ) (asked : Nat) (first second : Answer) (before : DHTNEW ρ)
    (rv : Int) (after : DHTNEW ρ) : Prop where
  kept : before.type ≠ 0 → after.type = before.type
  kind : after.type = 0 ∨ Known after.type ∨ after.type = before.type
  code : rv ∈ DHTLIB_WAITING_FOR_READ :: DHTLIB_ERROR_CHECKSUM :: codes
  waiting : rv = DHTLIB_WAITING_FOR_READ → before.type ≠ 0 ∧
    (millis asked - before.lastRead).toNat < 2000
  stamp : rv ≠ DHTLIB_WAITING_FOR_READ →
    after.lastRead = millis first.finished ∨ after.lastRead = millis second.finished
  delayed : Delayed after.readDelay
  success : rv = DHTLIB_OK → after.type ≠ 0 ∧ ∃ answer, (answer = first ∨ answer = second) ∧
    Genuine answer.bits ∧ after.humidity = (convert ops after.type answer.bits).1 ∧
      after.temperature = (convert ops after.type answer.bits).2

/-- No attempt says that it is too early. -/
theorem codes_not_waiting (rv : Int) (code : rv ∈ DHTLIB_ERROR_CHECKSUM :: codes) :
    rv ≠ DHTLIB_WAITING_FOR_READ := by
  rintro rfl
  revert code
  decide

/-- The delay is one of the data sheets, and nothing else changes. -/
theorem chooseDelay_spec (sensor : DHTNEW ρ) (delayed : Delayed sensor.readDelay) :
    (chooseDelay sensor).type = sensor.type ∧ (chooseDelay sensor).lastRead = sensor.lastRead ∧
      Delayed (chooseDelay sensor).readDelay := by
  unfold chooseDelay
  split
  · refine ⟨rfl, rfl, ?_⟩
    show Delayed (if sensor.type = 11 then 1000 else 2000)
    split
    · exact .inr (.inl rfl)
    · exact .inr (.inr rfl)
  · exact ⟨rfl, rfl, delayed⟩

/-- A driver that knows no kind finds one exactly with its first success. -/
theorem detect_asked (ops : Arithmetic ρ) (asked : Nat) (first second : Answer)
    (before sensor : DHTNEW ρ) (unknown : before.type = 0) (delayed : Delayed sensor.readDelay)
    (firstSensible : Sensible first.rv first.bits)
    (secondSensible : Sensible second.rv second.bits) :
    Asked ops asked first second before (detect ops first second sensor).1
      (detect ops first second sensor).2 := by
  unfold detect
  obtain ⟨kind, delay, stamp, code, success⟩ := readValues_spec ops first
    { sensor with type := 22, wakeupDelay := DHTLIB_DHT_WAKEUP } firstSensible
  cases tried : readValues ops first
    { sensor with type := 22, wakeupDelay := DHTLIB_DHT_WAKEUP } with
  | mk rv next =>
    simp only [tried] at kind delay stamp code success
    by_cases good : rv = DHTLIB_OK
    · simp only [if_pos good]
      obtain ⟨genuine, humid, warm⟩ := success good
      refine ⟨fun other => absurd unknown other, .inr (.inl (.inr kind)),
        List.mem_cons_of_mem _ code, fun early => absurd early (codes_not_waiting rv code),
        fun _ => .inl stamp, delay ▸ delayed, fun _ => ⟨?_, first, .inl rfl, genuine, ?_, ?_⟩⟩
      · rw [kind]
        decide
      · rw [kind, humid]
      · rw [kind, warm]
    · simp only [if_neg good]
      obtain ⟨kind', delay', stamp', code', success'⟩ := readValues_spec ops second
        { next with type := 11, wakeupDelay := DHTLIB_DHT11_WAKEUP } secondSensible
      cases retried : readValues ops second
        { next with type := 11, wakeupDelay := DHTLIB_DHT11_WAKEUP } with
      | mk rv' last =>
        simp only [retried] at kind' delay' stamp' code' success'
        have kept : Delayed last.readDelay := by
          rw [delay', delay]
          exact delayed
        by_cases good' : rv' = DHTLIB_OK
        · simp only [if_pos good']
          obtain ⟨genuine, humid, warm⟩ := success' good'
          refine ⟨fun other => absurd unknown other, .inr (.inl (.inl kind')),
            List.mem_cons_of_mem _ code', fun early => absurd early (codes_not_waiting rv' code'),
            fun _ => .inr stamp', kept, fun _ => ⟨?_, second, .inr rfl, genuine, ?_, ?_⟩⟩
          · rw [kind']
            decide
          · rw [kind', humid]
          · rw [kind', warm]
        · simp only [if_neg good']
          exact ⟨fun other => absurd unknown other, .inl rfl, List.mem_cons_of_mem _ code',
            fun early => absurd early (codes_not_waiting rv' code'), fun _ => .inr stamp', kept,
            fun same => absurd same good'⟩

/-- Every request does that. -/
theorem read_asked (ops : Arithmetic ρ) (asked : Nat) (first second : Answer) (before : DHTNEW ρ)
    (delayed : Delayed before.readDelay) (firstSensible : Sensible first.rv first.bits)
    (secondSensible : Sensible second.rv second.bits) :
    Asked ops asked first second before (read ops asked first second before).1
      (read ops asked first second before).2 := by
  obtain ⟨type, lastRead, readDelay⟩ := chooseDelay_spec before delayed
  unfold read
  by_cases unknown : (chooseDelay before).type = 0
  · simp only [if_neg (fun other => other unknown : ¬ (chooseDelay before).type ≠ 0)]
    exact detect_asked ops asked first second before _ (type.symm.trans unknown) readDelay
      firstSensible secondSensible
  · simp only [if_pos unknown]
    by_cases early :
        (millis asked - (chooseDelay before).lastRead).toNat < (chooseDelay before).readDelay
    · simp only [if_pos early]
      have short : (millis asked - before.lastRead).toNat < 2000 := by
        rw [← lastRead]
        rcases readDelay with delay | delay | delay
        all_goals omega
      have failed : DHTLIB_WAITING_FOR_READ ≠ DHTLIB_OK := by decide
      exact ⟨fun _ => type, .inr (.inr type), List.mem_cons_self,
        fun _ => ⟨type ▸ unknown, short⟩, fun other => absurd rfl other, readDelay,
        fun same => absurd same failed⟩
    · simp only [if_neg early]
      obtain ⟨kind, delay, stamp, code, success⟩ :=
        readValues_spec ops first (chooseDelay before) firstSensible
      refine ⟨fun _ => kind.trans type, .inr (.inr (kind.trans type)),
        List.mem_cons_of_mem _ code, fun same => absurd same (codes_not_waiting _ code),
        fun _ => .inl stamp, delay ▸ readDelay, fun good => ?_⟩
      obtain ⟨genuine, humid, warm⟩ := success good
      refine ⟨kind ▸ unknown, first, .inl rfl, genuine, ?_, ?_⟩
      · rw [kind, humid]
      · rw [kind, warm]

/-- A turn whose attempts come back as attempts do. -/
structure Poll.Sane (poll : Poll) : Prop where
  first : Sensible poll.first.rv poll.first.bits
  second : Sensible poll.second.rv poll.second.bits

/-- An answer that the driver reads from some wire, looking at it often enough. -/
def Answer.Read (answer : Answer) : Prop :=
  ∃ line type wakeupDelay look step after, Fine line step look ∧ wakeupDelay < 256 ∧
    step < 2 ^ 30 ∧
    Returns (readSensor line type wakeupDelay look) (answer.rv, answer.bits, after)

/-- Whatever the wires do, attempts that read them come back as attempts do. -/
theorem sane_of_read (poll : Poll) (first : poll.first.Read) (second : poll.second.Read) :
    poll.Sane := by
  have sensible (answer : Answer) (read : answer.Read) : Sensible answer.rv answer.bits := by
    obtain ⟨line, type, wakeupDelay, look, step, after, fine, small, narrow, answered⟩ := read
    exact readSensor_sensible fine small narrow answered
  exact ⟨sensible poll.first first, sensible poll.second second⟩

/-- The readings that the sensor shows are those of genuine bytes of some turn. -/
def ShowsGenuine (ops : Arithmetic ρ) (polls : List Poll) (station : Station ρ) : Prop :=
  Known station.driver.type ∧ ∃ poll ∈ polls, ∃ answer,
    (answer = poll.first ∨ answer = poll.second) ∧ Genuine answer.bits ∧
      Shows station.sensor (.reading (convert ops station.driver.type answer.bits).1
        (convert ops station.driver.type answer.bits).2)

/-- The sensor shows that an attempt failed, or that there was none. -/
def ShowsFailure (sensor : DHTSensor ρ) : Prop :=
  ∃ code ∈ DHTLIB_WAITING_FOR_READ :: DHTLIB_ERROR_CHECKSUM :: codes, code ≠ DHTLIB_OK ∧
    Shows sensor (.failure code)

/-- What holds between two turns, given the turns so far. -/
structure Trusted (ops : Arithmetic ρ) (polls : List Poll) (station : Station ρ) : Prop where
  delayed : Delayed station.driver.readDelay
  kind : station.driver.type = 0 ∨ Known station.driver.type
  told : ShowsFailure station.sensor ∨ ShowsGenuine ops polls station

/-- A turn that does not open the gate changes neither the driver nor what is shown. -/
theorem turn_shut (ops : Arithmetic ρ) (station : Station ρ) (poll : Poll)
    (shut : ¬ Opens station.sensor.lastTime poll.toVisit) :
    (station.turn ops poll).driver = station.driver ∧
      ∀ outcome, Shows station.sensor outcome → Shows (station.turn ops poll).sensor outcome := by
  have idle := loop_idle (poll.call ops station.driver) station.sensor shut
  refine ⟨if_neg shut, fun outcome shows => ?_⟩
  rw [Station.turn, idle]
  cases outcome with
  | reading humidity temperature => exact shows
  | failure code => exact shows

/-- A turn that opens the gate asks the driver and shows what it says. -/
theorem turn_open (ops : Arithmetic ρ) (station : Station ρ) (poll : Poll)
    (opened : Opens station.sensor.lastTime poll.toVisit) :
    (station.turn ops poll).driver =
        (read ops poll.asked poll.first poll.second station.driver).2 ∧
      Shows (station.turn ops poll).sensor (poll.call ops station.driver).outcome :=
  ⟨if_pos opened, loop_attempt (poll.call ops station.driver) station.sensor opened⟩

/-- A turn keeps trust, and the kind of the sensor once it is known. -/
theorem turn_trusted (ops : Arithmetic ρ) (polls : List Poll) (station : Station ρ) (poll : Poll)
    (trusted : Trusted ops polls station) (sane : poll.Sane) :
    Trusted ops (polls ++ [poll]) (station.turn ops poll) ∧
      (station.driver.type ≠ 0 →
        (station.turn ops poll).driver.type = station.driver.type) := by
  obtain ⟨delayed, kind, told⟩ := trusted
  by_cases opened : Opens station.sensor.lastTime poll.toVisit
  · obtain ⟨driver, shows⟩ := turn_open ops station poll opened
    have asked := read_asked ops poll.asked poll.first poll.second station.driver delayed
      sane.first sane.second
    have known : (station.turn ops poll).driver.type = 0 ∨
        Known (station.turn ops poll).driver.type := by
      rw [driver]
      rcases asked.kind with unknown | found | same
      · exact .inl unknown
      · exact .inr found
      · rw [same]
        exact kind
    refine ⟨⟨driver ▸ asked.delayed, known, ?_⟩, fun old => by rw [driver, asked.kept old]⟩
    by_cases good : (poll.call ops station.driver).ret = DHTLIB_OK
    · obtain ⟨present, answer, which, genuine, humid, warm⟩ := asked.success good
      rw [Call.outcome, if_pos good] at shows
      refine .inr ⟨known.resolve_left (by rw [driver]; exact present), poll,
        List.mem_append_right _ (List.mem_singleton_self poll), answer, which, genuine, ?_⟩
      rw [driver, ← humid, ← warm]
      exact shows
    · rw [Call.outcome, if_neg good] at shows
      exact .inl ⟨_, asked.code, good, shows⟩
  · obtain ⟨driver, shown⟩ := turn_shut ops station poll opened
    refine ⟨⟨driver ▸ delayed, driver ▸ kind, ?_⟩, fun _ => by rw [driver]⟩
    rcases told with ⟨code, among, failed, shows⟩ | ⟨known, other, member, answer, which, genuine,
      shows⟩
    · exact .inl ⟨code, among, failed, shown _ shows⟩
    · refine .inr ⟨driver ▸ known, other, List.mem_append_left _ member, answer, which, genuine, ?_⟩
      rw [driver]
      exact shown _ shows

/-- So do all turns. Induction on them. -/
theorem turns_trusted (ops : Arithmetic ρ) (seen polls : List Poll) (station : Station ρ)
    (trusted : Trusted ops seen station) (sane : ∀ poll ∈ polls, poll.Sane) :
    Trusted ops (seen ++ polls) (station.turns ops polls) ∧
      (station.driver.type ≠ 0 →
        (station.turns ops polls).driver.type = station.driver.type) := by
  induction polls generalizing seen station with
  | nil =>
    rw [List.append_nil]
    exact ⟨trusted, fun _ => rfl⟩
  | cons poll rest ih =>
    obtain ⟨first, others⟩ := List.forall_mem_cons.mp sane
    obtain ⟨next, kept⟩ := turn_trusted ops seen station poll trusted first
    obtain ⟨last, stays⟩ := ih (seen ++ [poll]) (station.turn ops poll) next others
    rw [List.append_assoc] at last
    refine ⟨last, fun known => ?_⟩
    have same := kept known
    exact (stays (same ▸ known)).trans same

/-- A station before its first turn. -/
def Station.initial (zero : ρ) (bits : Buffer) : Station ρ := ⟨constructed, reset zero bits⟩

/-- It is trusted. -/
theorem initial_trusted (ops : Arithmetic ρ) (bits : Buffer) :
    Trusted ops [] (Station.initial ops.zero bits) :=
  ⟨.inl rfl, .inl rfl, .inl ⟨DHTLIB_WAITING_FOR_READ, List.mem_cons_self, by decide,
    constructed_shows⟩⟩

/-- After every sequence of turns, whatever the wire did in them: the document tells a code
of the driver, or the readings of five genuine bytes that came in one of the turns, read
for the one kind of sensor that is known. Once a kind is known it stays. -/
theorem reports_certified (ops : Arithmetic ρ) (bits : Buffer) (polls : List Poll)
    (sane : ∀ poll ∈ polls, poll.Sane) :
    let station := (Station.initial ops.zero bits).turns ops polls
    ((∃ code ∈ DHTLIB_WAITING_FOR_READ :: DHTLIB_ERROR_CHECKSUM :: codes, code ≠ DHTLIB_OK ∧
        document station.sensor = some (Outcome.failure code).report) ∨
      Known station.driver.type ∧ ∃ poll ∈ polls, ∃ answer,
        (answer = poll.first ∨ answer = poll.second) ∧ Genuine answer.bits ∧
          document station.sensor =
            some (Outcome.reading (convert ops station.driver.type answer.bits).1
              (convert ops station.driver.type answer.bits).2).report) ∧
    ∀ before after, polls = before ++ after →
      ((Station.initial ops.zero bits).turns ops before).driver.type ≠ 0 →
      station.driver.type = ((Station.initial ops.zero bits).turns ops before).driver.type := by
  intro station
  have start := initial_trusted ops bits
  obtain ⟨trusted, _⟩ := turns_trusted ops [] polls _ start sane
  constructor
  · rcases trusted.told with ⟨code, among, failed, shows⟩ | ⟨known, poll, member, answer, which,
      genuine, shows⟩
    · exact .inl ⟨code, among, failed, shows.document⟩
    · exact .inr ⟨known, poll, member, answer, which, genuine, shows.document⟩
  · rintro before after rfl known
    obtain ⟨front, back⟩ := List.forall_mem_append.mp sane
    obtain ⟨middle, _⟩ := turns_trusted ops [] before _ start front
    obtain ⟨_, stays⟩ := turns_trusted ops _ after _ middle back
    have split : station = ((Station.initial ops.zero bits).turns ops before).turns ops after :=
      List.foldl_append
    rw [split]
    exact stays known

/-- Readings as numbers of tenths. -/
def wholeTenths : Arithmetic Int where
  tenths := fun number => number
  mixed := fun whole tenths => 10 * whole + tenths
  neg := fun value => -value
  zero := 0
  invalid := -9990

/-- A turn twenty seconds after its entry that reads a mild day. -/
def mildPoll : Poll where
  interval := 20000
  entered := 0
  checked := 20001
  recorded := 20001
  checked_after := by decide
  recorded_after := by decide
  asked := 20002
  first := ⟨DHTLIB_OK, mild, 20010⟩
  second := ⟨DHTLIB_ERROR_SENSOR_NOT_READY, Vector.replicate 5 0, 20030⟩

/-- Its attempts come back as attempts do. -/
theorem mildPoll_sane : mildPoll.Sane :=
  ⟨⟨by decide, fun _ => by decide⟩, ⟨by decide, by decide⟩⟩

/-- After the mild turn the document has two readings, and they are certified. -/
theorem reports_certified_mild :
    let station :=
      (Station.initial wholeTenths.zero (Vector.replicate 5 0)).turns wholeTenths [mildPoll]
    document station.sensor = some (Outcome.reading 577 259).report ∧
      Known station.driver.type := by
  intro station
  have shown : document station.sensor = some (Outcome.reading 577 259).report := by decide
  obtain ⟨told, _⟩ := reports_certified wholeTenths (Vector.replicate 5 0) [mildPoll]
    (by simp [mildPoll_sane])
  rcases told with ⟨code, _, _, failure⟩ | ⟨known, _⟩
  · have both := shown.symm.trans failure
    simp [Outcome.report] at both
  · exact ⟨shown, known⟩

/-- `DHT_READ_RATE`. -/
def DHT_READ_RATE : BitVec 32 := 20000

/-- A turn of a main loop that does not get stuck: it comes within twelve days of the one
before it, and reading the sensor takes at most eighteen seconds. -/
structure Poll.Prompt (now : Nat) (poll : Poll) : Prop where
  rate : poll.interval = DHT_READ_RATE
  entered : now ≤ poll.entered
  checked : poll.checked ≤ now + 2 ^ 30
  recorded : poll.recorded ≤ poll.checked + 2 ^ 29
  asked : poll.recorded ≤ poll.asked
  first : poll.asked ≤ poll.first.finished
  second : poll.first.finished ≤ poll.second.finished
  quick : poll.second.finished ≤ poll.recorded + 18000

/-- Turns of such a main loop, one after the other. -/
def Timely : Nat → List Poll → Prop
  | _, [] => True
  | now, poll :: rest => poll.Prompt now ∧ Timely poll.second.finished rest

/-- The stamps of the gate and of the driver belong to the same attempt, which is not too
long ago for their counters. -/
def Paired (station : Station ρ) (now : Nat) : Prop :=
  station.driver.type = 0 ∨ ∃ gate stamp,
    station.sensor.lastTime = some (millis gate) ∧ station.driver.lastRead = millis stamp ∧
      gate ≤ stamp ∧ stamp ≤ gate + 18000 ∧ stamp ≤ now ∧ now ≤ gate + 2 ^ 30

/-- A gate that opens in time has been shut for its interval. -/
theorem opens_late (gate now : Nat) (poll : Poll) (prompt : poll.Prompt now)
    (past : gate ≤ now) (recent : now ≤ gate + 2 ^ 30) :
    Opens (some (millis gate)) poll.toVisit ↔ gate + 20000 < poll.checked := by
  have enteredFirst := poll.checked_after
  have entered := prompt.entered
  have checked := prompt.checked
  have elapsed : (shown 32 poll.checked - shown 32 gate).toNat = poll.checked - gate :=
    elapsed_eq gate poll.checked (by omega) (by omega)
  have opens : Opens (some (millis gate)) poll.toVisit ↔
      poll.interval.toNat < (shown 32 poll.checked - shown 32 gate).toNat := BitVec.lt_def
  have rate : poll.interval.toNat = 20000 := by
    rw [prompt.rate]
    rfl
  rw [opens, elapsed, rate]
  omega

/-- An attempt is not refused as too early, and its stamps are paired again. -/
theorem turn_paired (ops : Arithmetic ρ) (polls : List Poll) (station : Station ρ) (poll : Poll)
    (now : Nat) (trusted : Trusted ops polls station) (sane : poll.Sane)
    (prompt : poll.Prompt now) (paired : Paired station now) :
    (Opens station.sensor.lastTime poll.toVisit →
      (poll.call ops station.driver).ret ≠ DHTLIB_WAITING_FOR_READ) ∧
      Paired (station.turn ops poll) poll.second.finished := by
  obtain ⟨rate, entered, checked, recorded, asked, first, second, quick⟩ := prompt
  have enteredFirst := poll.checked_after
  have checkedFirst := poll.recorded_after
  have request := read_asked ops poll.asked poll.first poll.second station.driver trusted.delayed
    sane.first sane.second
  have inTime : Opens station.sensor.lastTime poll.toVisit →
      (poll.call ops station.driver).ret ≠ DHTLIB_WAITING_FOR_READ := by
    intro opened early
    obtain ⟨known, short⟩ := request.waiting early
    obtain ⟨gate, stamp, gated, stamped, ordered, near, past, recent⟩ :=
      paired.resolve_left known
    rw [gated] at opened
    have late := (opens_late gate now poll ⟨rate, entered, checked, recorded, asked, first, second,
      quick⟩ (by omega) recent).mp opened
    have elapsed : (shown 32 poll.asked - shown 32 stamp).toNat = poll.asked - stamp :=
      elapsed_eq stamp poll.asked (by omega) (by omega)
    rw [stamped, millis, millis, elapsed] at short
    omega
  refine ⟨inTime, ?_⟩
  by_cases opened : Opens station.sensor.lastTime poll.toVisit
  · obtain ⟨driver, _⟩ := turn_open ops station poll opened
    have gated : (station.turn ops poll).sensor.lastTime = some (millis poll.recorded) := by
      have stamps := loop_lastTime (poll.call ops station.driver) station.sensor
      exact stamps.trans (if_pos opened)
    refine .inr ?_
    rcases request.stamp (inTime opened) with stamp | stamp
    · exact ⟨poll.recorded, poll.first.finished, gated, driver ▸ stamp, by omega, by omega,
        by omega, by omega⟩
    · exact ⟨poll.recorded, poll.second.finished, gated, driver ▸ stamp, by omega, by omega,
        by omega, by omega⟩
  · obtain ⟨driver, _⟩ := turn_shut ops station poll opened
    rcases paired with unknown | ⟨gate, stamp, gated, stamped, ordered, near, past, recent⟩
    · exact .inl (driver ▸ unknown)
    · have soon := opens_late gate now poll ⟨rate, entered, checked, recorded, asked, first,
        second, quick⟩ (by omega) recent
      rw [gated, soon] at opened
      have kept : (station.turn ops poll).sensor.lastTime = some (millis gate) := by
        have idle := loop_idle (poll.call ops station.driver) station.sensor
          (by
            show ¬ Opens station.sensor.lastTime poll.toVisit
            rw [gated, soon]
            exact opened)
        rw [Station.turn, idle, gated]
        rfl
      exact .inr ⟨gate, stamp, kept, driver ▸ stamped, ordered, near, by omega, by omega⟩

/-- The main loop asks the sensor so seldom that the driver never refuses: in every sequence
of turns of a main loop that does not get stuck, every turn that passes the gate reads the
wire, however often the counters wrap around. -/
theorem never_too_early (ops : Arithmetic ρ) (bits : Buffer) (polls : List Poll)
    (sane : ∀ poll ∈ polls, poll.Sane) (timely : Timely 0 polls)
    (before after : List Poll) (poll : Poll) (split : polls = before ++ poll :: after)
    (opened : Opens ((Station.initial ops.zero bits).turns ops before).sensor.lastTime
      poll.toVisit) :
    (poll.call ops ((Station.initial ops.zero bits).turns ops before).driver).ret ≠
      DHTLIB_WAITING_FOR_READ := by
  have along (seen before : List Poll) (station : Station ρ) (now : Nat)
      (trusted : Trusted ops seen station) (paired : Paired station now)
      (sane : ∀ turn ∈ before ++ poll :: after, turn.Sane)
      (timely : Timely now (before ++ poll :: after))
      (opened : Opens (station.turns ops before).sensor.lastTime poll.toVisit) :
      (poll.call ops (station.turns ops before).driver).ret ≠ DHTLIB_WAITING_FOR_READ := by
    induction before generalizing seen station now with
    | nil =>
      exact (turn_paired ops seen station poll now trusted
        (sane poll (by simp)) timely.1 paired).1 opened
    | cons other rest ih =>
      obtain ⟨first, others⟩ := List.forall_mem_cons.mp sane
      obtain ⟨next, _⟩ := turn_trusted ops seen station other trusted first
      obtain ⟨_, again⟩ := turn_paired ops seen station other now trusted first timely.1 paired
      exact ih (seen ++ [other]) (station.turn ops other) other.second.finished next again others
        timely.2 opened
  subst split
  exact along [] before _ 0 (initial_trusted ops bits) (.inl rfl) sane timely opened

/-- A turn on the evening of the mild day. -/
def eveningPoll : Poll where
  interval := 20000
  entered := 50000000
  checked := 50000000
  recorded := 50000001
  checked_after := by decide
  recorded_after := by decide
  asked := 50000002
  first := ⟨DHTLIB_ERROR_TIMEOUT_A, Vector.replicate 5 0, 50000010⟩
  second := ⟨DHTLIB_ERROR_SENSOR_NOT_READY, Vector.replicate 5 0, 50000010⟩

/-- The evening's attempt fails, but not because it is too early. -/
theorem never_too_early_evening :
    (eveningPoll.call wholeTenths
      ((Station.initial wholeTenths.zero (Vector.replicate 5 0)).turns wholeTenths
        [mildPoll]).driver).ret ≠ DHTLIB_WAITING_FOR_READ := by
  have sane : eveningPoll.Sane := ⟨⟨by decide, by decide⟩, ⟨by decide, by decide⟩⟩
  refine never_too_early wholeTenths (Vector.replicate 5 0) [mildPoll, eveningPoll]
    (by simp [mildPoll_sane, sane]) ⟨?_, ?_, trivial⟩ [mildPoll] [] eveningPoll rfl
    (by decide)
  · exact ⟨rfl, by decide, by decide, by decide, by decide, by decide, by decide, by decide⟩
  · exact ⟨rfl, by decide, by decide, by decide, by decide, by decide, by decide, by decide⟩

/-- The five bytes of a measurement: both values in tenths, the temperature with a sign. -/
def measured (humidity magnitude : Nat) (below : Bool) : Buffer :=
  let high := BitVec.ofNat 8 (humidity / 256)
  let low := BitVec.ofNat 8 humidity
  let warmHigh := BitVec.ofNat 8 (magnitude / 256) ||| (if below then 0x80 else 0)
  let warmLow := BitVec.ofNat 8 magnitude
  #v[high, low, warmHigh, warmLow, high + low + warmHigh + warmLow]

/-- The reading of a temperature in tenths with a sign. -/
def signed (ops : Arithmetic ρ) (magnitude : Nat) (below : Bool) : ρ :=
  if magnitude = 0 then ops.zero
  else if below then ops.neg (ops.tenths magnitude)
  else ops.tenths magnitude

/-- The bytes of a measurement are genuine. -/
theorem measured_genuine (humidity magnitude : Nat) (below : Bool) (small : humidity < 2 ^ 15) :
    Genuine (measured humidity magnitude below) := by
  have clear : ∀ byte, byte < 128 → BitVec.ofNat 8 byte &&& 0x80 = 0 := by decide
  exact ⟨rfl, clear (humidity / 256) (by omega)⟩

/-- The high byte of a temperature, with its sign, is taken apart again. -/
theorem signed_byte (byte : Nat) (small : byte < 128) (below : Bool) :
    (BitVec.ofNat 8 byte ||| (if below then 0x80 else 0)).toNat &&& 0x7F = byte ∧
      (BitVec.ofNat 8 byte ||| (if below then 0x80 else 0)) &&& 0x80 =
        (if below then 0x80 else 0) := by
  have magnitude : ∀ byte, byte < 128 → (BitVec.ofNat 8 byte).toNat &&& 0x7F = byte := by decide
  have marked : ∀ byte, byte < 128 → (BitVec.ofNat 8 byte ||| 0x80).toNat &&& 0x7F = byte := by
    decide
  have clear : ∀ byte, byte < 128 → BitVec.ofNat 8 byte &&& 0x80 = 0 := by decide
  have set : ∀ byte, byte < 128 → (BitVec.ofNat 8 byte ||| 0x80) &&& 0x80 = 0x80 := by decide
  cases below with
  | true => exact ⟨marked byte small, set byte small⟩
  | false =>
    have same : BitVec.ofNat 8 byte ||| 0 = BitVec.ofNat 8 byte := BitVec.or_zero
    simp only [Bool.false_eq_true, if_false, same]
    exact ⟨magnitude byte small, clear byte small⟩

/-- The readings of a measurement are its values. -/
theorem convert_measured (ops : Arithmetic ρ) (humidity magnitude : Nat) (below : Bool)
    (humid : humidity < 2 ^ 15) (warm : magnitude < 2 ^ 15) :
    convert ops 22 (measured humidity magnitude below) =
      (ops.tenths humidity, signed ops magnitude below) := by
  obtain ⟨high, sign⟩ := signed_byte (magnitude / 256) (by omega) below
  have first : ((measured humidity magnitude below).get 0).toNat * 256 +
      ((measured humidity magnitude below).get 1).toNat = humidity := by
    show (BitVec.ofNat 8 (humidity / 256)).toNat * 256 + (BitVec.ofNat 8 humidity).toNat = humidity
    rw [BitVec.toNat_ofNat, BitVec.toNat_ofNat]
    omega
  have second : (((measured humidity magnitude below).get 2).toNat &&& 0x7F) * 256 +
      ((measured humidity magnitude below).get 3).toNat = magnitude := by
    show ((BitVec.ofNat 8 (magnitude / 256) ||| (if below then 0x80 else 0)).toNat &&& 0x7F) * 256 +
      (BitVec.ofNat 8 magnitude).toNat = magnitude
    rw [high, BitVec.toNat_ofNat]
    exact Nat.div_add_mod' magnitude 256
  have third : (measured humidity magnitude below).get 2 &&& 0x80 =
      (if below then 0x80 else 0) := sign
  simp only [convert, if_true, first, second, third, signed]
  cases below with
  | true => simp
  | false => simp

/-- An attempt that brings genuine bytes succeeds with their readings. -/
theorem readValues_genuine (ops : Arithmetic ρ) (answer : Answer) (sensor : DHTNEW ρ)
    (success : answer.rv = DHTLIB_OK) (genuine : Genuine answer.bits) :
    (readValues ops answer sensor).1 = DHTLIB_OK ∧
      (readValues ops answer sensor).2.type = sensor.type ∧
      (readValues ops answer sensor).2.humidity = (convert ops sensor.type answer.bits).1 ∧
      (readValues ops answer sensor).2.temperature =
        (convert ops sensor.type answer.bits).2 := by
  simp [readValues, success, genuine.sum]

/-- A request that is due, of a driver that has or may yet find the kind, succeeds with the
readings of genuine bytes. -/
theorem read_genuine (ops : Arithmetic ρ) (asked : Nat) (first second : Answer)
    (driver : DHTNEW ρ) (delayed : Delayed driver.readDelay)
    (kind : driver.type = 0 ∨
      driver.type = 22 ∧ 2000 ≤ (millis asked - driver.lastRead).toNat)
    (success : first.rv = DHTLIB_OK) (genuine : Genuine first.bits) :
    (read ops asked first second driver).1 = DHTLIB_OK ∧
      (read ops asked first second driver).2.type = 22 ∧
      (read ops asked first second driver).2.humidity = (convert ops 22 first.bits).1 ∧
      (read ops asked first second driver).2.temperature = (convert ops 22 first.bits).2 := by
  obtain ⟨type, lastRead, readDelay⟩ := chooseDelay_spec driver delayed
  unfold read
  rcases kind with unknown | ⟨known, due⟩
  · have fresh : ¬ (chooseDelay driver).type ≠ 0 := by simp [type, unknown]
    obtain ⟨good, found, humid, warm⟩ := readValues_genuine ops first
      { chooseDelay driver with type := 22, wakeupDelay := DHTLIB_DHT_WAKEUP } success genuine
    simp only [if_neg fresh, detect, if_pos good]
    exact ⟨good, found, humid, warm⟩
  · have old : (chooseDelay driver).type ≠ 0 := by simp [type, known]
    have spent : ¬ (millis asked - (chooseDelay driver).lastRead).toNat <
        (chooseDelay driver).readDelay := by
      rw [lastRead]
      rcases readDelay with delay | delay | delay
      all_goals omega
    obtain ⟨good, found, humid, warm⟩ :=
      readValues_genuine ops first (chooseDelay driver) success genuine
    have same : (chooseDelay driver).type = 22 := type.trans known
    simp only [if_pos old, if_neg spent]
    rw [same] at found humid warm
    exact ⟨good, found, humid, warm⟩

/-- From the air to the document: for every measurement that a sensor sends in legible pulses,
every schedule of looks that is dense enough for them, and every station whose gate opens and
whose driver has this kind of sensor or does not know yet, the document behind the turn
tells the measured values. -/
theorem measurement_reported (ops : Arithmetic ρ) (station : Station ρ) (poll : Poll)
    (opened : Opens station.sensor.lastTime poll.toVisit)
    (delayed : Delayed station.driver.readDelay)
    (kind : station.driver.type = 0 ∨ station.driver.type = 22 ∧
      2000 ≤ (millis poll.asked - station.driver.lastRead).toNat)
    (humidity magnitude : Nat) (below : Bool) (humid : humidity < 2 ^ 15)
    (warm : magnitude < 2 ^ 15) (line : Line) (wakeupDelay look released step start : Nat)
    (woke : Returns (fun fuel => wakeLoop line wakeupDelay (micros line look) fuel (look + 1))
      released)
    (fine : Fine line step released) (reply : Reply) (legible : reply.Legible 22 step)
    (sends : reply.pulses.map Pulse.value = sentBits (measured humidity magnitude below))
    (plays : Plays line start reply.levels) (begun : start ≤ line.moment released)
    (before : line.moment released ≤ start + reply.ready) (after : Nat)
    (answered : Returns (readSensor line 22 wakeupDelay look)
      (poll.first.rv, poll.first.bits, after)) :
    document (station.turn ops poll).sensor =
        some (Outcome.reading (ops.tenths humidity) (signed ops magnitude below)).report ∧
      (station.turn ops poll).driver.type = 22 := by
  have genuine := measured_genuine humidity magnitude below humid
  obtain ⟨last, listens⟩ := listen_reply fine 22 reply legible _ sends plays released
    (Nat.le_refl _) begun before
  have same := answered.unique (woke.bind listens)
  have success : poll.first.rv = DHTLIB_OK :=
    (congrArg Prod.fst same).trans (if_neg fun other => other genuine.top)
  have bytes : poll.first.bits = measured humidity magnitude below :=
    congrArg (fun result => result.2.1) same
  rw [← bytes] at genuine
  obtain ⟨good, found, humidRead, warmRead⟩ := read_genuine ops poll.asked poll.first poll.second
    station.driver delayed kind success genuine
  rw [bytes, convert_measured ops humidity magnitude below humid warm] at humidRead warmRead
  obtain ⟨driver, shows⟩ := turn_open ops station poll opened
  have outcome : (poll.call ops station.driver).outcome =
      .reading (ops.tenths humidity) (signed ops magnitude below) := by
    have told : (poll.call ops station.driver).outcome =
        .reading (poll.call ops station.driver).humidity
          (poll.call ops station.driver).temperature := if_pos good
    rw [told]
    exact congrArg₂ Outcome.reading humidRead warmRead
  rw [outcome] at shows
  exact ⟨shows.document, by rw [driver, found]⟩

/-- The mild day from the wire to the document. -/
theorem measurement_reported_mild :
    document ((Station.initial wholeTenths.zero (Vector.replicate 5 0)).turn wholeTenths
        mildPoll).sensor = some (Outcome.reading 577 259).report := by
  have fine : Fine mildLine 2 0 := fun look _ => by
    show 2 * (look + 1) ≤ 2 * look + 2
    omega
  obtain ⟨last, behind, bound, woke⟩ :=
    wakeLoop_ends fine 1 0 0 (by decide) (by decide) (by decide) (by decide)
  have long := wake_lasts mildLine 1 0 (last + 1) woke
  have begin : mildLine.moment 0 = 0 := rfl
  have next : mildLine.moment (last + 1) = mildLine.moment last + 2 := by
    show 2 * (last + 1) = 2 * last + 2
    omega
  have ready : mildReply.ready = 30 := rfl
  have later := fine.later (last + 1) (by omega)
  have plays := plays_played mildLine 1100 mildReply.levels fun _ _ => rfl
  obtain ⟨after, listens⟩ := listen_reply later 22 mildReply mildReply_legible mild (by decide)
    plays (last + 1) (Nat.le_refl _) (by omega) (by omega)
  exact (measurement_reported wholeTenths _ mildPoll (by decide) (.inl rfl) (.inl rfl) 577 259
    false (by decide) (by decide) mildLine 1 0 (last + 1) 2 1100 woke later mildReply
    mildReply_legible (by decide) plays (by omega) (by omega) after (woke.bind listens)).1

end WhirlpoolAc.SensorDriver
