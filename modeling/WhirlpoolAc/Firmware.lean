import WhirlpoolAc.AirConditioner
import WhirlpoolAc.PulseSender

/-!
# Program state and the commit routine

The running program is one controller object, what it has handed to the network
and what it has transmitted over infrared, together with the wall clock that
`localtime_r` reads. Every routine runs to completion in a state monad whose
exceptions keep the state they were raised in, as C++ does; nothing rolls back.

`onCommit` stamps the frame with the local time and sends it. Serial output and
syslog lines are not part of the state: no routine reads them back.
-/

namespace WhirlpoolAc.Firmware

open ByteStrings CxxLibrary FrameLayout AirConditioner PulseSender

/-- Broken-down local time, within the ranges the C library guarantees; a leap
second is second sixty. -/
structure Tm where
  tm_hour : Fin 24
  tm_min : Fin 60
  tm_sec : Fin 61
deriving DecidableEq, Repr

/-- The time with the given numbers. -/
def clock (hour minute second : Nat) : Tm where
  tm_hour := Fin.ofNat 24 hour
  tm_min := Fin.ofNat 60 minute
  tm_sec := Fin.ofNat 61 second

/-- What the program hands to the network. -/
inductive Packet where
  | subscribe (topic : Bytes) (qos : Nat)
  | publish (topic : Bytes) (qos : Nat) (retain : Bool) (payload : Bytes)
  | response (code : Nat) (body : Bytes)
deriving DecidableEq

/-- One call of the raw sender: its arguments, when it happened, and the signals
emitted with it, header included. -/
structure Transmission where
  time : Tm
  data : WhirlpoolYJ1BData
  numberOfBits : UInt8
  signals : List Signal
deriving DecidableEq

/-- The program and its surroundings. -/
structure World where
  g_whirpool : WhirlpoolYJ1B
  now : Tm
  sent : List Packet
  transmissions : List Transmission
deriving DecidableEq

/-- A routine of the firmware. -/
abbrev Fw := EStateM Exn World

/-- Change the controller object. -/
def World.control (change : WhirlpoolYJ1B → WhirlpoolYJ1B) (world : World) : World :=
  { world with g_whirpool := change world.g_whirpool }

/-- Hand packets to the network, oldest first. -/
def World.emit (packets : List Packet) (world : World) : World :=
  { world with sent := world.sent ++ packets }

/-- Record one transmission. -/
def World.transmit (transmission : Transmission) (world : World) : World :=
  { world with transmissions := world.transmissions ++ [transmission] }

/-- The controller object is what is changed. -/
@[simp] theorem control_g_whirpool (change : WhirlpoolYJ1B → WhirlpoolYJ1B) (world : World) :
    (world.control change).g_whirpool = change world.g_whirpool := rfl

/-- Changing the controller takes no time. -/
@[simp] theorem control_now (change : WhirlpoolYJ1B → WhirlpoolYJ1B) (world : World) :
    (world.control change).now = world.now := rfl

/-- Changing the controller sends nothing. -/
@[simp] theorem control_sent (change : WhirlpoolYJ1B → WhirlpoolYJ1B) (world : World) :
    (world.control change).sent = world.sent := rfl

/-- Changing the controller transmits nothing. -/
@[simp] theorem control_transmissions (change : WhirlpoolYJ1B → WhirlpoolYJ1B) (world : World) :
    (world.control change).transmissions = world.transmissions := rfl

/-- Packets leave the controller as it is. -/
@[simp] theorem emit_g_whirpool (packets : List Packet) (world : World) :
    (world.emit packets).g_whirpool = world.g_whirpool := rfl

/-- Handing over packets takes no time. -/
@[simp] theorem emit_now (packets : List Packet) (world : World) :
    (world.emit packets).now = world.now := rfl

/-- Packets follow those sent before. -/
@[simp] theorem emit_sent (packets : List Packet) (world : World) :
    (world.emit packets).sent = world.sent ++ packets := rfl

/-- Packets are no transmissions. -/
@[simp] theorem emit_transmissions (packets : List Packet) (world : World) :
    (world.emit packets).transmissions = world.transmissions := rfl

/-- A transmission leaves the controller as it is. -/
@[simp] theorem transmit_g_whirpool (transmission : Transmission) (world : World) :
    (world.transmit transmission).g_whirpool = world.g_whirpool := rfl

/-- A transmission does not set the clock. -/
@[simp] theorem transmit_now (transmission : Transmission) (world : World) :
    (world.transmit transmission).now = world.now := rfl

/-- A transmission sends no packet. -/
@[simp] theorem transmit_sent (transmission : Transmission) (world : World) :
    (world.transmit transmission).sent = world.sent := rfl

/-- A transmission follows those before. -/
@[simp] theorem transmit_transmissions (transmission : Transmission) (world : World) :
    (world.transmit transmission).transmissions = world.transmissions ++ [transmission] := rfl

/-- Successive hand-overs join. -/
@[simp] theorem emit_emit (first second : List Packet) (world : World) :
    (world.emit first).emit second = world.emit (first ++ second) := by
  simp [World.emit]

/-- Access through the pointer to the controller object. -/
def whirlpool : Fw WhirlpoolYJ1B := do return (← get).g_whirpool

/-- Update through the pointer to the controller object. -/
def modifyWhirlpool (change : WhirlpoolYJ1B → WhirlpoolYJ1B) : Fw Unit :=
  modify (World.control change)

/-- Let an exception of a called function escape. -/
def rethrow {α : Type} (result : Except Exn α) : Fw α :=
  match result with
  | .ok value => pure value
  | .error exception => throw exception

/-- Queue one packet. -/
def send (packet : Packet) : Fw Unit := modify (World.emit [packet])

/-- `localtime_r` of the current time. -/
def localtime : Fw Tm := do return (← get).now

/-- Sequencing: a returned value goes to the continuation together with the state
it left behind, an exception keeps that state and skips the continuation. -/
@[simp] theorem bind_run {α β : Type} (first : Fw α) (next : α → Fw β) (world : World) :
    (first >>= next) world =
      match first world with
      | .ok value after => next value after
      | .error exception after => .error exception after := by
  cases result : first world <;> simp [bind, EStateM.bind, result]

/-- A returned value changes nothing. -/
@[simp] theorem pure_run {α : Type} (value : α) (world : World) :
    (pure value : Fw α) world = .ok value world := rfl

/-- An exception keeps the state in which it is thrown. -/
@[simp] theorem throw_run {α : Type} (exception : Exn) (world : World) :
    (throw exception : Fw α) world = .error exception world := rfl

/-- A handler starts in the state the exception left behind. -/
@[simp] theorem tryCatch_run {α : Type} (body : Fw α) (handler : Exn → Fw α) (world : World) :
    (tryCatch body handler : Fw α) world =
      match body world with
      | .ok value after => .ok value after
      | .error exception after => handler exception after := by
  cases result : body world with
  | ok value after =>
    simp [tryCatch, tryCatchThe, MonadExceptOf.tryCatch, EStateM.tryCatch, result]
  | error exception after =>
    simp [tryCatch, tryCatchThe, MonadExceptOf.tryCatch, EStateM.tryCatch, result]
    rfl

/-- An update changes the state and returns nothing. -/
@[simp] theorem modify_run (change : World → World) (world : World) :
    (modify change : Fw Unit) world = .ok () (change world) := rfl

/-- Reading the controller changes nothing. -/
@[simp] theorem whirlpool_run (world : World) :
    whirlpool world = .ok world.g_whirpool world := rfl

/-- Updating the controller leaves the rest alone. -/
@[simp] theorem modifyWhirlpool_run (change : WhirlpoolYJ1B → WhirlpoolYJ1B) (world : World) :
    modifyWhirlpool change world = .ok () (world.control change) := rfl

/-- What a called function returns is returned. -/
@[simp] theorem rethrow_ok {α : Type} (value : α) (world : World) :
    rethrow (.ok value) world = .ok value world := rfl

/-- What a called function throws is thrown. -/
@[simp] theorem rethrow_error {α : Type} (exception : Exn) (world : World) :
    (rethrow (.error exception) : Fw α) world = .error exception world := rfl

/-- A queued packet is the last one sent. -/
@[simp] theorem send_run (packet : Packet) (world : World) :
    send packet world = .ok () (world.emit [packet]) := rfl

/-- Reading the clock changes nothing. -/
@[simp] theorem localtime_run (world : World) : localtime world = .ok world.now world := rfl

/-- `AC_UNIT` and the lengths derived from it, in microseconds. -/
def acUnit : Nat := 560

/-- The mark of the header. -/
def acHeaderMark : Nat := 16 * acUnit

/-- The space of the header. -/
def acHeaderSpace : Nat := 8 * acUnit

/-- The marks and spaces of the two bits. -/
def acTiming : BitTiming where
  aOneMarkMicros := acUnit
  aOneSpaceMicros := 3 * acUnit
  aZeroMarkMicros := acUnit
  aZeroSpaceMicros := acUnit

/-- The three clock setters of a commit, in order. The library hands out `int`s,
which the setters take as bytes. -/
def setClock (time : Tm) (ac : WhirlpoolYJ1B) : WhirlpoolYJ1B :=
  ((ac.setClockHours (UInt8.ofNat time.tm_hour)).setClockMinutes
    (UInt8.ofNat time.tm_min)).setClockSeconds (UInt8.ofNat time.tm_sec)

/-- Header mark, header space and the raw frame with its stop mark. -/
def emission (data : List (BitVec 8)) (numberOfBits : UInt8) : Option (List Signal) := do
  let frame ← sendPulseDistanceWidthRawData acTiming data numberOfBits true
  pure ([.mark acHeaderMark, .space acHeaderSpace] ++ frame)

/-- The commit routine of the main program: stamp the clock, then transmit. -/
def onCommit : Fw Unit := do
  let tm ← localtime
  modifyWhirlpool (setClock tm)
  let data := (← whirlpool).m_data
  match emission data.toList 68 with
  | some signals => modify (World.transmit ⟨tm, data, 68, signals⟩)
  | none => throw .outOfBounds

/-- The commit route of the web server: commit, then answer with the whole state. -/
def restCommit : Fw Unit := do
  onCommit
  let ac ← whirlpool
  send (.response 200 ac.getJson)

/-- The signals of one frame. -/
def frameSignals (data : WhirlpoolYJ1BData) : List Signal :=
  [.mark acHeaderMark, .space acHeaderSpace] ++
    ((bitsFrom data.toList 0 68).flatMap acTiming.signals ++ [.mark acUnit])

/-- The nine bytes hold all 68 bits, so a commit always has signals to send. -/
theorem emission_frame (data : WhirlpoolYJ1BData) :
    emission data.toList 68 = some (frameSignals data) := by
  have fits : (68 : UInt8).toNat ≤ 8 * data.toList.length := by simp
  rw [emission, sendPulseDistanceWidthRawData_inside acTiming data.toList 68 true fits]
  rfl

/-- What a commit at a given time transmits. -/
def stamped (time : Tm) (ac : WhirlpoolYJ1B) : Transmission where
  time := time
  data := (setClock time ac).m_data
  numberOfBits := 68
  signals := frameSignals (setClock time ac).m_data

/-- A commit returns normally. It changes the clock fields of the controller and
transmits the stamped frame, once; the network is not involved. -/
@[simp] theorem onCommit_run (world : World) :
    onCommit world = .ok ()
      ((world.control (setClock world.now)).transmit (stamped world.now world.g_whirpool)) := by
  simp [onCommit, emission_frame, stamped]

end WhirlpoolAc.Firmware
