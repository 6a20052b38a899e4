import WhirlpoolAc.TopicGrammar
import WhirlpoolAc.PartialRuns

/-!
# Runs of the device

The device reacts to MQTT connections and messages, to the commit route of its web
server and to the commit key on the serial line, in any order, each at a local time
chosen by the surroundings. An exception that escapes a reaction resets the
processor and ends the run.

The step theorem states in one equation what a reaction does: whether it ends the
run, how it changes the controller, what it sends and what it transmits. Every
invariant of runs is derived from that equation.
-/

namespace WhirlpoolAc.DeviceRuns

open ByteStrings CxxLibrary FrameLayout AirConditioner Firmware MqttMessages CommandRequests
  TopicGrammar PartialRuns

/-- What can happen to a running device. A message arrives as a piece of `total`
bytes from position `index`; the two numbers are those of the delivery callback. -/
inductive Event where
  | connected (now : Tm)
  | message (now : Tm) (topic : CString) (payload : Bytes) (index total : Nat)
  | restCommit (now : Tm)
  | serialCommit (now : Tm)
deriving DecidableEq

/-- The local time of an event. -/
def Event.now : Event → Tm
  | .connected now => now
  | .message now _ _ _ _ => now
  | .restCommit now => now
  | .serialCommit now => now

/-- The routine that reacts to an event. -/
def handle (name : CString) : Event → Fw Unit
  | .connected _ => (controller name).onConnect
  | .message _ topic payload index total =>
      (controller name).onMessage topic payload payload.length index total
  | .restCommit _ => Firmware.restCommit
  | .serialCommit _ => Firmware.onCommit

/-- The state after a call that returned. -/
def returned : EStateM.Result Exn World Unit → Option World
  | .ok _ world => some world
  | .error _ _ => none

/-- One reaction at the time of its event; none when an exception escapes. -/
def step (name : CString) (world : World) (event : Event) : Option World :=
  returned (handle name event { world with now := event.now })

/-- The controller object is in static storage, which is cleared before its
constructor runs. The clock has not been set yet. -/
def powerOn : World where
  g_whirpool := AirConditioner.construct zeroFilled
  now := clock 0 0 0
  sent := []
  transmissions := []

/-- The verdict on an event, as far as the controller and the infrared line go. -/
def Event.request (name : CString) : Event → Request
  | .connected _ => .ignored
  | .message _ topic payload _ _ => verdict name topic payload
  | .restCommit _ => .commit
  | .serialCommit _ => .commit

/-- A command with its value in one piece of payload. -/
def order (name : CString) (now : Tm) (command : Command) (value : Bytes) : Event :=
  .message now (commandTopic name command) value 0 value.length

/-- An order is judged by its command and folded value. -/
@[simp] theorem order_request (name : CString) (now : Tm) (command : Command) (value : Bytes) :
    (order name now command value).request name = request command (lower value) :=
  verdict_commandTopic name command value

/-- The topic of a field. -/
def statusTopic (name : CString) (field : StatusField) : Bytes :=
  (controller name).m_device ++ (lit "/" ++ field.name)

/-- The topic of the whole state. -/
def jsonTopic (name : CString) : Bytes := (controller name).m_device ++ lit "/"

/-- The topic of commit reports. -/
def commitedTopic (name : CString) : Bytes := (controller name).m_device ++ lit "/commited"

/-- Fields have different topics. -/
@[simp] theorem statusTopic_inj (name : CString) (first second : StatusField) :
    statusTopic name first = statusTopic name second ↔ first = second := by
  constructor
  · intro same
    have words : first.name = second.name :=
      List.append_cancel_left (List.append_cancel_left same)
    revert words
    cases first <;> cases second <;> decide
  · rintro rfl
    rfl

/-- No field has the topic of the whole state. -/
@[simp] theorem statusTopic_ne_jsonTopic (name : CString) (field : StatusField) :
    statusTopic name field ≠ jsonTopic name := by
  intro same
  have word : lit "/" ++ field.name = lit "/" := List.append_cancel_left same
  revert word
  cases field <;> decide

/-- Neither a field nor the whole state shares the topic of commit reports. -/
@[simp] theorem commitedTopic_apart (name : CString) :
    (∀ field, statusTopic name field ≠ commitedTopic name) ∧
      jsonTopic name ≠ commitedTopic name := by
  constructor
  · intro field same
    have word : lit "/" ++ field.name = lit "/commited" := List.append_cancel_left same
    revert word
    cases field <;> decide
  · intro same
    have word : lit "/" = lit "/commited" := List.append_cancel_left same
    revert word
    decide

/-- The retained messages of a fresh connection, the whole state first. -/
def initialPackets (client : MqttClientForIR) (ac : WhirlpoolYJ1B) : List Packet :=
  jsonPacket client ac ::
    [StatusField.temperature, .light, .mode, .state, .fan, .swing, .jet, .sleep].map
      fun field => statusPacket client field ac

/-- What an event sends, given the changed controller. -/
def Event.packets (name : CString) : Event → WhirlpoolYJ1B → List Packet
  | .connected _, ac =>
      .subscribe ((controller name).m_device ++ lit "/cmd/#") 2 ::
        initialPackets (controller name) ac
  | .message _ topic payload _ _, ac =>
      (verdict name topic payload).packets (controller name) ac
  | .restCommit _, ac => [.response 200 ac.getJson]
  | .serialCommit _, _ => []

/-- The world after an event that does not end the run. -/
def after (name : CString) (event : Event) (world : World) : World where
  g_whirpool := (event.request name).change event.now world.g_whirpool
  now := event.now
  sent := world.sent ++
    event.packets name ((event.request name).change event.now world.g_whirpool)
  transmissions := world.transmissions ++ (event.request name).frames event.now world.g_whirpool

/-- A fresh connection publishes the whole state and then every field. -/
theorem sendInitValues_run (client : MqttClientForIR) (world : World) :
    client.sendInitValues world =
      .ok () (world.emit (initialPackets client world.g_whirpool)) := by
  have each (field : StatusField) (world : World) : publishField client field world =
      .ok () (world.emit [statusPacket client field world.g_whirpool]) :=
    publishField_run client field world
  have temperature := each .temperature
  have light := each .light
  have mode := each .mode
  have state := each .state
  have fan := each .fan
  have swing := each .swing
  have jet := each .jet
  have sleep := each .sleep
  simp only [publishField] at temperature light mode state fan swing jet sleep
  simp [MqttClientForIR.sendInitValues, publishStatus_run, temperature, light, mode, state, fan,
    swing, jet, sleep, initialPackets]

/-- A whole delivered piece is parsed as it is. -/
theorem onMessage_run (name topic : CString) (payload : Bytes) (index total : Nat)
    (world : World) :
    (controller name).onMessage topic payload payload.length index total world =
      perform (controller name) world (verdict name topic payload) := by
  rw [MqttClientForIR.onMessage, List.take_length, parseMessage_run]

/-- The reaction to a message, for each verdict on it. -/
theorem message_step (name topic : CString) (payload : Bytes) (index total : Nat) (now : Tm)
    (world : World) (request : Request) (decided : verdict name topic payload = request) :
    step name world (.message now topic payload index total) =
      if request = .overflow then none
      else some (after name (.message now topic payload index total) world) := by
  simp only [step, handle, onMessage_run, decided, Event.now]
  cases request with
  | ignored =>
    simp [returned, perform, after, Event.request, Event.packets, decided, Request.change,
      Request.frames, Request.packets, Event.now]
  | overflow => simp [returned, perform]
  | assign setting =>
    simp [returned, perform, assigned, after, Event.request, Event.packets, decided,
      Request.change, Request.frames, Request.packets, World.emit, World.control, Event.now]
  | commit =>
    simp [returned, perform, committed, after, Event.request, Event.packets, decided,
      Request.change, Request.frames, Request.packets, World.emit, World.control,
      World.transmit, Event.now]

/-- A reaction ends the run exactly when its numeral does not fit; otherwise it
leads to the described world. -/
theorem step_eq (name : CString) (world : World) (event : Event) :
    step name world event =
      if event.request name = .overflow then none else some (after name event world) := by
  cases event with
  | connected now =>
    simp [step, returned, handle, MqttClientForIR.onConnect, sendInitValues_run, after,
      Event.request, Event.packets, Request.change, Request.frames, World.emit, Event.now]
  | message now topic payload index total =>
    exact message_step name topic payload index total now world _ rfl
  | restCommit now =>
    simp [step, returned, handle, Firmware.restCommit, after, Event.request, Event.packets,
      Request.change, Request.frames, World.emit, World.control, World.transmit, Event.now]
  | serialCommit now =>
    simp [step, returned, handle, after, Event.request, Event.packets, Request.change,
      Request.frames, World.control, World.transmit, Event.now]

/-- A completed step leads to the described world, and its numeral did fit. -/
theorem step_some (name : CString) (world next : World) (event : Event)
    (stepped : step name world event = some next) :
    event.request name ≠ .overflow ∧ next = after name event world := by
  rw [step_eq] at stepped
  by_cases overflow : event.request name = .overflow
  · rw [if_pos overflow] at stepped
    cases stepped
  · rw [if_neg overflow] at stepped
    exact ⟨overflow, (Option.some.inj stepped).symm⟩

/-- A run completes exactly when no numeral of its messages fails to fit; it then
ends in the world that the reactions lead to one after the other. -/
theorem run_some_iff (name : CString) (world final : World) (events : List Event) :
    run (step name) world events = some final ↔
      (∀ event ∈ events, event.request name ≠ .overflow) ∧
        final = events.foldl (fun world event => after name event world) world := by
  induction events generalizing world with
  | nil => simp [run, eq_comm]
  | cons event events ih =>
    rw [run_cons, step_eq]
    by_cases overflow : event.request name = .overflow
    · simp [overflow]
    · simp [overflow, ih]

/-- The only way a reaction fails is the escaping exception of a numeral that does
not fit. In particular no reaction reads past an array. -/
theorem handle_error (name : CString) (event : Event) (world after : World) (exception : Exn)
    (failed : handle name event world = .error exception after) :
    exception = .outOfRange ∧ event.request name = .overflow := by
  cases event with
  | connected now =>
    simp [handle, MqttClientForIR.onConnect, sendInitValues_run] at failed
  | message now topic payload index total =>
    rw [handle, onMessage_run] at failed
    cases decided : verdict name topic payload with
    | ignored => simp [decided, perform] at failed
    | overflow =>
      simp only [decided, perform, EStateM.Result.error.injEq] at failed
      exact ⟨failed.1.symm, decided⟩
    | assign setting => simp [decided, perform] at failed
    | commit => simp [decided, perform] at failed
  | restCommit now => simp [handle, Firmware.restCommit] at failed
  | serialCommit now => simp [handle] at failed

end WhirlpoolAc.DeviceRuns
