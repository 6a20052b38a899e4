import WhirlpoolAc.MqttSession
import WhirlpoolAc.RecordRefinement

/-!
# From the wire to the air conditioner

The client and the controller on one board: segments of the server's stream, the commit
route and the commit key come in any order. What the client reports runs through the
controller before the next input.

The stream may be cut anywhere but inside of a payload. The board then does what the
abstract device does with the messages that are heeded: all whose topic fits, but a message
of the highest quality of service only if its identifier does not wait for its release.
-/

namespace WhirlpoolAc.MqttDevice

open ByteStrings PortionedStreams PartialRuns AirConditioner Firmware TopicGrammar DeviceRuns
  AbstractDevice RecordRefinement MqttReceiver

/-- What a report of the client is for the controller. -/
def eventOf (now : Tm) : Effect → Option Event
  | .onConnect _ => some (.connected now)
  | .onMessage topic _ payload index total => some (.message now topic payload index total)
  | _ => none

/-- What can reach the board. -/
inductive Input where
  | segment (now : Tm) (bytes : Bytes)
  | restCommit (now : Tm)
  | serialCommit (now : Tm)
deriving DecidableEq

/-- The bytes of a segment. -/
def Input.segment? : Input → Option Bytes
  | .segment _ bytes => some bytes
  | _ => none

/-- A commit at the board. -/
def Input.local? : Input → Option Event
  | .segment _ _ => none
  | .restCommit now => some (.restCommit now)
  | .serialCommit now => some (.serialCommit now)

/-- The library client and the program behind it. -/
structure Board where
  client : AsyncMqttClient
  world : World

/-- One input. -/
def Board.step (name : CString) (board : Board) : Input → Option Board
  | .segment now bytes => do
      let (client, effects) ← board.client.onData [bytes]
      let world ← run (DeviceRuns.step name) board.world (effects.filterMap (eventOf now))
      pure ⟨client, world⟩
  | .restCommit now =>
      (DeviceRuns.step name board.world (.restCommit now)).map fun world => ⟨board.client, world⟩
  | .serialCommit now =>
      (DeviceRuns.step name board.world (.serialCommit now)).map fun world => ⟨board.client, world⟩

/-- The message of an event. -/
def messageOf : Event → Option (CString × Bytes)
  | .message _ topic payload _ _ => some (topic, payload)
  | _ => none

/-- The message of a report. -/
def reportOf : Effect → Option (CString × Bytes)
  | .onMessage topic _ payload _ _ => some (topic, payload)
  | _ => none

/-- An event that did not come over MQTT. -/
def localOf : Event → Option Event
  | .connected _ | .message _ _ _ _ _ => none
  | event => some event

/-- The messages that are heeded, given the identifiers that wait. -/
def heeded (maxTopicLength : Nat) : List Nat → List ServerPacket → List Publication
  | _, [] => []
  | waiting, .publish message :: rest =>
      if message.topic.bytes.length > maxTopicLength then heeded maxTopicLength waiting rest
      else if message.qos = 2 then
        if message.packetId ∈ waiting then heeded maxTopicLength waiting rest
        else message :: heeded maxTopicLength (waiting ++ [message.packetId]) rest
      else message :: heeded maxTopicLength waiting rest
  | waiting, .acknowledgement .pubRel packetId :: rest =>
      heeded maxTopicLength (waiting.filter fun entry => entry ≠ packetId) rest
  | _, .connAck false _ :: rest => heeded maxTopicLength [] rest
  | waiting, _ :: rest => heeded maxTopicLength waiting rest

/-- A temperature that a message carries has the agreed form. -/
def ProperMessage (name : CString) (message : Publication) : Prop :=
  ∀ value, addressed name message.topic message.payload = some (lit "temperature", value) →
    RecordRefinement.Proper (lower value)

/-- The reports of a segment as events. -/
theorem events_of_reports (now : Tm) (effects : List Effect) :
    (effects.filterMap (eventOf now)).filterMap messageOf = effects.filterMap reportOf ∧
      (effects.filterMap (eventOf now)).filterMap localOf = [] := by
  rw [List.filterMap_filterMap, List.filterMap_filterMap]
  constructor
  · congr 1
    funext effect
    cases effect <;> rfl
  · rw [List.filterMap_eq_nil_iff]
    intro effect _
    cases effect <;> rfl

/-- The parser and the controller apart: what the parser reports of all segments runs
through the controller, with the commits at the board in between. Induction on the inputs. -/
theorem board_run (name : CString) (client next : AsyncMqttClient) (inputs : List Input)
    (effects : List Effect)
    (parsed : client.onData (inputs.filterMap Input.segment?) = some (next, effects)) :
    ∃ events : List Event, events.filterMap messageOf = effects.filterMap reportOf ∧
      events.filterMap localOf = inputs.filterMap Input.local? ∧
      ∀ world, run (Board.step name) ⟨client, world⟩ inputs =
        (run (DeviceRuns.step name) world events).map fun final => ⟨next, final⟩ := by
  induction inputs generalizing client effects with
  | nil =>
    cases parsed
    exact ⟨[], rfl, rfl, fun world => rfl⟩
  | cons input rest ih =>
    have local_input (event : Event) (shared : Input.local? input = some event)
        (silent : Input.segment? input = none) (own : localOf event = some event)
        (wordless : messageOf event = none)
        (steps : ∀ world, Board.step name ⟨client, world⟩ input =
          (DeviceRuns.step name world event).map fun final => ⟨client, final⟩) :
        ∃ events : List Event, events.filterMap messageOf = effects.filterMap reportOf ∧
          events.filterMap localOf = (input :: rest).filterMap Input.local? ∧
          ∀ world, run (Board.step name) ⟨client, world⟩ (input :: rest) =
            (run (DeviceRuns.step name) world events).map fun final => ⟨next, final⟩ := by
      rw [List.filterMap_cons_none silent] at parsed
      obtain ⟨events, messages, locals, runs⟩ := ih client effects parsed
      refine ⟨event :: events, ?_, ?_, fun world => ?_⟩
      · rw [List.filterMap_cons_none wordless, messages]
      · rw [List.filterMap_cons_some own, List.filterMap_cons_some shared, locals]
      · rw [run, steps, run]
        cases DeviceRuns.step name world event with
        | none => rfl
        | some middle => exact runs middle
    cases input with
    | restCommit now => exact local_input (.restCommit now) rfl rfl rfl rfl fun world => rfl
    | serialCommit now => exact local_input (.serialCommit now) rfl rfl rfl rfl fun world => rfl
    | segment now bytes =>
      have front_segment : (Input.segment now bytes :: rest).filterMap Input.segment? =
          bytes :: rest.filterMap Input.segment? := rfl
      rw [front_segment, AsyncMqttClient.onData, segments] at parsed
      obtain ⟨⟨middle, first⟩, front, back⟩ := Option.bind_eq_some_iff.mp parsed
      obtain ⟨⟨last, later⟩, others, same⟩ := Option.map_eq_some_iff.mp back
      cases same
      obtain ⟨events, messages, locals, runs⟩ := ih middle later others
      obtain ⟨reports, silent⟩ := events_of_reports now first
      refine ⟨first.filterMap (eventOf now) ++ events, ?_, ?_, fun world => ?_⟩
      · rw [List.filterMap_append, reports, messages, List.filterMap_append]
      · rw [List.filterMap_append, silent, locals]
        rfl
      · have alone : client.onData [bytes] = some (middle, first) := by
          rw [AsyncMqttClient.onData, segments, front]
          simp [segments]
        rw [run, run_append]
        simp only [Board.step, alone, Option.bind_eq_bind, Option.bind_some]
        cases run (DeviceRuns.step name) world (first.filterMap (eventOf now)) with
        | none => rfl
        | some after => exact runs after

/-- One packet: the messages it reports, and those that are heeded from it on. -/
theorem reports_packet (maxTopicLength : Nat) (session : Session) (packet : ServerPacket)
    (distinct : session.pendingPubRels.Nodup) (rest : List ServerPacket) :
    let reaction := session.reactAll (packet.calls maxTopicLength)
    reaction.2.filterMap reportOf ++
        (heeded maxTopicLength reaction.1.pendingPubRels rest).map
          (fun message => (message.topic, message.payload)) =
      (heeded maxTopicLength session.pendingPubRels (packet :: rest)).map
        fun message => (message.topic, message.payload) := by
  cases packet with
  | connAck sessionPresent connectReturnCode =>
    cases sessionPresent <;> by_cases accepted : connectReturnCode = 0 <;>
      simp [ServerPacket.calls, Session.reactAll, Session.react, Session.onConnAck, accepted,
        heeded, reportOf]
  | publish message =>
    by_cases long : message.topic.bytes.length > maxTopicLength
    · simp [ServerPacket.calls, long, Session.reactAll, heeded]
    · by_cases highest : message.qos = 2
      · have identified : message.identifier = message.packetId := by
          simp [Publication.identifier, highest]
        by_cases waiting : message.packetId ∈ session.pendingPubRels
        · simp [ServerPacket.calls, long, Session.reactAll, Session.react, Session.onMessage,
            Session.onPublish, highest, identified, waiting, heeded, reportOf]
        · simp [ServerPacket.calls, long, Session.reactAll, Session.react, Session.onMessage,
            Session.onPublish, highest, identified, waiting, heeded, reportOf]
      · by_cases one : message.qos = 1
        · simp [ServerPacket.calls, long, Session.reactAll, Session.react, Session.onMessage,
            Session.onPublish, one, heeded, reportOf]
        · simp [ServerPacket.calls, long, Session.reactAll, Session.react, Session.onMessage,
            Session.onPublish, one, highest, heeded, reportOf]
  | acknowledgement kind released =>
    cases kind with
    | pubRel =>
      have erased := eraseLoop_eq_filter released session.pendingPubRels distinct
      simp [ServerPacket.calls, Session.reactAll, Session.react, Session.onPubRel, erased, heeded,
        reportOf]
    | _ =>
      simp [ServerPacket.calls, Session.reactAll, Session.react, Session.onUnsubAck,
        Session.onPubAck, Session.onPubRec, Session.onPubComp, heeded, reportOf]
  | subAck acknowledged status =>
    simp [ServerPacket.calls, Session.reactAll, Session.react, Session.onSubAck, heeded, reportOf]
  | pingResp => simp [ServerPacket.calls, Session.reactAll, Session.react, heeded]

/-- The client reports the heeded messages. Induction on the packets. -/
theorem reports_heeded (maxTopicLength : Nat) (session : Session) (packets : List ServerPacket)
    (distinct : session.pendingPubRels.Nodup) :
    (session.receive maxTopicLength packets).2.filterMap reportOf =
      (heeded maxTopicLength session.pendingPubRels packets).map
        fun message => (message.topic, message.payload) := by
  induction packets generalizing session with
  | nil => rfl
  | cons packet rest ih =>
    have here := reports_packet maxTopicLength session packet distinct rest
    have kept := (react_pending maxTopicLength 0 session packet distinct).1
    have later := ih _ kept
    have whole := AsyncMqttClient.reactAll_append session (packet.calls maxTopicLength)
      (rest.flatMap (ServerPacket.calls maxTopicLength))
    rw [Session.receive, List.flatMap_cons, whole, List.filterMap_append, ← here]
    exact congrArg (_ ++ ·) later

end WhirlpoolAc.MqttDevice
