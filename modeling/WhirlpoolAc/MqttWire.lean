import WhirlpoolAc.MqttPackets

/-!
# Packets of the server

What a server may send is a list of packets; what the client makes of them is defined
packet by packet, on the session alone. The parser refines this view: the bytes of any
packets, cut into segments anywhere, leave the client between two packets, with the
session and the effects that the packets ask for. Messages are written by the library's
own constructor for outgoing messages, so this is also the round trip of a message through
the two halves of the library.

Topics are limited twice. One that exceeds the buffer is skipped with its message. The
parser counts positions in a byte, so the header of a message must end within the first
256 bytes for that to work.
-/

namespace WhirlpoolAc.MqttReceiver

open ByteStrings PortionedStreams RemainingLength MqttPackets

/-- A message of the server. -/
structure Publication where
  topic : CString
  qos : Nat
  dup : Bool
  retain : Bool
  packetId : Nat
  payload : Bytes
deriving DecidableEq

/-- What a server sends. -/
inductive ServerPacket where
  | connAck (sessionPresent : Bool) (connectReturnCode : UInt8)
  | publish (message : Publication)
  | acknowledgement (kind : Acknowledgement) (packetId : Nat)
  | subAck (packetId : Nat) (status : UInt8)
  | pingResp
deriving DecidableEq

/-- The bytes of a message. -/
def Publication.encode (message : Publication) : Bytes :=
  let packet := PublishOutPacket message.topic message.qos message.retain (some message.payload)
    message.payload.length message.packetId
  if message.dup then packet.setDup.data else packet.data

/-- The type byte of an acknowledgement. -/
def Acknowledgement.header : Acknowledgement → UInt8
  | .pubAck => 0x40
  | .pubRec => 0x50
  | .pubRel => 0x62
  | .pubComp => 0x70
  | .unsubAck => 0xB0

/-- The bytes of a packet. -/
def ServerPacket.encode : ServerPacket → Bytes
  | .connAck sessionPresent connectReturnCode =>
      [0x20, 2, if sessionPresent then 1 else 0, connectReturnCode]
  | .publish message => message.encode
  | .acknowledgement kind packetId => kind.header :: 2 :: twoBytes packetId
  | .subAck packetId status => 0x90 :: 3 :: (twoBytes packetId ++ [status])
  | .pingResp => [0xD0, 0]

/-- Portions of single bytes. -/
def bytewise (bytes : Bytes) : List Bytes := bytes.map fun byte => [byte]

/-- The first byte is a portion of its own. -/
@[simp] theorem bytewise_cons (byte : UInt8) (bytes : Bytes) :
    bytewise (byte :: bytes) = [byte] :: bytewise bytes := rfl

/-- Joined bytes are cut like their parts. -/
@[simp] theorem bytewise_append (first second : Bytes) :
    bytewise (first ++ second) = bytewise first ++ bytewise second := List.map_append

/-- The portions joined are the bytes. -/
@[simp] theorem flatten_bytewise (bytes : Bytes) : (bytewise bytes).flatten = bytes := by
  induction bytes with
  | nil => rfl
  | cons byte rest ih => exact congrArg (byte :: ·) ih

/-- The portions of a packet: its bytes, but for the payload of a message, which is one. -/
def ServerPacket.portions : ServerPacket → List Bytes
  | .publish message =>
      bytewise (message.encode.take (message.encode.length - message.payload.length)) ++
        if message.payload = [] then [] else [message.payload]
  | packet => bytewise packet.encode

/-- The identifier that a message is reported with; one without quality of service has none. -/
def Publication.identifier (message : Publication) : Nat :=
  if message.qos = 0 then 0 else message.packetId

/-- The calls a packet asks for. A message whose topic exceeds the buffer asks for none. -/
def ServerPacket.calls (maxTopicLength : Nat) : ServerPacket → List Call
  | .connAck sessionPresent connectReturnCode => [.onConnAck sessionPresent connectReturnCode]
  | .publish message =>
      if message.topic.bytes.length > maxTopicLength then []
      else
        [.onMessage message.topic ⟨message.qos, message.dup, message.retain⟩ message.identifier
            message.payload 0 message.payload.length,
          .onPublish message.identifier message.qos]
  | .acknowledgement kind packetId => [.onAcknowledgement kind packetId]
  | .subAck packetId status => [.onSubAck packetId status]
  | .pingResp => [.onPingResp]

/-- A packet within the limits of the parser. A message has a topic, which together with the
identifier, if there is one, takes at most 254 bytes, and a payload that leaves room for the
longest header below the largest length; identifiers have sixteen bits. Other packets have no
limits. -/
def ServerPacket.WithinLimits : ServerPacket → Prop
  | .connAck _ _ | .pingResp => True
  | .publish message =>
      message.topic.bytes ≠ [] ∧ message.qos ≤ 2 ∧ message.packetId < 2 ^ 16 ∧
        message.topic.bytes.length + (if message.qos = 0 then 0 else 2) ≤ 254 ∧
        message.payload.length + 2 ^ 16 + 4 ≤ 2 ^ 28
  | .acknowledgement _ packetId | .subAck packetId _ => packetId < 2 ^ 16

/-- What the packets do to a session, with all their effects. -/
def Session.receive (maxTopicLength : Nat) (session : Session) (packets : List ServerPacket) :
    Session × List Effect :=
  session.reactAll (packets.flatMap (ServerPacket.calls maxTopicLength))

namespace AsyncMqttClient

/-- A client between two packets, with its buffers allocated. -/
structure Idle (client : AsyncMqttClient) : Prop where
  between : client.parsingInformation.bufferState = .NONE
  position : client.remainingLengthBufferPosition = 0
  lengthBuffer : client.remainingLengthBuffer.length = 4
  topicBuffer : client.parsingInformation.topicBuffer.length =
    client.parsingInformation.maxTopicLength + 1

/-- A client between two packets that may have lost its connection inside of a length: what
is left of the length bytes has the mark. -/
structure Ready (client : AsyncMqttClient) : Prop where
  between : client.parsingInformation.bufferState = .NONE
  position : client.remainingLengthBufferPosition ≤ 3
  lengthBuffer : client.remainingLengthBuffer.length = 4
  marked : ∀ byte ∈ client.remainingLengthBuffer.take client.remainingLengthBufferPosition,
    Continues byte
  topicBuffer : client.parsingInformation.topicBuffer.length =
    client.parsingInformation.maxTopicLength + 1

/-- An idle client is ready. -/
theorem Idle.ready {client : AsyncMqttClient} (idle : Idle client) : Ready client where
  between := idle.between
  position := idle.position.trans_le (Nat.zero_le 3)
  lengthBuffer := idle.lengthBuffer
  marked := by simp [idle.position]
  topicBuffer := idle.topicBuffer

/-- The longest topic that fits. -/
def maxTopicLength (client : AsyncMqttClient) : Nat := client.parsingInformation.maxTopicLength

/-- Inside of a packet, the client reads some portions with their effects. -/
abbrev Takes (client : AsyncMqttClient) (portions : List Bytes) (next : AsyncMqttClient)
    (effects : List Effect) : Prop := Consumes innerRound client portions next effects

/-- A byte in front of other portions, if its round does not depend on what follows. -/
theorem Takes.cons {client middle next : AsyncMqttClient} {first : UInt8}
    {portions : List Bytes} {effects later : List Effect}
    (within : client.parsingInformation.bufferState ≠ .NONE)
    (result : ∀ rest, round client (first :: rest) = some (tookOne (middle, effects)))
    (continues : middle.Takes portions next later) :
    client.Takes ([first] :: portions) next (effects ++ later) :=
  Consumes.cons (List.cons_ne_nil first [])
    (fun rest => (innerRound_eq client _ within).trans (result rest)) continues

/-- A byte alone. -/
theorem Takes.byte {client next : AsyncMqttClient} {first : UInt8} {effects : List Effect}
    (within : client.parsingInformation.bufferState ≠ .NONE)
    (result : ∀ rest, round client (first :: rest) = some (tookOne (next, effects))) :
    client.Takes [[first]] next effects := by
  have one := Takes.cons within result (.nil next)
  rw [List.append_nil] at one
  exact one

/-- The client in the length of a packet that it has just begun. -/
def begun (client : AsyncMqttClient) (first : UInt8) (packet : Packet) : AsyncMqttClient :=
  { client with
    currentParsedPacket := some packet
    parsingInformation := { client.parsingInformation with
      packetType := first.toNat >>> 4, packetFlags := first.toNat,
      bufferState := .REMAINING_LENGTH } }

/-- The type byte begins a packet. -/
theorem round_begun (client : AsyncMqttClient) (first : UInt8) (packet : Packet)
    (between : client.parsingInformation.bufferState = .NONE)
    (known : newPacket (first.toNat >>> 4) first.toNat = some packet) :
    ∀ rest, round client (first :: rest) = some (tookOne (client.begun first packet, [])) := by
  intro rest
  rw [round_type client first rest between]
  simp only [receiveType, known]
  rfl

/-- The client with other contents of its length buffer. -/
def counting (client : AsyncMqttClient) (buffer : Bytes) (position : Nat) : AsyncMqttClient :=
  { client with remainingLengthBuffer := buffer, remainingLengthBufferPosition := position }

/-- Length bytes with the mark are stored one behind the other. Induction on the bytes. -/
theorem takes_marked (client : AsyncMqttClient) (marked tail : Bytes) (done : Bytes)
    (phase : client.parsingInformation.bufferState = .REMAINING_LENGTH)
    (stored : client.remainingLengthBuffer = done ++ tail)
    (position : client.remainingLengthBufferPosition = done.length)
    (room : marked.length ≤ tail.length) (continues : ∀ byte ∈ marked, Continues byte) :
    client.Takes (bytewise marked)
      (client.counting (done ++ marked ++ tail.drop marked.length) (done ++ marked).length)
      [] := by
  induction marked generalizing client done tail with
  | nil =>
    have same : client.counting (done ++ [] ++ tail.drop 0) (done ++ []).length = client := by
      simp [counting, ← stored, ← position]
    rw [List.length_nil, same]
    exact .nil client
  | cons byte rest ih =>
    obtain ⟨first, others⟩ := List.forall_mem_cons.mp continues
    cases tail with
    | nil => simp at room
    | cons free tail =>
      have inside : client.remainingLengthBufferPosition < client.remainingLengthBuffer.length := by
        rw [position, stored]
        simp
      have result (bytes : Bytes) : round client (byte :: bytes) =
          some (tookOne (client.counting (done ++ byte :: tail) (done.length + 1), [])) := by
        rw [round_length client byte bytes phase, receiveLength, if_pos inside, if_pos first]
        simp [counting, stored, position]
      have later := ih (client.counting (done ++ byte :: tail) (done.length + 1)) tail
        (done ++ [byte]) phase (by simp [counting]) (by simp [counting])
        (by simpa using room) others
      have all := Takes.cons (phase.trans_ne (by decide)) result later
      simpa [counting] using all

/-- The client in the header of a packet of known length. -/
def measured (client : AsyncMqttClient) (buffer : Bytes) (remainingLength : Nat) :
    AsyncMqttClient :=
  { client with
    remainingLengthBuffer := buffer, remainingLengthBufferPosition := 0
    parsingInformation := { client.parsingInformation with
      remainingLength, bufferState := .VARIABLE_HEADER } }

/-- The bytes of a length that is not zero lead to the header. -/
theorem takes_length (client : AsyncMqttClient) (remainingLength : Nat)
    (phase : client.parsingInformation.bufferState = .REMAINING_LENGTH)
    (start : client.remainingLengthBufferPosition = 0)
    (size : client.remainingLengthBuffer.length = 4) (positive : 0 < remainingLength)
    (small : remainingLength < 2 ^ 28) :
    ∃ buffer, buffer.length = 4 ∧
      client.Takes (bytewise (encodeRemainingLength remainingLength))
        (client.measured buffer remainingLength) [] := by
  obtain ⟨front, last, shape, continues, plain, short⟩ := encode_shape remainingLength small
  have marks := takes_marked client front client.remainingLengthBuffer [] phase rfl start
    (by omega) continues
  rw [List.nil_append] at marks
  obtain ⟨free, tail, rest⟩ : ∃ free tail, client.remainingLengthBuffer.drop front.length =
      free :: tail := by
    apply List.exists_cons_of_ne_nil
    intro empty
    have none_left := List.drop_eq_nil_iff.mp empty
    omega
  rw [rest] at marks
  have sized : (front ++ last :: tail).length = 4 := by
    have dropped := congrArg List.length rest
    rw [List.length_drop, List.length_cons] at dropped
    rw [List.length_append, List.length_cons]
    omega
  have decoded : decodeRemainingLength (front ++ last :: tail) = some remainingLength := by
    have read := decode_encode remainingLength tail (by omega)
    rw [shape, List.append_assoc] at read
    exact read
  refine ⟨front ++ last :: tail, sized, ?_⟩
  have result (bytes : Bytes) :
      round (client.counting (front ++ free :: tail) front.length) (last :: bytes) =
        some (tookOne (client.measured (front ++ last :: tail) remainingLength, [])) := by
    rw [round_length (client.counting (front ++ free :: tail) front.length) last bytes phase,
      receiveLength]
    simp [counting, plain, decoded, positive, measured, enter]
  rw [shape, bytewise_append]
  have within : (client.counting (front ++ free :: tail)
      front.length).parsingInformation.bufferState ≠ .NONE := phase.trans_ne (by decide)
  exact marks.append (Takes.byte within result)

/-- A length of one digit that is not zero leads to the header even behind what is left of
another length, though it is not read as that digit then. -/
theorem takes_digit (client : AsyncMqttClient) (digit : UInt8) (positive : 0 < digit.toNat)
    (plain : ¬ Continues digit)
    (phase : client.parsingInformation.bufferState = .REMAINING_LENGTH)
    (position : client.remainingLengthBufferPosition ≤ 3)
    (size : client.remainingLengthBuffer.length = 4)
    (marked : ∀ byte ∈ client.remainingLengthBuffer.take client.remainingLengthBufferPosition,
      Continues byte) :
    ∃ buffer remainingLength, buffer.length = 4 ∧
      client.Takes [[digit]] (client.measured buffer remainingLength) [] := by
  have inRange : client.remainingLengthBufferPosition < client.remainingLengthBuffer.length := by
    omega
  obtain ⟨remainingLength, decoded, present⟩ := decodeRounds_pos _ digit
    (client.remainingLengthBuffer.drop (client.remainingLengthBufferPosition + 1)) 0 0 marked
    positive plain (by simp [position]) Nat.one_pos
  have stored : client.remainingLengthBuffer.set client.remainingLengthBufferPosition digit =
      client.remainingLengthBuffer.take client.remainingLengthBufferPosition ++
        digit :: client.remainingLengthBuffer.drop (client.remainingLengthBufferPosition + 1) := by
    rw [List.set_eq_take_append_cons_drop, if_pos inRange]
  rw [← stored] at decoded
  refine ⟨client.remainingLengthBuffer.set client.remainingLengthBufferPosition digit,
    remainingLength, by rw [List.length_set, size], ?_⟩
  have result (bytes : Bytes) : round client (digit :: bytes) =
      some (tookOne (client.measured (client.remainingLengthBuffer.set
        client.remainingLengthBufferPosition digit) remainingLength, [])) := by
    have read : decodeRemainingLength (client.remainingLengthBuffer.set
        client.remainingLengthBufferPosition digit) = some remainingLength := decoded
    rw [round_length client digit bytes phase, receiveLength]
    simp [inRange, plain, read, present, measured, enter]
  exact Takes.byte (phase.trans_ne (by decide)) result

/-- The client behind a packet: idle, with the session the packet leads to and all else as
it was. -/
structure Follows (client next : AsyncMqttClient) (session : Session) : Prop where
  idle : Idle next
  session : next.session = session
  limit : next.maxTopicLength = client.maxTopicLength
  connection : next.connectionOpen = client.connectionOpen

/-- A packet is read to its end, at which the client is between two packets for the first
time again, and has the effects it asks for. -/
def Handles (client : AsyncMqttClient) (packet : ServerPacket) : Prop :=
  ∃ first rest object next, packet.portions = [first] :: rest ∧
    newPacket (first.toNat >>> 4) first.toNat = some object ∧
    (client.begun first object).Takes rest next
      (client.session.reactAll (packet.calls client.maxTopicLength)).2 ∧
    client.Follows next (client.session.reactAll (packet.calls client.maxTopicLength)).1

/-- The calls that end a packet leave an idle client. -/
theorem follows_calls (client : AsyncMqttClient) (first : UInt8) (packet other : Packet)
    (buffer : Bytes) (remainingLength : Nat) (size : buffer.length = 4)
    (room : client.parsingInformation.topicBuffer.length =
      client.parsingInformation.maxTopicLength + 1) (made : List Call) :
    client.Follows
      (((((client.begun first packet).measured buffer remainingLength).hold other).enter
        .NONE).calls made).1 (client.session.reactAll made).1 :=
  ⟨⟨rfl, rfl, size, room⟩, rfl, rfl, rfl⟩

/-- Two bytes denote the number they were made of. -/
theorem twoBytes_read (number : Nat) (small : number < 2 ^ 16) :
    ∃ high low : UInt8, twoBytes number = [high, low] ∧
      low.toNat ||| high.toNat <<< 8 = number := by
  refine ⟨_, _, rfl, ?_⟩
  have high : (UInt8.ofNat (number >>> 8)).toNat = number / 256 := by
    rw [UInt8.toNat_ofNat', Nat.shiftRight_eq_div_pow]
    omega
  have low : (UInt8.ofNat (number &&& 0xFF)).toNat = number % 256 := by
    have masked : number &&& 0xFF = number % 2 ^ 8 := Nat.and_two_pow_sub_one_eq_mod number 8
    rw [UInt8.toNat_ofNat', masked]
    omega
  have digit : number % 256 < 2 ^ 8 := by omega
  rw [high, low, Nat.or_comm, ← Nat.shiftLeft_add_eq_or_of_lt digit, Nat.shiftLeft_eq]
  omega

/-- The answer to a connection request, also as the first packet of a new connection. -/
theorem handles_connAck (client : AsyncMqttClient) (ready : Ready client)
    (sessionPresent : Bool) (connectReturnCode : UInt8) :
    client.Handles (.connAck sessionPresent connectReturnCode) := by
  let begun := client.begun 0x20 (.connAck 0 false)
  obtain ⟨buffer, remainingLength, size, header⟩ := takes_digit begun 2 (by decide) (by decide)
    rfl ready.position ready.lengthBuffer ready.marked
  let flag : UInt8 := if sessionPresent then 1 else 0
  let opened := begun.measured buffer remainingLength
  have present : decide (flag ≠ 0) = sessionPresent := by
    cases sessionPresent <;> rfl
  have second (rest : Bytes) : round opened (flag :: rest) =
      some (tookOne (opened.hold (.connAck 1 sessionPresent), [])) := by
    rw [← present]
    rfl
  have last (rest : Bytes) :
      round (opened.hold (.connAck 1 sessionPresent)) (connectReturnCode :: rest) =
      some (tookOne (((opened.hold (.connAck 1 sessionPresent)).enter .NONE).calls
        [.onConnAck sessionPresent connectReturnCode])) := rfl
  refine ⟨0x20, _, .connAck 0 false, _, rfl, rfl, ?_,
    follows_calls client 0x20 (.connAck 0 false) (.connAck 1 sessionPresent) buffer
      remainingLength size ready.topicBuffer [.onConnAck sessionPresent connectReturnCode]⟩
  have takes := header.append
    (Takes.cons BufferState.noConfusion second (Takes.byte BufferState.noConfusion last))
  exact takes

/-- An acknowledgement. -/
theorem handles_acknowledgement (client : AsyncMqttClient) (idle : Idle client)
    (kind : Acknowledgement) (packetId : Nat) (small : packetId < 2 ^ 16) :
    client.Handles (.acknowledgement kind packetId) := by
  have known : newPacket (kind.header.toNat >>> 4) kind.header.toNat =
      some (.acknowledgement kind 0 0) := by
    cases kind <;> rfl
  let begun := client.begun kind.header (.acknowledgement kind 0 0)
  obtain ⟨buffer, size, header⟩ := takes_length begun 2 rfl idle.position idle.lengthBuffer
    (by decide) (by decide)
  obtain ⟨high, low, bytes, number⟩ := twoBytes_read packetId small
  let opened := begun.measured buffer 2
  have second (rest : Bytes) : round opened (high :: rest) =
      some (tookOne (opened.hold (.acknowledgement kind 1 high.toNat), [])) := rfl
  have last (rest : Bytes) :
      round (opened.hold (.acknowledgement kind 1 high.toNat)) (low :: rest) =
      some (tookOne (((opened.hold (.acknowledgement kind 1 high.toNat)).enter .NONE).calls
        [.onAcknowledgement kind packetId])) := by
    rw [← number]
    rfl
  refine ⟨kind.header, bytewise (encodeRemainingLength 2 ++ ([high] ++ [low])), _, _, ?_, known, ?_,
    follows_calls client kind.header (.acknowledgement kind 0 0)
      (.acknowledgement kind 1 high.toNat) buffer 2 size idle.topicBuffer
      [.onAcknowledgement kind packetId]⟩
  · show bytewise (kind.header :: 2 :: twoBytes packetId) = _
    rw [bytes]
    rfl
  · have takes := header.append
      (Takes.cons BufferState.noConfusion second (Takes.byte BufferState.noConfusion last))
    exact takes

/-- The answer to a subscription. -/
theorem handles_subAck (client : AsyncMqttClient) (idle : Idle client) (packetId : Nat)
    (status : UInt8) (small : packetId < 2 ^ 16) : client.Handles (.subAck packetId status) := by
  let begun := client.begun 0x90 (.subAck 0 0 0)
  obtain ⟨buffer, size, header⟩ := takes_length begun 3 rfl idle.position idle.lengthBuffer
    (by decide) (by decide)
  obtain ⟨high, low, bytes, number⟩ := twoBytes_read packetId small
  let opened := begun.measured buffer 3
  have second (rest : Bytes) : round opened (high :: rest) =
      some (tookOne (opened.hold (.subAck 1 high.toNat 0), [])) := rfl
  let paid := (opened.enter .PAYLOAD).hold (.subAck 2 high.toNat packetId)
  have third (rest : Bytes) :
      round (opened.hold (.subAck 1 high.toNat 0)) (low :: rest) = some (tookOne (paid, [])) := by
    show _ = some (tookOne ((opened.enter .PAYLOAD).hold (.subAck 2 high.toNat packetId), []))
    rw [← number]
    rfl
  have last (rest : Bytes) : round paid (status :: rest) =
      some (tookOne ((paid.enter .NONE).calls [.onSubAck packetId status])) := rfl
  refine ⟨0x90, bytewise (encodeRemainingLength 3 ++ ([high] ++ ([low] ++ [status]))),
    .subAck 0 0 0, _, ?_, rfl, ?_,
    follows_calls client 0x90 (.subAck 0 0 0) (.subAck 2 high.toNat packetId) buffer 3
      size idle.topicBuffer [.onSubAck packetId status]⟩
  · show bytewise (0x90 :: 3 :: (twoBytes packetId ++ [status])) = _
    rw [bytes]
    rfl
  · have takes := header.append
      (Takes.cons BufferState.noConfusion second
        (Takes.cons BufferState.noConfusion third (Takes.byte BufferState.noConfusion last)))
    exact takes

/-- The answer to a ping has no header. -/
theorem handles_pingResp (client : AsyncMqttClient) (idle : Idle client) :
    client.Handles .pingResp := by
  obtain ⟨oldest, rest, buffer⟩ : ∃ oldest rest, client.remainingLengthBuffer = oldest :: rest := by
    apply List.exists_cons_of_ne_nil
    intro empty
    have size := idle.lengthBuffer
    rw [empty] at size
    cases size
  let opened := client.begun 0xD0 .pingResp
  have last (behind : Bytes) : round opened (0 :: behind) =
      some (tookOne (((opened.measured (0 :: rest) 0).enter .NONE).calls [.onPingResp])) := by
    rw [round_length opened 0 _ rfl, receiveLength]
    have decoded : decodeRemainingLength (0 :: rest) = some 0 := rfl
    have plain : ¬ Continues 0 := by decide
    simp [opened, begun, idle.position, buffer, plain, decoded, measured, enter]
  have size : (0 :: rest : Bytes).length = 4 := by
    rw [List.length_cons, ← List.length_cons (a := oldest), ← buffer, idle.lengthBuffer]
  exact ⟨0xD0, [[0]], .pingResp, _, rfl, rfl, Takes.byte BufferState.noConfusion last,
    follows_calls client 0xD0 .pingResp .pingResp (0 :: rest) 0 size idle.topicBuffer
      [.onPingResp]⟩

end AsyncMqttClient

end WhirlpoolAc.MqttReceiver
