import WhirlpoolAc.PortionedStreams
import WhirlpoolAc.RemainingLength

/-!
# The receiving side of the MQTT library

The library parses what the network hands over byte by byte and keeps the state of the
parser between two segments; only a payload is passed on in pieces as long as the segment
allows. A parsed packet calls the client, which changes its session, notifies the program
and works on its queue of outgoing packets. What becomes visible outside of the receiving
side is recorded as effects, in order.

Characters are unsigned on the target. Positions inside a packet have eight bits, as in
the packet classes. Stamps of the last activity are left out, since only the keep-alive
poll reads them.
-/

namespace WhirlpoolAc.MqttReceiver

open ByteStrings PortionedStreams RemainingLength

/-- `_state`, the states of a connection. -/
inductive ConnectionState where
  | CONNECTING | CONNECTED | DISCONNECTING | DISCONNECTED
deriving DecidableEq, Repr

/-- What the next byte belongs to. -/
inductive BufferState where
  | NONE | REMAINING_LENGTH | VARIABLE_HEADER | PAYLOAD
deriving DecidableEq, Repr

/-- The data of an acknowledgement that is still to be sent. -/
structure PendingAck where
  packetType : Nat
  headerFlag : Nat
  packetId : Nat
deriving DecidableEq, Repr

/-- The properties a message is passed on with. -/
structure MessageProperties where
  qos : Nat
  dup : Bool
  retain : Bool
deriving DecidableEq, Repr

/-- The packet classes that hold nothing but a packet identifier. -/
inductive Acknowledgement where
  | unsubAck | pubAck | pubRec | pubRel | pubComp
deriving DecidableEq, Repr

/-- The calls of packets on the client. -/
inductive Call where
  | onConnAck (sessionPresent : Bool) (connectReturnCode : UInt8)
  | onPingResp
  | onSubAck (packetId : Nat) (status : UInt8)
  | onAcknowledgement (kind : Acknowledgement) (packetId : Nat)
  | onMessage (topic : CString) (properties : MessageProperties) (packetId : Nat)
      (payload : Bytes) (index total : Nat)
  | onPublish (packetId qos : Nat)

/-- What a call makes visible: a callback of the program, or an operation on the queue of
outgoing packets. Two of those depend on the head of the queue: `release` marks it as
acknowledged if it has the identifier, `answer` does so and inserts a packet behind it. -/
inductive Effect where
  | onConnect (sessionPresent : Bool)
  | onDisconnect
  | onSubscribe (packetId : Nat) (status : UInt8)
  | onUnsubscribe (packetId : Nat)
  | onMessage (topic : CString) (properties : MessageProperties) (payload : Bytes)
      (index total : Nat)
  | onPublish (packetId : Nat)
  | clearQueue (keepSessionData : Bool)
  | addBack (ack : PendingAck)
  | release (packetId : Nat)
  | answer (ack : PendingAck)
  | insert (ack : PendingAck)
  | handleQueue
deriving DecidableEq

/-- What a client remembers of its session while packets come in. -/
structure Session where
  state : ConnectionState
  pendingPubRels : List Nat
deriving DecidableEq, Repr

namespace Session

variable (session : Session)

/-- A session that is not present any more is forgotten. -/
def onConnAck (sessionPresent : Bool) (connectReturnCode : UInt8) : Session × List Effect :=
  let kept := if sessionPresent then session else { session with pendingPubRels := [] }
  let cleared := if sessionPresent then [] else [Effect.clearQueue false]
  if connectReturnCode = 0 then
    ({ kept with state := .CONNECTED }, cleared ++ [.onConnect sessionPresent, .handleQueue])
  else (kept, cleared)

/-- A subscription is confirmed. -/
def onSubAck (packetId : Nat) (status : UInt8) : Session × List Effect :=
  (session, [.release packetId, .onSubscribe packetId status, .handleQueue])

/-- An unsubscription is confirmed. -/
def onUnsubAck (packetId : Nat) : Session × List Effect :=
  (session, [.release packetId, .onUnsubscribe packetId, .handleQueue])

/-- A piece of a message. A message that waits for its release has been passed on before. -/
def onMessage (topic : CString) (properties : MessageProperties) (packetId : Nat)
    (payload : Bytes) (index total : Nat) : Session × List Effect :=
  if properties.qos = 2 ∧ packetId ∈ session.pendingPubRels then (session, [])
  else (session, [.onMessage topic properties payload index total])

/-- The end of a message. It is acknowledged, and one of the highest quality of service
waits for its release from then on. -/
def onPublish (packetId qos : Nat) : Session × List Effect :=
  if qos = 1 then (session, [.addBack ⟨4, 0x00, packetId⟩])
  else if qos = 2 then
    let pending :=
      if packetId ∈ session.pendingPubRels then session.pendingPubRels
      else session.pendingPubRels ++ [packetId]
    ({ session with pendingPubRels := pending }, [.addBack ⟨5, 0x00, packetId⟩])
  else (session, [])

/-- The loop that erases an identifier while it counts on: what moves into the place of an
erased entry is skipped. -/
def eraseLoop (packetId : Nat) : List Nat → List Nat
  | [] => []
  | [entry] => if entry = packetId then [] else [entry]
  | entry :: follower :: rest =>
      if entry = packetId then follower :: eraseLoop packetId rest
      else entry :: eraseLoop packetId (follower :: rest)

/-- A message of the highest quality of service is released, and its release confirmed. -/
def onPubRel (packetId : Nat) : Session × List Effect :=
  ({ session with pendingPubRels := eraseLoop packetId session.pendingPubRels },
    [.answer ⟨7, 0x00, packetId⟩])

/-- The server has got a publication with quality of service 1. -/
def onPubAck (packetId : Nat) : Session × List Effect :=
  (session, [.release packetId, .onPublish packetId])

/-- The server has got one with quality of service 2; its release follows. -/
def onPubRec (packetId : Nat) : Session × List Effect :=
  (session, [.release packetId, .insert ⟨6, 0x02, packetId⟩])

/-- The server has got the release. -/
def onPubComp (packetId : Nat) : Session × List Effect :=
  (session, [.release packetId, .onPublish packetId])

/-- The reaction to a call. -/
def react : Call → Session × List Effect
  | .onConnAck sessionPresent connectReturnCode =>
      session.onConnAck sessionPresent connectReturnCode
  | .onPingResp => (session, [])
  | .onSubAck packetId status => session.onSubAck packetId status
  | .onAcknowledgement .unsubAck packetId => session.onUnsubAck packetId
  | .onAcknowledgement .pubAck packetId => session.onPubAck packetId
  | .onAcknowledgement .pubRec packetId => session.onPubRec packetId
  | .onAcknowledgement .pubRel packetId => session.onPubRel packetId
  | .onAcknowledgement .pubComp packetId => session.onPubComp packetId
  | .onMessage topic properties packetId payload index total =>
      session.onMessage topic properties packetId payload index total
  | .onPublish packetId qos => session.onPublish packetId qos

/-- The reactions to some calls, one after the other. -/
def reactAll (session : Session) : List Call → Session × List Effect
  | [] => (session, [])
  | call :: calls =>
      let first := session.react call
      let rest := reactAll first.1 calls
      (rest.1, first.2 ++ rest.2)

end Session

/-- What the packets share with the client that parses them. -/
structure ParsingInformation where
  bufferState : BufferState
  maxTopicLength : Nat
  topicBuffer : Bytes
  packetType : Nat
  packetFlags : Nat
  remainingLength : Nat
deriving DecidableEq

/-- A message while it is parsed. -/
structure PublishPacket where
  dup : Bool
  qos : Nat
  retain : Bool
  bytePosition : Nat
  topicLengthMsb : Nat
  topicLength : Nat
  ignore : Bool
  packetIdMsb : Nat
  packetId : Nat
  payloadLength : Nat
  payloadBytesRead : Nat
deriving DecidableEq

/-- The packet that is being parsed. -/
inductive Packet where
  | connAck (bytePosition : Nat) (sessionPresent : Bool)
  | pingResp
  | subAck (bytePosition packetIdMsb packetId : Nat)
  | acknowledgement (kind : Acknowledgement) (bytePosition packetIdMsb : Nat)
  | publish (packet : PublishPacket)
deriving DecidableEq

/-- The constructor of `PublishPacket` reads the flags of the fixed header; an undefined
quality of service counts as none. -/
def PublishPacket.construct (packetFlags : Nat) : PublishPacket where
  dup := packetFlags &&& 0x08 ≠ 0
  qos :=
    match packetFlags &&& 0x06 with
    | 0x02 => 1
    | 0x04 => 2
    | _ => 0
  retain := packetFlags &&& 0x01 ≠ 0
  bytePosition := 0
  topicLengthMsb := 0
  topicLength := 0
  ignore := false
  packetIdMsb := 0
  packetId := 0
  payloadLength := 0
  payloadBytesRead := 0

/-- The properties a message is reported with. -/
def PublishPacket.properties (packet : PublishPacket) : MessageProperties :=
  ⟨packet.qos, packet.dup, packet.retain⟩

/-- The packet object for a type; none for a type that only clients send. -/
def newPacket (packetType packetFlags : Nat) : Option Packet :=
  match packetType with
  | 2 => some (.connAck 0 false)
  | 3 => some (.publish (.construct packetFlags))
  | 4 => some (.acknowledgement .pubAck 0 0)
  | 5 => some (.acknowledgement .pubRec 0 0)
  | 6 => some (.acknowledgement .pubRel 0 0)
  | 7 => some (.acknowledgement .pubComp 0 0)
  | 9 => some (.subAck 0 0 0)
  | 11 => some (.acknowledgement .unsubAck 0 0)
  | 13 => some .pingResp
  | _ => none

/-- The members of the client that receiving uses, and whether its connection exists. -/
structure AsyncMqttClient where
  session : Session
  connectionOpen : Bool
  parsingInformation : ParsingInformation
  currentParsedPacket : Option Packet
  remainingLengthBufferPosition : Nat
  remainingLengthBuffer : Bytes
deriving DecidableEq

namespace AsyncMqttClient

/-- The client under construction, with whatever the memory of its topic buffer holds. -/
def construct (memory : Bytes) : AsyncMqttClient where
  session := ⟨.DISCONNECTED, []⟩
  connectionOpen := false
  parsingInformation := ⟨.NONE, 128, memory, 0, 0, 0⟩
  currentParsedPacket := none
  remainingLengthBufferPosition := 0
  remainingLengthBuffer := [0, 0, 0, 0]

/-- `connect` and the connection that it leads to. -/
def connect (client : AsyncMqttClient) : AsyncMqttClient :=
  if client.session.state ≠ .DISCONNECTED then client
  else
    { client with
      session := { client.session with state := .CONNECTING }, connectionOpen := true }

/-- Move the parser to another state. -/
def enter (client : AsyncMqttClient) (bufferState : BufferState) : AsyncMqttClient :=
  { client with parsingInformation := { client.parsingInformation with bufferState } }

/-- Keep a packet as the one that is being parsed. -/
def hold (client : AsyncMqttClient) (packet : Packet) : AsyncMqttClient :=
  { client with currentParsedPacket := some packet }

/-- Store a character of the topic. -/
def store (client : AsyncMqttClient) (index : Nat) (character : UInt8) : AsyncMqttClient :=
  { client with
    parsingInformation := { client.parsingInformation with
      topicBuffer := client.parsingInformation.topicBuffer.set index character } }

/-- Calls of the packet. Each call but a piece of a message frees the packet. -/
def calls (client : AsyncMqttClient) (made : List Call) : AsyncMqttClient × List Effect :=
  let reaction := client.session.reactAll made
  ({ client with session := reaction.1, currentParsedPacket := none }, reaction.2)

/-- `_onDisconnect`, which clears the parser but not the position in the length. -/
def onDisconnect (client : AsyncMqttClient) : AsyncMqttClient × List Effect :=
  ({ client.enter .NONE with
      session := { client.session with state := .DISCONNECTED }, connectionOpen := false,
      currentParsedPacket := none },
    [.clearQueue true, .onDisconnect])

/-- A forced `disconnect`. A connection reports its end before the call returns; what is
left of a segment is parsed all the same. -/
def disconnect (client : AsyncMqttClient) : AsyncMqttClient × List Effect :=
  if client.session.state = .DISCONNECTED then (client, [])
  else if client.connectionOpen then client.onDisconnect
  else ({ client with session := { client.session with state := .DISCONNECTED } }, [])

/-- The first byte of a packet. Shifting to the left and back happens in an `int`, so all
bits of the byte are kept as flags. -/
def receiveType (client : AsyncMqttClient) (currentByte : UInt8) :
    AsyncMqttClient × List Effect :=
  let packetType := currentByte.toNat >>> 4
  let packetFlags := currentByte.toNat
  let client : AsyncMqttClient :=
    { client with
      parsingInformation := { client.parsingInformation with
        packetType, packetFlags, bufferState := .REMAINING_LENGTH } }
  match newPacket packetType packetFlags with
  | some packet => (client.hold packet, [])
  | none => client.disconnect

/-- A byte of the length; none when it does not fit the buffer. A packet without further
bytes is taken for the answer to a ping. -/
def receiveLength (client : AsyncMqttClient) (currentByte : UInt8) :
    Option (AsyncMqttClient × List Effect) :=
  let position := client.remainingLengthBufferPosition
  if position < client.remainingLengthBuffer.length then
    let buffer := client.remainingLengthBuffer.set position currentByte
    if Continues currentByte then
      some ({ client with
        remainingLengthBuffer := buffer, remainingLengthBufferPosition := position + 1 }, [])
    else
      (decodeRemainingLength buffer).map fun remainingLength =>
        let client : AsyncMqttClient :=
          { client with
            remainingLengthBuffer := buffer, remainingLengthBufferPosition := 0
            parsingInformation := { client.parsingInformation with remainingLength } }
        if remainingLength > 0 then (client.enter .VARIABLE_HEADER, [])
        else (client.enter .NONE).calls [.onPingResp]
  else none

/-- `PublishPacket::_preparePayloadHandling`. A message that is ignored makes no call and
is not freed. -/
def preparePayloadHandling (client : AsyncMqttClient) (packet : PublishPacket)
    (payloadLength : Nat) : AsyncMqttClient × List Effect :=
  let packet := { packet with payloadLength }
  if payloadLength = 0 then
    if packet.ignore then ((client.enter .NONE).hold (.publish packet), [])
    else
      (client.enter .NONE).calls
        [.onMessage (cStr client.parsingInformation.topicBuffer) packet.properties packet.packetId
            [] 0 0,
          .onPublish packet.packetId packet.qos]
  else ((client.enter .PAYLOAD).hold (.publish packet), [])

/-- What `remainingLength` leaves behind a position, as an unsigned number of 32 bits. -/
def bytesBehind (client : AsyncMqttClient) (bytePosition : Nat) : Nat :=
  (client.parsingInformation.remainingLength + 2 ^ 32 - (bytePosition + 1)) % 2 ^ 32

/-- `PublishPacket::parseVariableHeader`. -/
def parsePublishHeader (client : AsyncMqttClient) (packet : PublishPacket)
    (currentByte : UInt8) : AsyncMqttClient × List Effect :=
  let next := { packet with bytePosition := (packet.bytePosition + 1) % 256 }
  if packet.bytePosition = 0 then
    (client.hold (.publish { next with topicLengthMsb := currentByte.toNat }), [])
  else if packet.bytePosition = 1 then
    let topicLength := currentByte.toNat ||| packet.topicLengthMsb <<< 8
    if topicLength > client.parsingInformation.maxTopicLength then
      (client.hold (.publish { next with topicLength, ignore := true }), [])
    else ((client.store topicLength 0).hold (.publish { next with topicLength }), [])
  else if packet.bytePosition < 2 + packet.topicLength then
    let client :=
      if packet.ignore then client else client.store (packet.bytePosition - 2) currentByte
    if packet.bytePosition = 2 + packet.topicLength - 1 ∧ packet.qos = 0 then
      client.preparePayloadHandling packet (client.bytesBehind packet.bytePosition)
    else (client.hold (.publish next), [])
  else if packet.bytePosition = 2 + packet.topicLength then
    (client.hold (.publish { next with packetIdMsb := currentByte.toNat }), [])
  else
    client.preparePayloadHandling
      { next with packetId := currentByte.toNat ||| packet.packetIdMsb <<< 8 }
      (client.bytesBehind packet.bytePosition)

/-- `parseVariableHeader` of each packet class. The one of a ping's answer takes no byte,
so the loop around it does not end. -/
def parseVariableHeader (client : AsyncMqttClient) (currentByte : UInt8) :
    Packet → Option (AsyncMqttClient × List Effect)
  | .connAck bytePosition sessionPresent =>
      if bytePosition = 0 then some (client.hold (.connAck 1 (currentByte ≠ 0)), [])
      else some ((client.enter .NONE).calls [.onConnAck sessionPresent currentByte])
  | .pingResp => none
  | .subAck bytePosition packetIdMsb _ =>
      if bytePosition = 0 then some (client.hold (.subAck 1 currentByte.toNat 0), [])
      else
        some ((client.enter .PAYLOAD).hold
          (.subAck 2 packetIdMsb (currentByte.toNat ||| packetIdMsb <<< 8)), [])
  | .acknowledgement kind bytePosition packetIdMsb =>
      if bytePosition = 0 then
        some (client.hold (.acknowledgement kind 1 currentByte.toNat), [])
      else
        some ((client.enter .NONE).calls
          [.onAcknowledgement kind (currentByte.toNat ||| packetIdMsb <<< 8)])
  | .publish packet => some (client.parsePublishHeader packet currentByte)

/-- The part of `PublishPacket::parsePayload` behind the choice of a piece: the piece is
passed on and counted, and the last one completes the message. -/
def passOn (client : AsyncMqttClient) (packet : PublishPacket) (piece : Bytes) :
    AsyncMqttClient × Nat × List Effect :=
  let next := { packet with payloadBytesRead := packet.payloadBytesRead + piece.length }
  let message := Call.onMessage (cStr client.parsingInformation.topicBuffer) packet.properties
    packet.packetId piece packet.payloadBytesRead packet.payloadLength
  if next.payloadBytesRead = packet.payloadLength then
    if packet.ignore then ((client.enter .NONE).hold (.publish next), piece.length, [])
    else
      let outcome := (client.enter .NONE).calls [message, .onPublish packet.packetId packet.qos]
      (outcome.1, piece.length, outcome.2)
  else
    let effects := if packet.ignore then [] else (client.session.react message).2
    (client.hold (.publish next), piece.length, effects)

/-- `PublishPacket::parsePayload`: the piece of the payload that the segment holds. None
when the payload has been read already: the position would move back. -/
def parsePayload (client : AsyncMqttClient) (packet : PublishPacket) (data : Bytes) :
    Option (AsyncMqttClient × Nat × List Effect) :=
  if packet.payloadBytesRead < packet.payloadLength then
    let remainToRead :=
      if packet.payloadBytesRead + data.length > packet.payloadLength then
        packet.payloadLength - packet.payloadBytesRead
      else data.length
    some (client.passOn packet (data.take remainToRead))
  else none

/-- A round that takes one byte. -/
def tookOne (outcome : AsyncMqttClient × List Effect) :
    AsyncMqttClient × Nat × List Effect := (outcome.1, 1, outcome.2)

/-- One round of `_onData` on what is left of its segment. -/
def round : Round AsyncMqttClient UInt8 Effect
  | _, [] => none
  | client, currentByte :: rest =>
      match client.parsingInformation.bufferState with
      | .NONE => some (tookOne (client.receiveType currentByte))
      | .REMAINING_LENGTH => (client.receiveLength currentByte).map tookOne
      | .VARIABLE_HEADER =>
          client.currentParsedPacket.bind fun packet =>
            (client.parseVariableHeader currentByte packet).map tookOne
      | .PAYLOAD =>
          match client.currentParsedPacket with
          | some (.publish packet) => client.parsePayload packet (currentByte :: rest)
          | some (.subAck _ _ packetId) =>
              some (tookOne ((client.enter .NONE).calls [.onSubAck packetId currentByte]))
          | _ => none

/-- `_onData`, called once for each segment. -/
def onData (client : AsyncMqttClient) (segments : List Bytes) :
    Option (AsyncMqttClient × List Effect) := PortionedStreams.segments round client segments

end AsyncMqttClient

/-- One byte of a message, or an effect that is no piece of one. -/
inductive Spelled where
  | byte (topic : CString) (properties : MessageProperties) (index total : Nat) (value : UInt8)
  | whole (effect : Effect)
deriving DecidableEq

/-- The bytes of a piece with their places in the payload. -/
def spellPiece (topic : CString) (properties : MessageProperties) (total : Nat) :
    Nat → Bytes → List Spelled
  | _, [] => []
  | index, value :: rest =>
      .byte topic properties index total value ::
        spellPiece topic properties total (index + 1) rest

/-- A piece is spelled by its bytes; an empty message has none and stands for itself. -/
def spell : Effect → List Spelled
  | .onMessage topic properties payload index total =>
      if payload = [] then [.whole (.onMessage topic properties payload index total)]
      else spellPiece topic properties total index payload
  | effect => [.whole effect]

end WhirlpoolAc.MqttReceiver
