import WhirlpoolAc.MqttSegments

/-!
# Packets on the wire

Every packet is a type byte, the length of the rest and the rest. The outgoing packets of
the library are written here as their constructors build them; a text and its length are
cut to sixteen bits alike, so the length always fits what follows it.

A frame is a byte, a length below two to the 28 and as many bytes. A reader that knows
nothing else finds the frame again at the front of any stream.
-/

namespace WhirlpoolAc.MqttPackets

open ByteStrings RemainingLength

/-- A packet of the queue of outgoing packets. -/
structure OutPacket where
  data : Bytes
  packetId : Nat
  released : Bool
deriving DecidableEq

/-- The type byte and the length of the rest. -/
def fixedHeader (packetType headerFlag remainingLength : Nat) : Bytes :=
  UInt8.ofNat (packetType <<< 4 ||| headerFlag) :: encodeRemainingLength remainingLength

/-- A number of sixteen bits, the high byte first. -/
def twoBytes (number : Nat) : Bytes := [UInt8.ofNat (number >>> 8), UInt8.ofNat (number &&& 0xFF)]

/-- The length of a text as a number of sixteen bits. -/
def textLength (text : CString) : Nat := text.bytes.length % 2 ^ 16

/-- A text behind its length. -/
def lengthPrefixed (text : CString) : Bytes :=
  twoBytes (textLength text) ++ text.bytes.take (textLength text)

/-- The flag of a quality of service. -/
def qosFlag (qos : Nat) : Nat :=
  match qos with
  | 1 => 0x02
  | 2 => 0x04
  | _ => 0x00

/-- `PublishOutPacket`. The payload is a pointer; without a length it is read up to its
terminator. -/
def PublishOutPacket (topic : CString) (qos : Nat) (retain : Bool) (payload : Option Bytes)
    (length nextPacketId : Nat) : OutPacket :=
  let payloadLength :=
    if length = 0 then
      match payload with
      | some text => (upToNul text).length
      | none => 0
    else length
  let remainingLength :=
    2 + textLength topic + payloadLength + if qos ≠ 0 then 2 else 0
  { data :=
      fixedHeader 3 ((if retain then 0x01 else 0) ||| qosFlag qos) (remainingLength % 2 ^ 32) ++
        (lengthPrefixed topic ++ (if qos ≠ 0 then twoBytes nextPacketId else []) ++
          match payload with
          | some text => text.take payloadLength
          | none => [])
    packetId := if qos ≠ 0 then nextPacketId else 1
    released := qos = 0 }

/-- `setDup` marks a message that has been sent before. -/
def OutPacket.setDup (packet : OutPacket) : OutPacket :=
  { packet with data := packet.data.modify 0 (· ||| 0x08) }

/-- `SubscribeOutPacket`. -/
def SubscribeOutPacket (topic : CString) (qos nextPacketId : Nat) : OutPacket where
  data :=
    fixedHeader 8 0x02 (2 + 2 + textLength topic + 1) ++
      (twoBytes nextPacketId ++ lengthPrefixed topic ++ [UInt8.ofNat qos])
  packetId := nextPacketId
  released := false

/-- `PubAckOutPacket`, for all four acknowledgements of messages. -/
def PubAckOutPacket (pendingAck : MqttReceiver.PendingAck) : OutPacket where
  data :=
    fixedHeader pendingAck.packetType pendingAck.headerFlag 2 ++ twoBytes pendingAck.packetId
  packetId := pendingAck.packetId
  released := pendingAck.packetType ≠ 6 ∧ pendingAck.packetType ≠ 5

/-- The flags of a `ConnectOutPacket` without a will. -/
def connectFlags (cleanSession : Bool) (username password : Option CString) : Nat :=
  (if cleanSession then 0x02 else 0) ||| (if username.isSome then 0x80 else 0) |||
    if password.isSome then 0x40 else 0

/-- An optional text behind its length. -/
def optionalText (text : Option CString) : Bytes := text.elim [] lengthPrefixed

/-- Its share of the remaining length. -/
def optionalSize (text : Option CString) : Nat := text.elim 0 fun text => 2 + textLength text

/-- `ConnectOutPacket` without a will, which the program never sets. -/
def ConnectOutPacket (cleanSession : Bool) (username password : Option CString)
    (keepAlive : Nat) (clientId : CString) : OutPacket where
  data :=
    fixedHeader 1 0x00 (2 + 4 + 1 + 1 + 2 + 2 + textLength clientId + optionalSize username +
        optionalSize password) ++
      (twoBytes 4 ++ lit "MQTT" ++
        [0x04, UInt8.ofNat (connectFlags cleanSession username password)] ++
        twoBytes keepAlive ++ lengthPrefixed clientId ++ optionalText username ++
        optionalText password)
  packetId := 0
  released := true

/-- `PingReqOutPacket`. -/
def PingReqOutPacket : OutPacket := ⟨[UInt8.ofNat (12 <<< 4 ||| 0x00), 0], 0, true⟩


/-- A byte, the length of the rest and the rest. -/
def Framed (data : Bytes) : Prop :=
  ∃ first body, data = first :: encodeRemainingLength body.length ++ body ∧ body.length < 2 ^ 28

/-- Length bytes at the front of a stream, through the first one without the mark. -/
def lengthBytes : Bytes → Bytes
  | [] => []
  | byte :: rest => if Continues byte then byte :: lengthBytes rest else [byte]

/-- The frame at the front of a stream and what lies behind it. -/
def readFrame : Bytes → Option (Bytes × Bytes)
  | [] => none
  | first :: rest => do
      let length ← decodeRemainingLength rest
      let size := (lengthBytes rest).length + length
      if size ≤ rest.length then pure (first :: rest.take size, rest.drop size) else none

/-- The length bytes of an encoded length are exactly those. -/
theorem lengthBytes_shape (front : Bytes) (last : UInt8) (rest : Bytes)
    (marked : ∀ byte ∈ front, Continues byte) (plain : ¬ Continues last) :
    lengthBytes (front ++ last :: rest) = front ++ [last] := by
  induction front with
  | nil => simp [lengthBytes, plain]
  | cons byte front ih =>
    obtain ⟨first, others⟩ := List.forall_mem_cons.mp marked
    simp [lengthBytes, first, ih others]

/-- A frame at the front of a stream is found again, whatever follows it. -/
theorem readFrame_framed (data rest : Bytes) (framed : Framed data) :
    readFrame (data ++ rest) = some (data, rest) := by
  obtain ⟨first, body, rfl, small⟩ := framed
  obtain ⟨front, last, shape, marked, plain, _⟩ := encode_shape body.length small
  have decoded := decode_encode body.length (body ++ rest) (by omega)
  have bytes := lengthBytes_shape front last (body ++ rest) marked plain
  have split : front ++ last :: (body ++ rest) = encodeRemainingLength body.length ++
      (body ++ rest) := by rw [shape]; simp
  rw [split, ← shape] at bytes
  have inside : (encodeRemainingLength body.length).length + body.length ≤
      (encodeRemainingLength body.length ++ (body ++ rest)).length := by
    simp only [List.length_append]
    omega
  simp only [List.cons_append, List.append_assoc, readFrame, decoded, Option.bind_eq_bind,
    Option.bind_some, bytes, if_pos inside]
  simp [← List.append_assoc]

/-- A header with the length of its body makes a frame. -/
theorem framed_header (packetType headerFlag remainingLength : Nat) (body : Bytes)
    (counted : body.length = remainingLength) (small : remainingLength < 2 ^ 28) :
    Framed (fixedHeader packetType headerFlag remainingLength ++ body) := by
  subst counted
  exact ⟨_, body, rfl, small⟩

/-- A text behind its length takes as many bytes as its length says, and two. -/
@[simp] theorem length_lengthPrefixed (text : CString) :
    (lengthPrefixed text).length = 2 + textLength text := by
  have bound : textLength text ≤ text.bytes.length := Nat.mod_le _ _
  simp [lengthPrefixed, twoBytes, Nat.min_eq_left bound]
  omega

/-- A number of sixteen bits takes two bytes. -/
@[simp] theorem length_twoBytes (number : Nat) : (twoBytes number).length = 2 := rfl

/-- A text length has sixteen bits. -/
theorem textLength_lt (text : CString) : textLength text < 2 ^ 16 := Nat.mod_lt _ (by decide)

/-- An optional text takes the size that is reserved for it. -/
@[simp] theorem length_optionalText (text : Option CString) :
    (optionalText text).length = optionalSize text := by
  cases text with
  | none => rfl
  | some text => exact length_lengthPrefixed text

/-- An optional text is not larger than a text. -/
theorem optionalSize_lt (text : Option CString) : optionalSize text < 2 + 2 ^ 16 := by
  cases text with
  | none => exact Nat.zero_lt_succ _
  | some text => exact Nat.add_lt_add_left (textLength_lt text) 2

/-- The bytes that `PublishOutPacket` takes of a payload pointer. -/
def payloadBytes (text : Bytes) (length : Nat) : Bytes :=
  text.take (if length = 0 then (upToNul text).length else length)

/-- The rest of a message behind its length. -/
def publishBody (topic : CString) (qos nextPacketId : Nat) (payload : Bytes) : Bytes :=
  lengthPrefixed topic ++ (if qos ≠ 0 then twoBytes nextPacketId else []) ++ payload

/-- The bytes of a message whose pointer has as many bytes as it says. -/
theorem publish_data (topic : CString) (qos : Nat) (retain : Bool) (text : Bytes)
    (length nextPacketId : Nat) (inside : length ≤ text.length)
    (small : text.length + 2 ^ 16 + 4 ≤ 2 ^ 28) :
    (PublishOutPacket topic qos retain (some text) length nextPacketId).data =
        fixedHeader 3 ((if retain then 0x01 else 0) ||| qosFlag qos)
          (publishBody topic qos nextPacketId (payloadBytes text length)).length ++
        publishBody topic qos nextPacketId (payloadBytes text length) ∧
      (publishBody topic qos nextPacketId (payloadBytes text length)).length < 2 ^ 28 := by
  have narrow := textLength_lt topic
  have terminated : (upToNul text).length ≤ text.length :=
    (List.takeWhile_prefix _).length_le
  have count : (payloadBytes text length).length =
      if length = 0 then (upToNul text).length else length := by
    rw [payloadBytes, List.length_take]
    split <;> omega
  have bound : (payloadBytes text length).length ≤ text.length := List.length_take_le' _ _
  have identifier : (if qos ≠ 0 then twoBytes nextPacketId else []).length =
      if qos ≠ 0 then 2 else 0 := by split <;> rfl
  have size : (publishBody topic qos nextPacketId (payloadBytes text length)).length =
      2 + textLength topic + (payloadBytes text length).length + if qos ≠ 0 then 2 else 0 := by
    rw [publishBody, List.length_append, List.length_append, identifier, length_lengthPrefixed]
    omega
  have less : 2 + textLength topic + (payloadBytes text length).length +
      (if qos ≠ 0 then 2 else 0) < 2 ^ 28 := by
    split <;> omega
  refine ⟨?_, size ▸ less⟩
  have wide := Nat.mod_eq_of_lt (Nat.lt_trans less (by decide : 2 ^ 28 < 2 ^ 32))
  rw [count] at wide
  rw [size, count]
  simp only [PublishOutPacket, publishBody, payloadBytes, wide]

/-- A message is a frame. -/
theorem framed_publish (topic : CString) (qos : Nat) (retain : Bool) (text : Bytes)
    (length nextPacketId : Nat) (inside : length ≤ text.length)
    (small : text.length + 2 ^ 16 + 4 ≤ 2 ^ 28) :
    Framed (PublishOutPacket topic qos retain (some text) length nextPacketId).data := by
  obtain ⟨data, less⟩ := publish_data topic qos retain text length nextPacketId inside small
  rw [data]
  exact framed_header _ _ _ _ rfl less

/-- A subscription is a frame. -/
theorem framed_subscribe (topic : CString) (qos nextPacketId : Nat) :
    Framed (SubscribeOutPacket topic qos nextPacketId).data := by
  have narrow := textLength_lt topic
  apply framed_header
  · simp
    omega
  · omega

/-- An acknowledgement is a frame. -/
theorem framed_ack (pendingAck : MqttReceiver.PendingAck) :
    Framed (PubAckOutPacket pendingAck).data :=
  framed_header _ _ _ _ rfl (by decide)

/-- A connection request is a frame. -/
theorem framed_connect (cleanSession : Bool) (username password : Option CString)
    (keepAlive : Nat) (clientId : CString) :
    Framed (ConnectOutPacket cleanSession username password keepAlive clientId).data := by
  have narrow := textLength_lt clientId
  have user := optionalSize_lt username
  have secret := optionalSize_lt password
  apply framed_header
  · have name : (lit "MQTT").length = 4 := rfl
    simp [name]
    omega
  · omega

end WhirlpoolAc.MqttPackets
