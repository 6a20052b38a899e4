import WhirlpoolAc.MqttWire

/-!
# Messages of the server

A message is parsed in four parts: the length of its topic, the topic, an identifier if it
has a quality of service, and the payload. The topic is collected in a buffer that keeps
what earlier topics left behind a terminator, so the callback sees the topic and no more.
-/

namespace WhirlpoolAc.MqttReceiver

open ByteStrings PortionedStreams RemainingLength MqttPackets

/-- A buffer with some characters stored from a position on. -/
def overwrite : Bytes → Nat → Bytes → Bytes
  | buffer, _, [] => buffer
  | buffer, position, character :: rest =>
      overwrite (buffer.set position character) (position + 1) rest

/-- Overwriting keeps the size of the buffer. -/
@[simp] theorem length_overwrite (buffer : Bytes) (position : Nat) (characters : Bytes) :
    (overwrite buffer position characters).length = buffer.length := by
  induction characters generalizing buffer position with
  | nil => rfl
  | cons character rest ih => rw [overwrite, ih, List.length_set]

/-- Characters replace as many others. -/
theorem overwrite_gap (front gap behind characters : Bytes)
    (fills : gap.length = characters.length) :
    overwrite (front ++ gap ++ behind) front.length characters =
      front ++ characters ++ behind := by
  induction characters generalizing front gap with
  | nil =>
    have empty : gap = [] := List.eq_nil_of_length_eq_zero fills
    rw [empty]
    rfl
  | cons character rest ih =>
    cases gap with
    | nil => cases fills
    | cons free gap =>
      have later := ih (front ++ [character]) gap (Nat.succ.inj fills)
      rw [overwrite]
      simpa using later

/-- A topic stored in front of its terminator is what the pointer to the buffer carries. -/
theorem cStr_overwrite (buffer : Bytes) (topic : CString)
    (room : topic.bytes.length < buffer.length) :
    cStr (overwrite (buffer.set topic.bytes.length 0) 0 topic.bytes) = topic := by
  have gap : ((buffer.take topic.bytes.length)).length = topic.bytes.length := by
    rw [List.length_take]
    omega
  have split : buffer.set topic.bytes.length 0 =
      [] ++ buffer.take topic.bytes.length ++ 0 :: buffer.drop (topic.bytes.length + 1) := by
    rw [List.set_eq_take_append_cons_drop, if_pos room, List.nil_append]
  have written := overwrite_gap [] (buffer.take topic.bytes.length)
    (0 :: buffer.drop (topic.bytes.length + 1)) topic.bytes gap
  rw [← split] at written
  have contents : upToNul ([] ++ topic.bytes ++ 0 :: buffer.drop (topic.bytes.length + 1)) =
      topic.bytes := by
    have clean := upToNul_of_nulFree topic.bytes topic.nulFree
    rw [upToNul, List.takeWhile_eq_self_iff] at clean
    rw [List.nil_append, upToNul, List.takeWhile_append_of_pos clean]
    simp
  cases topic with
  | mk bytes nulFree =>
    simp only [cStr, CString.mk.injEq]
    exact (congrArg upToNul written).trans contents

namespace AsyncMqttClient

/-- The client with some characters of a topic stored, unless the message is ignored. -/
def collected (client : AsyncMqttClient) (packet : PublishPacket) (characters : Bytes) :
    AsyncMqttClient :=
  if packet.ignore then client
  else
    { client with
      parsingInformation := { client.parsingInformation with
        topicBuffer := overwrite client.parsingInformation.topicBuffer (packet.bytePosition - 2)
          characters } }

/-- A packet that has come further. -/
def advanced (packet : PublishPacket) (count : Nat) : PublishPacket :=
  { packet with bytePosition := packet.bytePosition + count }

/-- Characters of the topic that do not end the header are collected. Induction on the
characters. -/
theorem takes_topic (client : AsyncMqttClient) (packet : PublishPacket) (characters : Bytes)
    (phase : client.parsingInformation.bufferState = .VARIABLE_HEADER)
    (held : client.currentParsedPacket = some (.publish packet))
    (started : 2 ≤ packet.bytePosition)
    (inside : packet.bytePosition + characters.length ≤ 2 + packet.topicLength)
    (counted : packet.bytePosition + characters.length ≤ 255)
    (goesOn : packet.qos ≠ 0 ∨
      packet.bytePosition + characters.length < 2 + packet.topicLength) :
    client.Takes (bytewise characters)
      ((client.collected packet characters).hold
        (.publish (advanced packet characters.length))) [] := by
  induction characters generalizing client packet with
  | nil =>
    have same : (client.collected packet []).hold (.publish (advanced packet 0)) = client := by
      cases client
      cases held
      simp [collected, advanced, hold, overwrite]
    rw [List.length_nil, same]
    exact .nil client
  | cons character rest ih =>
    rw [List.length_cons] at inside counted goesOn
    have wrapped : (packet.bytePosition + 1) % 256 = packet.bytePosition + 1 :=
      Nat.mod_eq_of_lt (by omega)
    have notLast : ¬ (packet.bytePosition = 1 + packet.topicLength ∧ packet.qos = 0) := by
      omega
    have later (buffered : AsyncMqttClient)
        (same : buffered.parsingInformation.bufferState = .VARIABLE_HEADER) :=
      ih (buffered.hold (.publish (advanced packet 1))) (advanced packet 1) same rfl
        (Nat.le_add_right_of_le started)
        (by
          show packet.bytePosition + 1 + _ ≤ 2 + packet.topicLength
          omega)
        (by
          show packet.bytePosition + 1 + _ ≤ 255
          omega)
        (by
          show packet.qos ≠ 0 ∨ packet.bytePosition + 1 + _ < 2 + packet.topicLength
          omega)
    have result (bytes : Bytes) : round client (character :: bytes) =
        some (tookOne ((client.collected packet [character]).hold
          (.publish (advanced packet 1)), [])) := by
      rw [round_header client character bytes phase, held]
      have first : packet.bytePosition ≠ 0 := by omega
      have second : packet.bytePosition ≠ 1 := by omega
      have topic : packet.bytePosition < 2 + packet.topicLength := by omega
      simp [parseVariableHeader, parsePublishHeader, first, second, topic, notLast, wrapped,
        collected, store, overwrite, advanced]
    have all := Takes.cons (phase.trans_ne (by decide)) result
      (later (client.collected packet [character]) (by
        unfold collected
        split
        · exact phase
        · exact phase))
    have states : ((client.collected packet [character]).hold
          (.publish (advanced packet 1))).collected (advanced packet 1) rest =
        (client.collected packet (character :: rest)).hold (.publish (advanced packet 1)) := by
      have position : packet.bytePosition + 1 - 2 = packet.bytePosition - 2 + 1 := by omega
      by_cases ignored : packet.ignore = true
      · simp [collected, advanced, ignored]
      · simp [collected, advanced, ignored, hold, overwrite, position]
    have packets : advanced (advanced packet 1) rest.length =
        advanced packet (rest.length + 1) := by
      simp only [advanced]
      congr 1
      omega
    rw [states, packets] at all
    exact all

/-- What a payload changes nothing about. -/
structure Kept (client next : AsyncMqttClient) : Prop where
  between : next.parsingInformation = (client.enter .NONE).parsingInformation
  position : next.remainingLengthBufferPosition = client.remainingLengthBufferPosition
  lengthBuffer : next.remainingLengthBuffer = client.remainingLengthBuffer
  connection : next.connectionOpen = client.connectionOpen

/-- The calls of a message whose parts have been collected, unless it is ignored. -/
def messageCalls (client : AsyncMqttClient) (packet : PublishPacket) (payload : Bytes) :
    List Call :=
  if packet.ignore then []
  else
    [.onMessage (cStr client.parsingInformation.topicBuffer) packet.properties packet.packetId
        payload 0 payload.length,
      .onPublish packet.packetId packet.qos]

/-- A payload that is passed on whole. -/
theorem afterPiece_whole (client : AsyncMqttClient) (packet : PublishPacket) (payload : Bytes)
    (unread : packet.payloadBytesRead = 0) (size : packet.payloadLength = payload.length) :
    client.Kept (client.afterPiece packet payload.length) ∧
      (client.afterPiece packet payload.length).session =
        (client.session.reactAll (client.messageCalls packet payload)).1 ∧
      client.pieceEffects packet payload =
        (client.session.reactAll (client.messageCalls packet payload)).2 := by
  by_cases ignored : packet.ignore = true
  · refine ⟨⟨?_, ?_, ?_, ?_⟩, ?_, ?_⟩ <;>
      simp [afterPiece, pieceEffects, messageCalls, unread, size, ignored, hold, enter,
        Session.reactAll]
  · refine ⟨⟨?_, ?_, ?_, ?_⟩, ?_, ?_⟩ <;>
      simp [afterPiece, pieceEffects, messageCalls, unread, size, ignored, enter,
        Session.reactAll, Session.react]

/-- Behind its header, a message is reported with its whole payload. -/
theorem takes_payload (client : AsyncMqttClient) (packet : PublishPacket) (payload : Bytes)
    (unread : packet.payloadBytesRead = 0) :
    ∃ next later,
      (client.preparePayloadHandling packet payload.length).1.Takes
        (if payload = [] then [] else [payload]) next later ∧
      (client.preparePayloadHandling packet payload.length).2 ++ later =
        (client.session.reactAll (client.messageCalls packet payload)).2 ∧
      client.Kept next ∧
      next.session = (client.session.reactAll (client.messageCalls packet payload)).1 := by
  by_cases empty : payload = []
  · subst empty
    refine ⟨_, [], .nil _, ?_, ?_, ?_⟩
    · by_cases ignored : packet.ignore = true
      · simp [preparePayloadHandling, ignored, messageCalls, Session.reactAll]
      · simp [preparePayloadHandling, ignored, messageCalls, calls, enter,
          PublishPacket.properties]
    · by_cases ignored : packet.ignore = true
      · simp [preparePayloadHandling, ignored]
        exact ⟨rfl, rfl, rfl, rfl⟩
      · simp [preparePayloadHandling, ignored, calls]
        exact ⟨rfl, rfl, rfl, rfl⟩
    · by_cases ignored : packet.ignore = true
      · simp [preparePayloadHandling, ignored, messageCalls, Session.reactAll, hold, enter]
      · simp [preparePayloadHandling, ignored, messageCalls, calls, enter,
          PublishPacket.properties]
  · have positive := List.length_pos_iff.mpr empty
    have present : payload.length ≠ 0 := Nat.ne_of_gt positive
    let paid := { packet with payloadLength := payload.length }
    let before := (client.enter .PAYLOAD).hold (.publish paid)
    have prepared : client.preparePayloadHandling packet payload.length = (before, []) := by
      simp [preparePayloadHandling, present, before, paid]
    have result (rest : Bytes) : innerRound before (payload ++ rest) =
        some (before.afterPiece paid payload.length, payload.length,
          before.pieceEffects paid payload) := by
      obtain ⟨first, others, shape⟩ := List.exists_cons_of_ne_nil empty
      have parsed := parsePayload_take before paid (payload ++ rest) (by
        show packet.payloadBytesRead < payload.length
        omega)
      have whole : (payload ++ rest).take (paid.payloadLength - paid.payloadBytesRead) =
          payload := by
        show (payload ++ rest).take (payload.length - packet.payloadBytesRead) = payload
        rw [unread, Nat.sub_zero, List.take_left]
      rw [innerRound_eq before _ BufferState.noConfusion, shape, List.cons_append,
        round_payload before paid first _ rfl rfl, ← List.cons_append, ← shape, parsed, whole,
        passOn_eq]
    obtain ⟨kept, session, effects⟩ := afterPiece_whole before paid payload unread rfl
    have takes : before.Takes [payload] (before.afterPiece paid payload.length)
        (before.pieceEffects paid payload ++ []) := Consumes.cons empty result (.nil _)
    rw [List.append_nil] at takes
    refine ⟨before.afterPiece paid payload.length, before.pieceEffects paid payload, ?_, ?_,
      ⟨kept.between, kept.position, kept.lengthBuffer, kept.connection⟩, session⟩
    · rw [prepared, if_neg empty]
      exact takes
    · rw [prepared, List.nil_append, effects]
      rfl

/-- The packet object for a message. -/
def opening (message : Publication) : PublishPacket :=
  { PublishPacket.construct 0 with
    dup := message.dup, qos := message.qos, retain := message.retain }

/-- The bytes of a message: a type byte that opens its packet object, and its body behind
the length. -/
theorem encode_message (message : Publication)
    (limits : (ServerPacket.publish message).WithinLimits) :
    let body := publishBody message.topic message.qos message.packetId message.payload
    ∃ first : UInt8, message.encode = first :: encodeRemainingLength body.length ++ body ∧
      newPacket (first.toNat >>> 4) first.toNat = some (.publish (opening message)) ∧
      body.length < 2 ^ 28 := by
  obtain ⟨_, level, _, _, small⟩ := limits
  obtain ⟨data, less⟩ := publish_data message.topic message.qos message.retain message.payload
    message.payload.length message.packetId (Nat.le_refl _) small
  have whole : payloadBytes message.payload message.payload.length = message.payload := by
    unfold payloadBytes
    split
    · next empty =>
      rw [List.eq_nil_of_length_eq_zero empty]
      rfl
    · exact List.take_length
  rw [whole] at data less
  let plain : UInt8 :=
    UInt8.ofNat (3 <<< 4 ||| ((if message.retain then 0x01 else 0) ||| qosFlag message.qos))
  refine ⟨if message.dup then plain ||| 0x08 else plain, ?_, ?_, less⟩
  · simp only [Publication.encode, OutPacket.setDup, data]
    cases message.dup <;> rfl
  · unfold opening
    obtain low | low | low : message.qos = 0 ∨ message.qos = 1 ∨ message.qos = 2 := by omega
    all_goals
      simp only [plain, low]
      cases message.dup <;> cases message.retain <;> rfl

/-- The client behind the length of a topic: the buffer is terminated, or the message will
be ignored. -/
def named (client : AsyncMqttClient) (topicLength : Nat) : AsyncMqttClient :=
  if topicLength > client.maxTopicLength then client else client.store topicLength 0

/-- The packet object behind the length of its topic. -/
def namedPacket (client : AsyncMqttClient) (packet : PublishPacket)
    (topicLengthMsb topicLength : Nat) : PublishPacket :=
  { packet with
    bytePosition := 2, topicLengthMsb, topicLength,
    ignore := decide (topicLength > client.maxTopicLength) }

/-- The length of a topic is read from two bytes. -/
theorem takes_topicLength (client : AsyncMqttClient) (packet : PublishPacket)
    (topicLength : Nat) (phase : client.parsingInformation.bufferState = .VARIABLE_HEADER)
    (held : client.currentParsedPacket = some (.publish packet))
    (start : packet.bytePosition = 0) (heeded : packet.ignore = false)
    (small : topicLength < 2 ^ 16) :
    ∃ high, client.Takes (bytewise (twoBytes topicLength))
      ((client.named topicLength).hold
        (.publish (client.namedPacket packet high topicLength))) [] := by
  obtain ⟨high, low, bytes, number⟩ := twoBytes_read topicLength small
  have first (rest : Bytes) : round client (high :: rest) =
      some (tookOne (client.hold
        (.publish { packet with bytePosition := 1, topicLengthMsb := high.toNat }), [])) := by
    rw [round_header client high rest phase, held]
    simp [parseVariableHeader, parsePublishHeader, start]
  let middle := client.hold
    (.publish { packet with bytePosition := 1, topicLengthMsb := high.toNat })
  have second (rest : Bytes) : round middle (low :: rest) =
      some (tookOne ((client.named topicLength).hold
        (.publish (client.namedPacket packet high.toNat topicLength)), [])) := by
    rw [round_header middle low rest phase]
    by_cases long : topicLength > client.parsingInformation.maxTopicLength
    · simp [middle, hold, parseVariableHeader, parsePublishHeader, number, long, named,
        namedPacket, maxTopicLength]
    · simp [middle, hold, parseVariableHeader, parsePublishHeader, number, long, named,
        namedPacket, maxTopicLength, store, heeded]
  refine ⟨high.toNat, ?_⟩
  rw [bytes]
  have within : middle.parsingInformation.bufferState ≠ .NONE := phase.trans_ne (by decide)
  exact Takes.cons (phase.trans_ne (by decide)) first (Takes.byte within second)

/-- Storing in two parts. -/
theorem overwrite_append (buffer : Bytes) (position : Nat) (first second : Bytes) :
    overwrite buffer position (first ++ second) =
      overwrite (overwrite buffer position first) (position + first.length) second := by
  induction first generalizing buffer position with
  | nil => rfl
  | cons character rest ih =>
    rw [List.cons_append, overwrite, ih, overwrite, List.length_cons]
    congr 1
    omega

/-- The last character of a topic. -/
theorem collected_snoc (client : AsyncMqttClient) (packet : PublishPacket) (front : Bytes)
    (last : UInt8) (started : 2 ≤ packet.bytePosition) :
    (if packet.ignore then client.collected packet front
      else (client.collected packet front).store (packet.bytePosition + front.length - 2) last) =
      client.collected packet (front ++ [last]) := by
  have position : packet.bytePosition + front.length - 2 =
      packet.bytePosition - 2 + front.length := by omega
  by_cases ignored : packet.ignore = true
  · simp [collected, ignored]
  · simp [collected, ignored, store, overwrite_append, overwrite, position]

/-- Which packet is held does not matter where the payload is prepared. -/
theorem preparePayloadHandling_hold (client : AsyncMqttClient) (other : Packet)
    (packet : PublishPacket) (payloadLength : Nat) :
    (client.hold other).preparePayloadHandling packet payloadLength =
      client.preparePayloadHandling packet payloadLength := rfl

/-- The last character of a topic ends the header of a message without quality of service. -/
theorem parsePublishHeader_last (client : AsyncMqttClient) (packet : PublishPacket)
    (character : UInt8) (started : 2 ≤ packet.bytePosition)
    (last : packet.bytePosition + 1 = 2 + packet.topicLength) (plain : packet.qos = 0) :
    client.parsePublishHeader packet character =
      let kept :=
        if packet.ignore then client else client.store (packet.bytePosition - 2) character
      kept.preparePayloadHandling packet (kept.bytesBehind packet.bytePosition) := by
  have first : packet.bytePosition ≠ 0 := by omega
  have second : packet.bytePosition ≠ 1 := by omega
  have inTopic : packet.bytePosition < 2 + packet.topicLength := by omega
  have atEnd : packet.bytePosition = 2 + packet.topicLength - 1 ∧ packet.qos = 0 :=
    ⟨by omega, plain⟩
  simp only [parsePublishHeader, if_neg first, if_neg second, if_pos inTopic, if_pos atEnd]

/-- The two bytes of an identifier follow the topic, and the second one ends the header. -/
theorem parsePublishHeader_identifier (client : AsyncMqttClient) (packet : PublishPacket)
    (byte : UInt8) (started : 2 ≤ packet.bytePosition) :
    (packet.bytePosition = 2 + packet.topicLength →
      client.parsePublishHeader packet byte =
        (client.hold (.publish
          { packet with
            bytePosition := (packet.bytePosition + 1) % 256, packetIdMsb := byte.toNat }), [])) ∧
    (packet.bytePosition = 3 + packet.topicLength →
      client.parsePublishHeader packet byte =
        client.preparePayloadHandling
          { packet with
            bytePosition := (packet.bytePosition + 1) % 256
            packetId := byte.toNat ||| packet.packetIdMsb <<< 8 }
          (client.bytesBehind packet.bytePosition)) := by
  have first : packet.bytePosition ≠ 0 := by omega
  have second : packet.bytePosition ≠ 1 := by omega
  constructor
  · intro here
    have behindTopic : ¬ packet.bytePosition < 2 + packet.topicLength := by omega
    simp only [parsePublishHeader, if_neg first, if_neg second, if_neg behindTopic, if_pos here]
  · intro here
    have behindTopic : ¬ packet.bytePosition < 2 + packet.topicLength := by omega
    have lower : ¬ packet.bytePosition = 2 + packet.topicLength := by omega
    simp only [parsePublishHeader, if_neg first, if_neg second, if_neg behindTopic, if_neg lower]

/-- What the remaining length leaves behind a header. -/
theorem bytesBehind_eq (client : AsyncMqttClient) (bytePosition payloadLength : Nat)
    (whole : client.parsingInformation.remainingLength = bytePosition + 1 + payloadLength)
    (small : client.parsingInformation.remainingLength < 2 ^ 28) :
    client.bytesBehind bytePosition = payloadLength := by
  unfold bytesBehind
  omega

/-- Collecting changes nothing but the buffer of the topic. -/
theorem collected_same (client : AsyncMqttClient) (packet : PublishPacket) (characters : Bytes) :
    ∃ topicBuffer, client.collected packet characters =
      { client with parsingInformation := { client.parsingInformation with topicBuffer } } := by
  by_cases ignored : packet.ignore = true
  · exact ⟨client.parsingInformation.topicBuffer, by simp [collected, ignored]⟩
  · exact ⟨_, by simp only [collected, ignored]; rfl⟩

/-- Without quality of service, the header ends with its topic. -/
theorem takes_header_plain (client : AsyncMqttClient) (packet : PublishPacket) (topic : Bytes)
    (payloadLength : Nat) (phase : client.parsingInformation.bufferState = .VARIABLE_HEADER)
    (held : client.currentParsedPacket = some (.publish packet))
    (start : packet.bytePosition = 2) (size : packet.topicLength = topic.length)
    (present : topic ≠ []) (short : topic.length ≤ 254) (plain : packet.qos = 0)
    (whole : client.parsingInformation.remainingLength = 2 + topic.length + payloadLength)
    (small : client.parsingInformation.remainingLength < 2 ^ 28) :
    ∃ last, last.bytePosition = topic.length + 1 ∧
      last = { packet with bytePosition := last.bytePosition } ∧
      client.Takes (bytewise topic)
        ((client.collected packet topic).preparePayloadHandling last payloadLength).1
        ((client.collected packet topic).preparePayloadHandling last payloadLength).2 := by
  obtain ⟨front, final, rfl⟩ : ∃ front final, topic = front ++ [final] :=
    ⟨_, _, (List.dropLast_append_getLast present).symm⟩
  rw [List.length_append, List.length_singleton] at size short whole
  have collects := takes_topic client packet front phase held (by omega) (by omega) (by omega)
    (.inr (by omega))
  obtain ⟨buffer, same⟩ := collected_same client packet front
  let before := (client.collected packet front).hold (.publish (advanced packet front.length))
  have inHeader : before.parsingInformation.bufferState = .VARIABLE_HEADER := by
    simp [before, same, hold, phase]
  have snoc := collected_snoc client packet front final (by omega)
  obtain ⟨stored, kept⟩ := collected_same client packet (front ++ [final])
  have behind : (client.collected packet (front ++ [final])).bytesBehind
      (packet.bytePosition + front.length) = payloadLength := by
    apply bytesBehind_eq
    · rw [kept]
      show client.parsingInformation.remainingLength = _
      omega
    · rw [kept]
      exact small
  have result (rest : Bytes) : round before (final :: rest) =
      some (tookOne ((client.collected packet (front ++ [final])).preparePayloadHandling
        (advanced packet front.length) payloadLength)) := by
    have ends := parsePublishHeader_last before (advanced packet front.length) final
      (Nat.le_add_right_of_le (by omega))
      (by
        show packet.bytePosition + front.length + 1 = 2 + packet.topicLength
        omega) plain
    rw [round_header before final rest inHeader]
    show some (tookOne (before.parsePublishHeader (advanced packet front.length) final)) = _
    have kept_held :
        (if packet.ignore then before
          else before.store (packet.bytePosition + front.length - 2) final) =
          (client.collected packet (front ++ [final])).hold
            (.publish (advanced packet front.length)) := by
      rw [← snoc]
      split <;> rfl
    have ended : before.parsePublishHeader (advanced packet front.length) final =
        ((client.collected packet (front ++ [final])).hold
            (.publish (advanced packet front.length))).preparePayloadHandling
          (advanced packet front.length)
          ((client.collected packet (front ++ [final])).bytesBehind
            (packet.bytePosition + front.length)) := by
      rw [ends]
      show AsyncMqttClient.preparePayloadHandling
        (if packet.ignore then before
          else before.store (packet.bytePosition + front.length - 2) final) _
        (AsyncMqttClient.bytesBehind
          (if packet.ignore then before
            else before.store (packet.bytePosition + front.length - 2) final) _) = _
      rw [kept_held]
      rfl
    rw [ended, preparePayloadHandling_hold, behind]
  refine ⟨advanced packet front.length, ?_, rfl, ?_⟩
  · simp only [advanced, List.length_append, List.length_singleton]
    omega
  · rw [bytewise_append]
    exact collects.append (Takes.byte (inHeader.trans_ne (by decide)) result)

/-- With a quality of service, the header ends with an identifier. -/
theorem takes_header_identified (client : AsyncMqttClient) (packet : PublishPacket)
    (topic : Bytes) (packetId payloadLength : Nat)
    (phase : client.parsingInformation.bufferState = .VARIABLE_HEADER)
    (held : client.currentParsedPacket = some (.publish packet))
    (start : packet.bytePosition = 2) (size : packet.topicLength = topic.length)
    (short : topic.length ≤ 252) (level : packet.qos ≠ 0) (identifier : packetId < 2 ^ 16)
    (whole : client.parsingInformation.remainingLength = 4 + topic.length + payloadLength)
    (small : client.parsingInformation.remainingLength < 2 ^ 28) :
    ∃ last, last = { packet with
          bytePosition := last.bytePosition, packetIdMsb := last.packetIdMsb, packetId } ∧
      client.Takes (bytewise (topic ++ twoBytes packetId))
        ((client.collected packet topic).preparePayloadHandling last payloadLength).1
        ((client.collected packet topic).preparePayloadHandling last payloadLength).2 := by
  have collects := takes_topic client packet topic phase held (by omega) (by omega) (by omega)
    (.inl level)
  obtain ⟨high, low, bytes, number⟩ := twoBytes_read packetId identifier
  obtain ⟨buffer, same⟩ := collected_same client packet topic
  let before := (client.collected packet topic).hold (.publish (advanced packet topic.length))
  let upper : PublishPacket :=
    { advanced packet topic.length with
      bytePosition := packet.bytePosition + topic.length + 1, packetIdMsb := high.toNat }
  let last : PublishPacket :=
    { upper with bytePosition := (packet.bytePosition + topic.length + 2) % 256, packetId }
  have inHeader : before.parsingInformation.bufferState = .VARIABLE_HEADER := by
    simp [before, same, hold, phase]
  have first (rest : Bytes) :
      round before (high :: rest) = some (tookOne (before.hold (.publish upper), [])) := by
    have here := (parsePublishHeader_identifier before (advanced packet topic.length) high
      (Nat.le_add_right_of_le (by omega))).1 (by
        show packet.bytePosition + topic.length = 2 + packet.topicLength
        omega)
    have wrapped : (packet.bytePosition + topic.length + 1) % 256 =
        packet.bytePosition + topic.length + 1 := Nat.mod_eq_of_lt (by omega)
    rw [round_header before high rest inHeader]
    show some (tookOne (before.parsePublishHeader (advanced packet topic.length) high)) = _
    rw [here]
    simp only [advanced, wrapped, upper]
  have behind : (client.collected packet topic).bytesBehind
      (packet.bytePosition + topic.length + 1) = payloadLength := by
    apply bytesBehind_eq
    · rw [same]
      show client.parsingInformation.remainingLength = _
      omega
    · rw [same]
      exact small
  have second (rest : Bytes) : round (before.hold (.publish upper)) (low :: rest) =
      some (tookOne
        ((client.collected packet topic).preparePayloadHandling last payloadLength)) := by
    have here := (parsePublishHeader_identifier (before.hold (.publish upper)) upper low (by
      show 2 ≤ packet.bytePosition + topic.length + 1
      omega)).2 (by
        show packet.bytePosition + topic.length + 1 = 3 + packet.topicLength
        omega)
    rw [round_header (before.hold (.publish upper)) low rest inHeader]
    show some (tookOne ((before.hold (.publish upper)).parsePublishHeader upper low)) = _
    have counted : (before.hold (.publish upper)).bytesBehind upper.bytePosition =
        payloadLength := behind
    rw [here, counted, preparePayloadHandling_hold, preparePayloadHandling_hold, number]
  refine ⟨last, rfl, ?_⟩
  rw [bytes, bytewise_append]
  have within : (before.hold (.publish upper)).parsingInformation.bufferState ≠ .NONE :=
    inHeader.trans_ne (by decide)
  exact collects.append
    (Takes.cons (inHeader.trans_ne (by decide)) first (Takes.byte within second))

/-- What the parts of a header collect is the message: its topic is in the buffer, or it is
ignored because that does not fit. -/
theorem messageCalls_collected (client : AsyncMqttClient) (message : Publication)
    (packet last : PublishPacket) (high : Nat)
    (room : client.parsingInformation.topicBuffer.length = client.maxTopicLength + 1)
    (ignored : last.ignore = decide (message.topic.bytes.length > client.maxTopicLength))
    (properties : last.properties = ⟨message.qos, message.dup, message.retain⟩)
    (level : last.qos = message.qos) (identifier : last.packetId = message.identifier) :
    (((client.named message.topic.bytes.length).hold (.publish
        (client.namedPacket packet high message.topic.bytes.length))).collected
          (client.namedPacket packet high message.topic.bytes.length)
          message.topic.bytes).messageCalls last message.payload =
      (ServerPacket.publish message).calls client.maxTopicLength := by
  by_cases long : message.topic.bytes.length > client.maxTopicLength
  · simp [messageCalls, ignored, long, ServerPacket.calls]
  · have fits : message.topic.bytes.length < client.parsingInformation.topicBuffer.length := by
      omega
    have topic := cStr_overwrite client.parsingInformation.topicBuffer message.topic fits
    simp [messageCalls, ignored, long, ServerPacket.calls, properties, level, identifier,
      collected, named, namedPacket, store, hold, topic]

/-- Naming and collecting keep everything but the contents of the buffer of the topic. -/
theorem collected_named (client : AsyncMqttClient) (topicLength : Nat) (other : Packet)
    (packet : PublishPacket) (characters : Bytes) :
    ∃ topicBuffer, topicBuffer.length = client.parsingInformation.topicBuffer.length ∧
      ((client.named topicLength).hold other).collected packet characters =
        ({ client with
          parsingInformation := { client.parsingInformation with topicBuffer } } :
          AsyncMqttClient).hold other := by
  unfold named
  split
  · unfold collected
    split
    · exact ⟨client.parsingInformation.topicBuffer, rfl, rfl⟩
    · exact ⟨_, length_overwrite _ _ _, rfl⟩
  · unfold collected
    split
    · exact ⟨client.parsingInformation.topicBuffer.set topicLength 0, List.length_set, rfl⟩
    · exact ⟨_, (length_overwrite _ _ _).trans List.length_set, rfl⟩

/-- Behind its header, a message ends with an idle client and the effects it asks for. -/
theorem takes_message (client gathered : AsyncMqttClient) (idle : Idle client)
    (message : Publication) (last : PublishPacket) (first : UInt8) (object : Packet)
    (known : newPacket (first.toNat >>> 4) first.toNat = some object) (front buffer : Bytes)
    (size : buffer.length = 4) (topicBuffer : Bytes) (other : Packet)
    (room : topicBuffer.length = client.parsingInformation.topicBuffer.length)
    (packetType packetFlags remainingLength : Nat)
    (same : gathered = ({ client with
      remainingLengthBuffer := buffer, remainingLengthBufferPosition := 0
      parsingInformation := { client.parsingInformation with
        topicBuffer, packetType, packetFlags, remainingLength,
        bufferState := .VARIABLE_HEADER } } : AsyncMqttClient).hold other)
    (unread : last.payloadBytesRead = 0)
    (asked : gathered.messageCalls last message.payload =
      (ServerPacket.publish message).calls client.maxTopicLength)
    (encoded : message.encode = first :: (front ++ message.payload))
    (header : (client.begun first object).Takes (bytewise front)
      (gathered.preparePayloadHandling last message.payload.length).1
      (gathered.preparePayloadHandling last message.payload.length).2) :
    client.Handles (.publish message) := by
  obtain ⟨next, done, read, spelling, kept, session⟩ :=
    takes_payload gathered last message.payload unread
  have before : gathered.session = client.session := by
    rw [same]
    rfl
  rw [asked, before] at spelling session
  have portions : (ServerPacket.publish message).portions =
      [first] :: (bytewise front ++ if message.payload = [] then [] else [message.payload]) := by
    have front_size : message.encode.take (message.encode.length - message.payload.length) =
        first :: front := by
      rw [encoded, ← List.cons_append, List.length_append, Nat.add_sub_cancel, List.take_left]
    rw [ServerPacket.portions, front_size, bytewise_cons, List.cons_append]
  refine ⟨first, _, object, next, portions, known, ?_, ⟨?_, ?_, ?_, ?_⟩, session, ?_, ?_⟩
  · have all := header.append read
    rw [spelling] at all
    exact all
  · rw [kept.between]
    rfl
  · rw [kept.position, same]
    rfl
  · rw [kept.lengthBuffer, same]
    exact size
  · rw [kept.between, same]
    exact room.trans idle.topicBuffer
  · rw [maxTopicLength, kept.between, same]
    rfl
  · rw [kept.connection, same]
    rfl

/-- A message is read to its end and has the effects it asks for. -/
theorem handles_publish (client : AsyncMqttClient) (idle : Idle client) (message : Publication)
    (limits : (ServerPacket.publish message).WithinLimits) :
    client.Handles (.publish message) := by
  obtain ⟨first, encoded, known, small⟩ := encode_message message limits
  obtain ⟨present, _, identifier, short, _⟩ := limits
  have narrow : message.topic.bytes.length < 2 ^ 16 := by omega
  have text : lengthPrefixed message.topic =
      twoBytes message.topic.bytes.length ++ message.topic.bytes := by
    rw [lengthPrefixed, textLength, Nat.mod_eq_of_lt narrow, List.take_length]
  have topicSize := List.length_pos_iff.mpr present
  have body : publishBody message.topic message.qos message.packetId message.payload =
      twoBytes message.topic.bytes.length ++ message.topic.bytes ++
        (if message.qos ≠ 0 then twoBytes message.packetId else []) ++ message.payload := by
    rw [publishBody, text]
  have bodyLength := congrArg List.length body
  simp only [List.length_append, length_twoBytes] at bodyLength
  generalize (publishBody message.topic message.qos message.packetId message.payload).length =
    remainingLength at encoded small bodyLength
  rw [body] at encoded
  let begun := client.begun first (.publish (opening message))
  obtain ⟨buffer, size, counts⟩ := takes_length begun remainingLength rfl idle.position
    idle.lengthBuffer (by omega) small
  let opened := begun.measured buffer remainingLength
  obtain ⟨high, topicLength⟩ := takes_topicLength opened (opening message)
    message.topic.bytes.length rfl rfl rfl rfl narrow
  let packet := opened.namedPacket (opening message) high message.topic.bytes.length
  let named := (opened.named message.topic.bytes.length).hold (.publish packet)
  have phase : named.parsingInformation.bufferState = .VARIABLE_HEADER := by
    simp only [named, AsyncMqttClient.named]
    split <;> rfl
  have counted : named.parsingInformation.remainingLength = remainingLength := by
    simp only [named, AsyncMqttClient.named]
    split <;> rfl
  obtain ⟨topicBuffer, room, gathered⟩ := collected_named opened message.topic.bytes.length
    (.publish packet) packet message.topic.bytes
  by_cases plain : message.qos = 0
  · rw [if_pos plain] at short
    rw [if_neg (not_not.mpr plain), List.length_nil] at bodyLength
    obtain ⟨last, _, shape, topic⟩ := takes_header_plain named packet message.topic.bytes
      message.payload.length phase rfl rfl rfl present (by omega) plain (by omega) (by omega)
    have asked := messageCalls_collected opened message (opening message) last high
      idle.topicBuffer (by rw [shape]; rfl) (by rw [shape]; rfl) (by rw [shape]; rfl)
      (by rw [shape, Publication.identifier, if_pos plain]; rfl)
    have bytes : message.encode = first :: ((encodeRemainingLength remainingLength ++
        (twoBytes message.topic.bytes.length ++ message.topic.bytes)) ++ message.payload) := by
      rw [encoded, if_neg (not_not.mpr plain)]
      simp
    have unread : last.payloadBytesRead = 0 := by
      rw [shape]
      rfl
    exact takes_message client _ idle message last first _ known _ buffer size topicBuffer
      (.publish packet) room _ _ _ gathered unread asked bytes
      (by
        rw [bytewise_append, bytewise_append]
        exact counts.append (topicLength.append topic))
  · rw [if_neg plain] at short
    rw [if_pos plain, length_twoBytes] at bodyLength
    obtain ⟨last, shape, topic⟩ := takes_header_identified named packet message.topic.bytes
      message.packetId message.payload.length phase rfl rfl rfl (by omega) plain identifier
      (by omega) (by omega)
    have asked := messageCalls_collected opened message (opening message) last high
      idle.topicBuffer (by rw [shape]; rfl) (by rw [shape]; rfl) (by rw [shape]; rfl)
      (by rw [shape, Publication.identifier, if_neg plain])
    have bytes : message.encode = first :: ((encodeRemainingLength remainingLength ++
        (twoBytes message.topic.bytes.length ++
          (message.topic.bytes ++ twoBytes message.packetId))) ++ message.payload) := by
      rw [encoded, if_pos plain]
      simp
    have unread : last.payloadBytesRead = 0 := by
      rw [shape]
      rfl
    exact takes_message client _ idle message last first _ known _ buffer size topicBuffer
      (.publish packet) room _ _ _ gathered unread asked bytes
      (by
        rw [bytewise_append, bytewise_append]
        exact counts.append (topicLength.append topic))

/-- Every packet is read to its end and has the effects it asks for. -/
theorem handles_packet (client : AsyncMqttClient) (idle : Idle client) (packet : ServerPacket)
    (limits : packet.WithinLimits) : client.Handles packet := by
  cases packet with
  | connAck sessionPresent connectReturnCode =>
    exact handles_connAck client idle.ready sessionPresent connectReturnCode
  | publish message => exact handles_publish client idle message limits
  | acknowledgement kind packetId =>
    exact handles_acknowledgement client idle kind packetId limits
  | subAck packetId status => exact handles_subAck client idle packetId status limits
  | pingResp => exact handles_pingResp client idle

/-- Reactions to calls in two parts. -/
theorem reactAll_append (session : Session) (first second : List Call) :
    session.reactAll (first ++ second) =
      (((session.reactAll first).1.reactAll second).1,
        (session.reactAll first).2 ++ ((session.reactAll first).1.reactAll second).2) := by
  induction first generalizing session with
  | nil => rfl
  | cons call rest ih => simp [Session.reactAll, ih]

/-- A packet is read from its type byte on. -/
theorem Handles.consumes {client : AsyncMqttClient} {packet : ServerPacket}
    (between : client.parsingInformation.bufferState = .NONE) (handles : client.Handles packet) :
    ∃ next, Consumes round client packet.portions next
        (client.session.reactAll (packet.calls client.maxTopicLength)).2 ∧
      client.Follows next (client.session.reactAll (packet.calls client.maxTopicLength)).1 := by
  obtain ⟨first, rest, object, next, portions, known, takes, follows⟩ := handles
  refine ⟨next, ?_, follows⟩
  rw [portions]
  exact .cons (List.cons_ne_nil first []) (round_begun client first object between known)
    (takes.mono fun state items took result => by
      unfold innerRound at result
      split at result
      · cases result
      · exact result)

/-- Packets are read one after the other. Induction on the packets; each leaves the client
idle. -/
theorem consumes_packets (client : AsyncMqttClient) (idle : Idle client)
    (packets : List ServerPacket) (limits : ∀ packet ∈ packets, packet.WithinLimits) :
    ∃ next, Consumes round client (packets.flatMap ServerPacket.portions) next
        (client.session.receive client.maxTopicLength packets).2 ∧
      client.Follows next (client.session.receive client.maxTopicLength packets).1 := by
  induction packets generalizing client with
  | nil => exact ⟨client, .nil client, idle, rfl, rfl, rfl⟩
  | cons packet rest ih =>
    obtain ⟨first, others⟩ := List.forall_mem_cons.mp limits
    obtain ⟨middle, read, follows⟩ :=
      (handles_packet client idle packet first).consumes idle.between
    obtain ⟨next, later, behind⟩ := ih middle follows.idle others
    rw [follows.session, follows.limit] at later behind
    have whole := reactAll_append client.session (packet.calls client.maxTopicLength)
      (rest.flatMap (ServerPacket.calls client.maxTopicLength))
    rw [List.flatMap_cons, Session.receive, List.flatMap_cons, whole]
    exact ⟨next, read.append later, behind.idle, behind.session,
      behind.limit.trans follows.limit, behind.connection.trans follows.connection⟩

/-- The portions of a packet make up its bytes. -/
theorem flatten_portions (packet : ServerPacket) (limits : packet.WithinLimits) :
    packet.portions.flatten = packet.encode := by
  cases packet with
  | publish message =>
    obtain ⟨first, encoded, _⟩ := encode_message message limits
    have payload : message.payload <:+ message.encode := by
      rw [encoded, publishBody]
      exact ((List.suffix_append _ _).trans (List.suffix_append _ _))
    obtain ⟨front, whole⟩ := payload
    have size : message.encode.take (message.encode.length - message.payload.length) = front := by
      rw [← whole, List.length_append, Nat.add_sub_cancel, List.take_left]
    rw [ServerPacket.portions, size, List.flatten_append, flatten_bytewise]
    refine Eq.trans (congrArg (front ++ ·) ?_) whole
    split
    · next empty => rw [empty, List.flatten_nil]
    · rw [List.flatten_cons, List.flatten_nil, List.append_nil]
  | _ => exact flatten_bytewise _

/-- The portions of some packets make up their bytes. -/
theorem flatten_packets (packets : List ServerPacket)
    (limits : ∀ packet ∈ packets, packet.WithinLimits) :
    (packets.flatMap ServerPacket.portions).flatten = packets.flatMap ServerPacket.encode := by
  induction packets with
  | nil => rfl
  | cons packet rest ih =>
    obtain ⟨first, others⟩ := List.forall_mem_cons.mp limits
    rw [List.flatMap_cons, List.flatten_append, flatten_portions packet first, ih others,
      List.flatMap_cons]

/-- Packets are read byte by byte. -/
theorem takes_packets (client : AsyncMqttClient) (idle : Idle client)
    (packets : List ServerPacket) (limits : ∀ packet ∈ packets, packet.WithinLimits) :
    ∃ next, Reads round spell client (packets.flatMap ServerPacket.encode) next
        ((client.session.receive client.maxTopicLength packets).2.flatMap spell) ∧
      client.Follows next (client.session.receive client.maxTopicLength packets).1 := by
  obtain ⟨next, consumes, follows⟩ := consumes_packets client idle packets limits
  have reads := consumes.reads round_divisible
  rw [flatten_packets packets limits] at reads
  exact ⟨next, reads, follows⟩

/-- For every idle client, every list of packets within the limits and every way of cutting their
bytes into nonempty segments, the client reads all of them, is idle again, and its session
and effects are those that the packets ask for, messages being compared by their bytes. -/
theorem wire_refines_packets (client : AsyncMqttClient) (idle : Idle client)
    (packets : List ServerPacket) (limits : ∀ packet ∈ packets, packet.WithinLimits)
    (segments : List Bytes) (nonempty : ∀ segment ∈ segments, segment ≠ [])
    (cut : segments.flatten = packets.flatMap ServerPacket.encode) :
    ∃ next effects, client.onData segments = some (next, effects) ∧ Idle next ∧
      next.session = (client.session.receive client.maxTopicLength packets).1 ∧
      effects.flatMap spell =
        (client.session.receive client.maxTopicLength packets).2.flatMap spell := by
  obtain ⟨next, read, follows⟩ := takes_packets client idle packets limits
  have single : PortionedStreams.single round spell client segments.flatten = some (next, _) :=
    cut ▸ read
  obtain ⟨effects, result, spelling⟩ :=
    segments_of_single round spell round_divisible client next segments _ nonempty single
  exact ⟨next, effects, result, follows.idle, follows.session, spelling⟩

/-- A client that has just connected is idle. -/
theorem idle_connected (memory : Bytes) (room : memory.length = 129) :
    Idle (construct memory).connect := ⟨rfl, rfl, rfl, room⟩

/-- The first packets of a session: the answer to the connection request and a message,
cut inside of both. -/
theorem wire_refines_packets_message :
    let packets : List ServerPacket :=
      [.connAck false 0, .publish ⟨⟨[0x74], by decide⟩, 1, false, true, 7, [0x31, 0x32]⟩]
    let client := (construct (List.replicate 129 0)).connect
    ∃ next effects,
      client.onData [[0x20, 2, 0], [0, 0x33, 7, 0, 1, 0x74, 0, 7, 0x31], [0x32]] =
        some (next, effects) ∧ Idle next ∧
      next.session = (client.session.receive client.maxTopicLength packets).1 ∧
      effects.flatMap spell =
        (client.session.receive client.maxTopicLength packets).2.flatMap spell :=
  wire_refines_packets _ (idle_connected _ rfl) _ (by simp [ServerPacket.WithinLimits]) _ (by simp)
    (by decide)

end AsyncMqttClient

end WhirlpoolAc.MqttReceiver
