import WhirlpoolAc.MqttReceiver

/-!
# Received segments

The network cuts the stream of the server where it likes. Outside of a payload the parser
takes one byte a round; a payload is passed on in pieces that end with the segment. Spelled
by their bytes with their places, the pieces of any cut are those of single bytes, and the
end of the message is reported once, behind its last byte.

So the parser is a divisible reader, from every state and on arbitrary bytes.
-/

namespace WhirlpoolAc.MqttReceiver

open ByteStrings PortionedStreams RemainingLength

/-- A piece of a message leaves the session as it is. -/
@[simp] theorem Session.onMessage_fst (session : Session) (topic : CString)
    (properties : MessageProperties) (packetId : Nat) (payload : Bytes) (index total : Nat) :
    (session.onMessage topic properties packetId payload index total).1 = session := by
  unfold Session.onMessage
  split <;> rfl

/-- The spelling of a nonempty piece, or nothing for a message that has been passed on
before. -/
theorem spell_onMessage (session : Session) (topic : CString) (properties : MessageProperties)
    (packetId : Nat) (payload : Bytes) (index total : Nat) (present : payload ≠ []) :
    (session.onMessage topic properties packetId payload index total).2.flatMap spell =
      if properties.qos = 2 ∧ packetId ∈ session.pendingPubRels then []
      else spellPiece topic properties total index payload := by
  unfold Session.onMessage
  split
  · rfl
  · simp [spell, present]

namespace AsyncMqttClient

/-- The state behind a piece of a payload. -/
def afterPiece (client : AsyncMqttClient) (packet : PublishPacket) (count : Nat) :
    AsyncMqttClient :=
  let next := { packet with payloadBytesRead := packet.payloadBytesRead + count }
  if packet.payloadBytesRead + count = packet.payloadLength then
    if packet.ignore then (client.enter .NONE).hold (.publish next)
    else
      { client.enter .NONE with
        session := (client.session.onPublish packet.packetId packet.qos).1,
        currentParsedPacket := none }
  else client.hold (.publish next)

/-- What is reported of a piece: the piece itself, and behind the last one the end of the
message. -/
def pieceEffects (client : AsyncMqttClient) (packet : PublishPacket) (piece : Bytes) :
    List Effect :=
  if packet.ignore then []
  else
    (client.session.onMessage (cStr client.parsingInformation.topicBuffer) packet.properties
      packet.packetId piece packet.payloadBytesRead packet.payloadLength).2 ++
      if packet.payloadBytesRead + piece.length = packet.payloadLength then
        (client.session.onPublish packet.packetId packet.qos).2
      else []

/-- A piece is passed on with its size. -/
theorem passOn_eq (client : AsyncMqttClient) (packet : PublishPacket) (piece : Bytes) :
    client.passOn packet piece =
      (client.afterPiece packet piece.length, piece.length,
        client.pieceEffects packet piece) := by
  unfold passOn afterPiece pieceEffects
  by_cases last : packet.payloadBytesRead + piece.length = packet.payloadLength
  · by_cases ignored : packet.ignore = true
    · simp [last, ignored]
    · simp [last, ignored, calls, Session.reactAll, Session.react, enter]
  · by_cases ignored : packet.ignore = true
    · simp [last, ignored]
    · simp [last, ignored, Session.react]

/-- The piece of the payload that a segment holds is passed on. -/
theorem parsePayload_take (client : AsyncMqttClient) (packet : PublishPacket) (data : Bytes)
    (unread : packet.payloadBytesRead < packet.payloadLength) :
    client.parsePayload packet data =
      some (client.passOn packet
        (data.take (packet.payloadLength - packet.payloadBytesRead))) := by
  rw [parsePayload, if_pos unread]
  by_cases more : packet.payloadBytesRead + data.length > packet.payloadLength
  · rw [if_pos more]
  · have whole : data.take (packet.payloadLength - packet.payloadBytesRead) = data :=
      List.take_of_length_le (by omega)
    simp [if_neg more, whole]

/-- A piece that does not exceed the rest of the payload is passed on whole. -/
theorem parsePayload_inside (client : AsyncMqttClient) (packet : PublishPacket) (piece : Bytes)
    (present : piece ≠ [])
    (inside : packet.payloadBytesRead + piece.length ≤ packet.payloadLength) :
    client.parsePayload packet piece =
      some (client.afterPiece packet piece.length, piece.length,
        client.pieceEffects packet piece) := by
  have positive := List.length_pos_iff.mpr present
  rw [parsePayload_take client packet piece (by omega), List.take_of_length_le (by omega),
    passOn_eq]

/-- Between packets, a round begins one. -/
theorem round_type (client : AsyncMqttClient) (first : UInt8) (rest : Bytes)
    (phase : client.parsingInformation.bufferState = .NONE) :
    round client (first :: rest) = some (tookOne (client.receiveType first)) := by
  simp [round, phase]

/-- In a length, a round takes its next byte. -/
theorem round_length (client : AsyncMqttClient) (first : UInt8) (rest : Bytes)
    (phase : client.parsingInformation.bufferState = .REMAINING_LENGTH) :
    round client (first :: rest) = (client.receiveLength first).map tookOne := by
  simp [round, phase]

/-- In a header, a round gives its next byte to the packet. -/
theorem round_header (client : AsyncMqttClient) (first : UInt8) (rest : Bytes)
    (phase : client.parsingInformation.bufferState = .VARIABLE_HEADER) :
    round client (first :: rest) =
      client.currentParsedPacket.bind fun packet =>
        (client.parseVariableHeader first packet).map tookOne := by
  simp [round, phase]

/-- In front of a payload, a round parses it. -/
theorem round_payload (client : AsyncMqttClient) (packet : PublishPacket) (first : UInt8)
    (rest : Bytes) (inPayload : client.parsingInformation.bufferState = .PAYLOAD)
    (held : client.currentParsedPacket = some (.publish packet)) :
    round client (first :: rest) = client.parsePayload packet (first :: rest) := by
  simp [round, inPayload, held]

/-- The rounds inside of a packet. -/
def innerRound : Round AsyncMqttClient UInt8 Effect := fun client bytes =>
  if client.parsingInformation.bufferState = .NONE then none else round client bytes

/-- Inside of a packet they are the rounds of the parser. -/
theorem innerRound_eq (client : AsyncMqttClient) (bytes : Bytes)
    (within : client.parsingInformation.bufferState ≠ .NONE) :
    innerRound client bytes = round client bytes := if_neg within

/-- What is read inside of a packet is read. -/
theorem leave_packet {before after : AsyncMqttClient} {bytes : Bytes} {done : List Spelled}
    (reads : Reads innerRound spell before bytes after done) :
    Reads round spell before bytes after done := by
  refine Reads.mono (fun client byte took result => ?_) reads
  unfold innerRound at result
  split at result
  · cases result
  · exact result

/-- A piece that leaves something of the payload is counted. -/
theorem afterPiece_unfinished (client : AsyncMqttClient) (packet : PublishPacket) (count : Nat)
    (short : packet.payloadBytesRead + count < packet.payloadLength) :
    client.afterPiece packet count =
      client.hold (.publish
        { packet with payloadBytesRead := packet.payloadBytesRead + count }) := by
  have unfinished : packet.payloadBytesRead + count ≠ packet.payloadLength := Nat.ne_of_lt short
  simp [afterPiece, unfinished]

/-- The state behind a piece is the state behind its parts. -/
theorem afterPiece_add (client : AsyncMqttClient) (packet : PublishPacket)
    (first second : Nat) (short : packet.payloadBytesRead + first < packet.payloadLength) :
    (client.afterPiece packet first).afterPiece
        { packet with payloadBytesRead := packet.payloadBytesRead + first } second =
      client.afterPiece packet (first + second) := by
  rw [afterPiece_unfinished client packet first short]
  simp [afterPiece, hold, enter, Nat.add_assoc]

/-- A piece spells what its first byte and then the rest of it spell. -/
theorem pieceEffects_cons (client : AsyncMqttClient) (packet : PublishPacket) (first : UInt8)
    (rest : Bytes) (present : rest ≠ [])
    (short : packet.payloadBytesRead + 1 < packet.payloadLength) :
    (client.pieceEffects packet (first :: rest)).flatMap spell =
      (client.pieceEffects packet [first]).flatMap spell ++
        ((client.afterPiece packet 1).pieceEffects
          { packet with payloadBytesRead := packet.payloadBytesRead + 1 } rest).flatMap spell := by
  have unfinished : packet.payloadBytesRead + 1 ≠ packet.payloadLength := Nat.ne_of_lt short
  have counted : packet.payloadBytesRead + (rest.length + 1) =
      packet.payloadBytesRead + 1 + rest.length := by omega
  have spelling (piece : Bytes) (index : Nat) := spell_onMessage client.session
    (cStr client.parsingInformation.topicBuffer) ⟨packet.qos, packet.dup, packet.retain⟩
    packet.packetId piece index packet.payloadLength
  have whole := spelling (first :: rest) packet.payloadBytesRead (List.cons_ne_nil first rest)
  have front := spelling [first] packet.payloadBytesRead (List.cons_ne_nil first [])
  have back := spelling rest (packet.payloadBytesRead + 1) present
  rw [afterPiece_unfinished client packet 1 short]
  by_cases ignored : packet.ignore = true
  · simp [pieceEffects, ignored]
  · simp only [pieceEffects, ignored, hold, if_false, Bool.false_eq_true, List.flatMap_append,
      List.length_cons, List.length_nil, Nat.zero_add, unfinished, List.append_nil,
      PublishPacket.properties, whole, front, back, counted]
    split
    · simp
    · simp [spellPiece]

/-- The bytes of a piece, one by one, do what the piece does. Induction on the piece. -/
theorem reads_piece (client : AsyncMqttClient) (packet : PublishPacket) (piece : Bytes)
    (inPayload : client.parsingInformation.bufferState = .PAYLOAD)
    (held : client.currentParsedPacket = some (.publish packet)) (present : piece ≠ [])
    (inside : packet.payloadBytesRead + piece.length ≤ packet.payloadLength) :
    Reads innerRound spell client piece (client.afterPiece packet piece.length)
      ((client.pieceEffects packet piece).flatMap spell) := by
  induction piece generalizing client packet with
  | nil => exact absurd rfl present
  | cons first rest ih =>
    rw [List.length_cons] at inside
    have parsed := parsePayload_inside client packet [first] (List.cons_ne_nil first [])
      (by
        rw [List.length_singleton]
        omega)
    have within : client.parsingInformation.bufferState ≠ .NONE := by
      rw [inPayload]
      decide
    rw [← round_payload client packet first [] inPayload held, ← innerRound_eq client _ within]
      at parsed
    cases rest with
    | nil => exact Reads.one spell parsed
    | cons second others =>
      have more : (second :: others) ≠ [] := List.cons_ne_nil second others
      have count := List.length_pos_iff.mpr more
      have short : packet.payloadBytesRead + 1 < packet.payloadLength := by omega
      have counted := afterPiece_unfinished client packet 1 short
      have later := ih (client.afterPiece packet 1)
        { packet with payloadBytesRead := packet.payloadBytesRead + 1 }
        (by rw [counted, hold, inPayload]) (by rw [counted, hold]) more (by
          show packet.payloadBytesRead + 1 + _ ≤ packet.payloadLength
          omega)
      have all := Reads.cons parsed later
      rw [← pieceEffects_cons client packet first _ more short,
        afterPiece_add client packet 1 _ short, Nat.add_comm 1] at all
      exact all

/-- Outside of a payload a round depends on the first byte alone. -/
theorem round_first (client : AsyncMqttClient) (first : UInt8) (rest : Bytes)
    (elsewhere : ∀ packet, client.parsingInformation.bufferState = .PAYLOAD →
      client.currentParsedPacket ≠ some (.publish packet)) :
    round client (first :: rest) = round client [first] := by
  cases phase : client.parsingInformation.bufferState with
  | PAYLOAD =>
    cases held : client.currentParsedPacket with
    | none => simp [round, phase, held]
    | some packet =>
      cases packet with
      | publish packet => exact absurd held (elsewhere packet phase)
      | _ => simp [round, phase, held]
  | _ => simp [round, phase]

/-- A round on one byte takes it. -/
theorem round_one (client next : AsyncMqttClient) (first : UInt8) (taken : Nat)
    (effects : List Effect) (result : round client [first] = some (next, taken, effects)) :
    taken = 1 := by
  have took (outcome : Option (AsyncMqttClient × List Effect))
      (made : outcome.map tookOne = some (next, taken, effects)) : taken = 1 := by
    obtain ⟨inner, _, same⟩ := Option.map_eq_some_iff.mp made
    exact (congrArg (fun tuple => tuple.2.1) same).symm
  cases phase : client.parsingInformation.bufferState with
  | NONE =>
    rw [round_type client first [] phase] at result
    exact took (some _) result
  | REMAINING_LENGTH =>
    rw [round_length client first [] phase] at result
    exact took _ result
  | VARIABLE_HEADER =>
    rw [round_header client first [] phase] at result
    obtain ⟨packet, _, made⟩ := Option.bind_eq_some_iff.mp result
    exact took _ made
  | PAYLOAD =>
    cases held : client.currentParsedPacket with
    | none => simp [round, phase, held] at result
    | some packet =>
      cases packet with
      | publish packet =>
        rw [round_payload client packet first [] phase held] at result
        by_cases unread : packet.payloadBytesRead < packet.payloadLength
        · have parsed := parsePayload_inside client packet [first] (List.cons_ne_nil _ _) unread
          rw [parsed] at result
          exact (congrArg (fun tuple => tuple.2.1) (Option.some.inj result)).symm
        · simp [parsePayload, unread] at result
      | subAck bytePosition packetIdMsb packetId =>
        simp only [round, phase, held] at result
        exact took (some _) result
      | connAck bytePosition sessionPresent => simp [round, phase, held] at result
      | pingResp => simp [round, phase, held] at result
      | acknowledgement kind bytePosition packetIdMsb => simp [round, phase, held] at result

/-- Inside of a packet the parser does with a portion what it does with its bytes one by
one. -/
theorem innerRound_divisible : Divisible innerRound spell := by
  constructor
  · intro client first rest next taken effects result
    have within : client.parsingInformation.bufferState ≠ .NONE := by
      intro ended
      rw [innerRound, if_pos ended] at result
      cases result
    rw [innerRound_eq client _ within] at result
    by_cases inPayload : ∃ packet, client.parsingInformation.bufferState = .PAYLOAD ∧
        client.currentParsedPacket = some (.publish packet)
    · obtain ⟨packet, phase, held⟩ := inPayload
      rw [round_payload client packet first rest phase held] at result
      by_cases unread : packet.payloadBytesRead < packet.payloadLength
      · let piece := (first :: rest).take (packet.payloadLength - packet.payloadBytesRead)
        have length : piece.length ≤ packet.payloadLength - packet.payloadBytesRead :=
          List.length_take_le _ _
        have present : piece ≠ [] := by
          intro empty
          have size : piece.length = 0 := by rw [empty, List.length_nil]
          rw [List.length_take, List.length_cons] at size
          omega
        have bounded : packet.payloadBytesRead + piece.length ≤ packet.payloadLength := by omega
        rw [parsePayload_take client packet _ unread, passOn_eq] at result
        cases result
        have taken : (first :: rest).take piece.length = piece := by
          rw [List.length_take, ← List.take_take, List.take_length]
        rw [taken]
        exact ⟨List.length_pos_iff.mpr present,
          reads_piece client packet piece phase held present bounded⟩
      · simp [parsePayload, unread] at result
    · have alone := round_first client first rest fun packet phase held =>
        inPayload ⟨packet, phase, held⟩
      rw [alone] at result
      have single := round_one client next first taken effects result
      subst single
      exact ⟨Nat.one_pos, Reads.one spell ((innerRound_eq client _ within).trans result)⟩
  · intro client first rest result
    by_cases ended : client.parsingInformation.bufferState = .NONE
    · exact if_pos ended
    · rw [innerRound_eq client _ ended] at result ⊢
      by_cases inPayload : ∃ packet, client.parsingInformation.bufferState = .PAYLOAD ∧
          client.currentParsedPacket = some (.publish packet)
      · obtain ⟨packet, phase, held⟩ := inPayload
        rw [round_payload client packet first rest phase held] at result
        rw [round_payload client packet first [] phase held]
        by_cases unread : packet.payloadBytesRead < packet.payloadLength
        · rw [parsePayload_take client packet _ unread] at result
          cases result
        · simp [parsePayload, unread]
      · rw [round_first client first rest fun packet phase held =>
          inPayload ⟨packet, phase, held⟩] at result
        exact result

/-- So it does everywhere, since a packet begins with a single byte. -/
theorem round_divisible : Divisible round spell := by
  constructor
  · intro client first rest next taken effects result
    by_cases between : client.parsingInformation.bufferState = .NONE
    · rw [round_type client first rest between] at result
      cases result
      exact ⟨Nat.one_pos, Reads.one spell (round_type client first [] between)⟩
    · rw [← innerRound_eq client _ between] at result
      obtain ⟨positive, single⟩ :=
        innerRound_divisible.portion client first rest next taken effects result
      exact ⟨positive, leave_packet single⟩
  · intro client first rest result
    by_cases between : client.parsingInformation.bufferState = .NONE
    · rw [round_type client first rest between] at result
      cases result
    · rw [← innerRound_eq client _ between] at result ⊢
      exact innerRound_divisible.stuck client first rest result

/-- For every state of the client and every stream of bytes, any two ways of cutting the
stream into segments end alike: neither is read to its end, or both leave the client in
the same state and report the same effects, messages being compared by their bytes. -/
theorem segmentation_irrelevant (client : AsyncMqttClient) (segments others : List Bytes)
    (nonempty : ∀ segment ∈ segments, segment ≠ [])
    (nonempty' : ∀ segment ∈ others, segment ≠ []) (same : segments.flatten = others.flatten) :
    spelled spell (client.onData segments) = spelled spell (client.onData others) :=
  segments_cut round spell round_divisible client segments others nonempty nonempty' same

/-- A message in a payload of three bytes, cut in its topic and inside its payload. -/
theorem segmentation_irrelevant_threeBytes :
    spelled spell ((construct (List.replicate 129 0)).connect.onData
        [[0x30, 6, 0, 1], [0x74, 1], [2, 3]]) =
      spelled spell ((construct (List.replicate 129 0)).connect.onData
        [[0x30, 6, 0, 1, 0x74, 1, 2, 3]]) :=
  segmentation_irrelevant _ _ _ (by simp) (by simp) rfl

end AsyncMqttClient

end WhirlpoolAc.MqttReceiver
