import WhirlpoolAc.MqttSession

/-!
# Connections that break anywhere

A connection may end inside of a packet. The client then clears its parser but not the
position in the length buffer, so up to three bytes of an unfinished length stay in front
of the next length that is read. That length belongs to the answer to the connection
request, whose header takes two bytes whatever its length says, and behind it the position
is zero again.

So what a broken connection leaves behind is the session and nothing else: the packets that
came whole count, and of the last one the bytes of its payload that had come are reported,
without an acknowledgement and without its identifier starting to wait.
-/

namespace WhirlpoolAc.MqttReceiver

open ByteStrings PortionedStreams RemainingLength MqttPackets

/-- A byte of a message. -/
def Spelled.IsByte : Spelled → Prop
  | .byte .. => True
  | .whole _ => False

/-- A nonempty piece is spelled by bytes. -/
theorem isByte_spellPiece (topic : CString) (properties : MessageProperties) (total index : Nat)
    (payload : Bytes) : ∀ item ∈ spellPiece topic properties total index payload, item.IsByte := by
  induction payload generalizing index with
  | nil => simp [spellPiece]
  | cons value rest ih =>
    rw [spellPiece, List.forall_mem_cons]
    exact ⟨trivial, ih (index + 1)⟩

/-- Which identifiers wait does not depend on the state of the connection. -/
theorem Session.reactAll_pending (first second : Session)
    (same : first.pendingPubRels = second.pendingPubRels) (made : List Call) :
    (first.reactAll made).1.pendingPubRels = (second.reactAll made).1.pendingPubRels := by
  induction made generalizing first second with
  | nil => exact same
  | cons call rest ih =>
    refine ih _ _ ?_
    cases call with
    | onConnAck sessionPresent connectReturnCode =>
      cases sessionPresent <;> by_cases accepted : connectReturnCode = 0 <;>
        simp [Session.react, Session.onConnAck, accepted, same]
    | onPingResp => exact same
    | onSubAck packetId status => exact same
    | onMessage topic properties packetId payload index total =>
      simp [Session.react, same]
    | onPublish packetId qos =>
      simp only [Session.react, Session.onPublish, same]
      split
      · exact same
      · split
        · rfl
        · exact same
    | onAcknowledgement kind packetId =>
      cases kind with
      | pubRel => exact congrArg (Session.eraseLoop packetId) same
      | _ => exact same

/-- Receiving in two parts. -/
theorem receive_append (maxTopicLength : Nat) (session : Session)
    (first second : List ServerPacket) :
    session.receive maxTopicLength (first ++ second) =
      let before := session.receive maxTopicLength first
      ((before.1.receive maxTopicLength second).1,
        before.2 ++ (before.1.receive maxTopicLength second).2) := by
  rw [Session.receive, List.flatMap_append, AsyncMqttClient.reactAll_append]
  rfl

namespace AsyncMqttClient

/-- A client inside of a packet that it began as another one: nothing but the packet has
changed, and the length bytes so far have the mark. -/
structure Within (start client : AsyncMqttClient) : Prop where
  session : client.session = start.session
  limit : client.maxTopicLength = start.maxTopicLength
  connection : client.connectionOpen = start.connectionOpen
  lengthBuffer : client.remainingLengthBuffer.length = 4
  marked : ∀ byte ∈ client.remainingLengthBuffer.take client.remainingLengthBufferPosition,
    Continues byte
  counted : client.parsingInformation.bufferState ≠ .REMAINING_LENGTH →
    client.remainingLengthBufferPosition = 0
  topicBuffer : client.parsingInformation.topicBuffer.length =
    client.parsingInformation.maxTopicLength + 1

variable {start client : AsyncMqttClient}

/-- Another packet object changes nothing about it. -/
theorem Within.hold (within : Within start client) (packet : Packet) :
    Within start (client.hold packet) := { within with }

/-- Nor does a character of a topic. -/
theorem Within.store (within : Within start client) (index : Nat) (character : UInt8) :
    Within start (client.store index character) :=
  { within with topicBuffer := List.length_set.trans within.topicBuffer }

/-- Nor does the payload behind a header. -/
theorem Within.enter (within : Within start client)
    (header : client.parsingInformation.bufferState = .VARIABLE_HEADER) :
    Within start (client.enter .PAYLOAD) :=
  { within with counted := fun _ => within.counted (header.trans_ne (by decide)) }

/-- What a byte inside of a packet leads to: its end, or another state inside of it with
nothing but bytes of a message reported. -/
def Progress (start : AsyncMqttClient) (outcome : AsyncMqttClient × List Effect) : Prop :=
  outcome.1.parsingInformation.bufferState = .NONE ∨
    Within start outcome.1 ∧ ∀ item ∈ outcome.2.flatMap spell, item.IsByte

/-- Progress without a report. -/
theorem Within.quiet (within : Within start client) : Progress start (client, []) :=
  .inr ⟨within, by simp⟩

/-- A byte of a length. -/
theorem progress_length (within : Within start client) (byte : UInt8)
    (phase : client.parsingInformation.bufferState = .REMAINING_LENGTH)
    (outcome : AsyncMqttClient × List Effect) (result : client.receiveLength byte = some outcome) :
    Progress start outcome := by
  by_cases room : client.remainingLengthBufferPosition < client.remainingLengthBuffer.length
  · rw [receiveLength, if_pos room] at result
    by_cases continues : Continues byte
    · rw [if_pos continues] at result
      cases result
      refine Within.quiet { within with
        lengthBuffer := List.length_set.trans within.lengthBuffer
        marked := fun stored member => ?_
        counted := fun elsewhere => absurd phase elsewhere }
      have grown : (client.remainingLengthBuffer.set client.remainingLengthBufferPosition
          byte).take (client.remainingLengthBufferPosition + 1) =
          client.remainingLengthBuffer.take client.remainingLengthBufferPosition ++ [byte] := by
        rw [List.take_set, List.take_add_one, List.getElem?_eq_getElem room,
          List.set_append_right _ _ (List.length_take_le _ _)]
        simp [Nat.min_eq_left (Nat.le_of_lt room)]
      rw [grown, List.mem_append, List.mem_singleton] at member
      obtain earlier | rfl := member
      · exact within.marked stored earlier
      · exact continues
    · rw [if_neg continues] at result
      obtain ⟨remainingLength, _, rfl⟩ := Option.map_eq_some_iff.mp result
      by_cases positive : remainingLength > 0
      · rw [if_pos positive]
        exact Within.quiet { within with
          lengthBuffer := List.length_set.trans within.lengthBuffer
          marked := by simp [AsyncMqttClient.enter]
          counted := fun _ => rfl }
      · rw [if_neg positive]
        exact .inl rfl
  · rw [receiveLength, if_neg room] at result
    cases result

/-- The end of a header. -/
theorem progress_prepare (within : Within start client)
    (header : client.parsingInformation.bufferState = .VARIABLE_HEADER)
    (packet : PublishPacket) (payloadLength : Nat) :
    Progress start (client.preparePayloadHandling packet payloadLength) := by
  unfold preparePayloadHandling
  split
  · dsimp only
    split
    · exact .inl rfl
    · exact .inl rfl
  · exact ((within.enter header).hold _).quiet

/-- A byte of a message's header. -/
theorem progress_publishHeader (within : Within start client)
    (header : client.parsingInformation.bufferState = .VARIABLE_HEADER)
    (packet : PublishPacket) (byte : UInt8) :
    Progress start (client.parsePublishHeader packet byte) := by
  unfold parsePublishHeader
  dsimp only
  split
  · exact (within.hold _).quiet
  · split
    · split
      · exact (within.hold _).quiet
      · exact ((within.store _ _).hold _).quiet
    · split
      · have stored : Within start
            (if packet.ignore then client else client.store (packet.bytePosition - 2) byte) := by
          split
          · exact within
          · exact within.store _ _
        have phase : (if packet.ignore then client
            else client.store (packet.bytePosition - 2) byte).parsingInformation.bufferState =
              .VARIABLE_HEADER := by
          split
          · exact header
          · exact header
        split
        · exact progress_prepare stored phase _ _
        · exact (stored.hold _).quiet
      · split
        · exact (within.hold _).quiet
        · exact progress_prepare within header _ _

/-- A byte of a header. -/
theorem progress_header (within : Within start client)
    (header : client.parsingInformation.bufferState = .VARIABLE_HEADER) (packet : Packet)
    (byte : UInt8) (outcome : AsyncMqttClient × List Effect)
    (result : client.parseVariableHeader byte packet = some outcome) :
    Progress start outcome := by
  cases packet with
  | connAck bytePosition sessionPresent =>
    rw [parseVariableHeader] at result
    split at result
    · cases result
      exact (within.hold _).quiet
    · cases result
      exact .inl rfl
  | pingResp => cases result
  | subAck bytePosition packetIdMsb packetId =>
    rw [parseVariableHeader] at result
    split at result
    · cases result
      exact (within.hold _).quiet
    · cases result
      exact ((within.enter header).hold _).quiet
  | acknowledgement kind bytePosition packetIdMsb =>
    rw [parseVariableHeader] at result
    split at result
    · cases result
      exact (within.hold _).quiet
    · cases result
      exact .inl rfl
  | publish packet =>
    cases result
    exact progress_publishHeader within header packet byte

/-- A byte of a payload. -/
theorem progress_payload (within : Within start client) (packet : PublishPacket) (byte : UInt8)
    (unread : packet.payloadBytesRead < packet.payloadLength) :
    Progress start (client.afterPiece packet 1, client.pieceEffects packet [byte]) := by
  by_cases last : packet.payloadBytesRead + 1 = packet.payloadLength
  · left
    simp only [afterPiece, last, if_true]
    split <;> rfl
  · right
    rw [afterPiece_unfinished client packet 1 (by omega)]
    refine ⟨within.hold _, ?_⟩
    unfold pieceEffects
    split
    · simp
    · rw [List.length_singleton, if_neg last, List.append_nil,
        spell_onMessage client.session _ _ _ [byte] _ _ (List.cons_ne_nil byte [])]
      split
      · simp
      · exact isByte_spellPiece _ _ _ _ _

/-- One byte inside of a packet. -/
theorem innerRound_progress (within : Within start client) (byte : UInt8)
    (next : AsyncMqttClient) (taken : Nat) (effects : List Effect)
    (result : innerRound client [byte] = some (next, taken, effects)) :
    Progress start (next, effects) := by
  unfold innerRound at result
  split at result
  · cases result
  · next inner =>
    cases phase : client.parsingInformation.bufferState with
    | NONE => exact absurd phase inner
    | REMAINING_LENGTH =>
      rw [round_length client byte [] phase] at result
      obtain ⟨outcome, made, same⟩ := Option.map_eq_some_iff.mp result
      cases same
      exact progress_length within byte phase outcome made
    | VARIABLE_HEADER =>
      rw [round_header client byte [] phase] at result
      obtain ⟨packet, _, parsed⟩ := Option.bind_eq_some_iff.mp result
      obtain ⟨outcome, made, same⟩ := Option.map_eq_some_iff.mp parsed
      cases same
      exact progress_header within phase packet byte outcome made
    | PAYLOAD =>
      cases held : client.currentParsedPacket with
      | none => simp [round, phase, held] at result
      | some packet =>
        cases packet with
        | publish packet =>
          rw [round_payload client packet byte [] phase held] at result
          by_cases unread : packet.payloadBytesRead < packet.payloadLength
          · rw [parsePayload_inside client packet [byte] (List.cons_ne_nil byte []) unread]
              at result
            cases result
            exact progress_payload within packet byte unread
          · simp [parsePayload, unread] at result
        | subAck bytePosition packetIdMsb packetId =>
          simp only [round, phase, held] at result
          cases result
          exact .inl rfl
        | connAck bytePosition sessionPresent => simp [round, phase, held] at result
        | pingResp => simp [round, phase, held] at result
        | acknowledgement kind bytePosition packetIdMsb => simp [round, phase, held] at result

/-- A reading that goes on inside of a packet has stayed inside of it. -/
theorem takes_within (within : Within start client) (bytes rest : Bytes)
    (middle next : AsyncMqttClient) (done later : List Spelled) (more : rest ≠ [])
    (takes : Reads innerRound spell client bytes middle done)
    (goesOn : Reads innerRound spell middle rest next later) :
    Within start middle ∧ middle.remainingLengthBufferPosition ≤ 3 ∧
      ∀ item ∈ done, item.IsByte := by
  obtain ⟨byte, others, rfl⟩ := List.exists_cons_of_ne_nil more
  have read : single innerRound spell middle (byte :: others) = some (next, later) := goesOn
  rw [single] at read
  obtain ⟨took, first, _⟩ := Option.bind_eq_some_iff.mp read
  have inner : middle.parsingInformation.bufferState ≠ .NONE := by
    intro ended
    rw [innerRound, if_pos ended] at first
    cases first
  have progressed := Reads.preserves
    (fun (state : AsyncMqttClient) (earlier : List Spelled) =>
      state.parsingInformation.bufferState = .NONE ∨
        Within start state ∧ ∀ item ∈ earlier, item.IsByte)
    (fun state byte next taken effects earlier held result => by
      obtain ended | ⟨inside, bytes⟩ := held
      · rw [innerRound, if_pos ended] at result
        cases result
      · obtain ended | ⟨kept, more⟩ := innerRound_progress inside byte next taken effects result
        · exact .inl ended
        · exact .inr ⟨kept, List.forall_mem_append.mpr ⟨bytes, more⟩⟩)
    takes [] (.inr ⟨within, by simp⟩)
  obtain ended | ⟨kept, bytes⟩ := progressed
  · exact absurd ended inner
  · refine ⟨kept, ?_, bytes⟩
    by_cases phase : middle.parsingInformation.bufferState = .REMAINING_LENGTH
    · rw [innerRound_eq middle _ inner, round_length middle byte [] phase] at first
      by_cases room : middle.remainingLengthBufferPosition < middle.remainingLengthBuffer.length
      · have size := kept.lengthBuffer
        omega
      · rw [receiveLength, if_neg room] at first
        cases first
    · rw [kept.counted phase]
      exact Nat.zero_le 3

/-- The client behind a connection that broke: ready for another one, with its session. -/
theorem ready_onDisconnect (within : Within start client)
    (position : client.remainingLengthBufferPosition ≤ 3) : Ready client.onDisconnect.1 where
  between := rfl
  position := position
  lengthBuffer := within.lengthBuffer
  marked := within.marked
  topicBuffer := within.topicBuffer

/-- A packet that breaks off: some bytes of its payload are reported, and the client is as it
was but for its parser. -/
theorem takes_broken (client : AsyncMqttClient) (ready : Ready client) (packet : ServerPacket)
    (limits : packet.WithinLimits) (handles : client.Handles packet) (part : Bytes)
    (cut : part <+: packet.encode)
    (short : part ≠ packet.encode) :
    ∃ middle heard, Reads round spell client part middle heard ∧
      heard <+: (client.session.reactAll (packet.calls client.maxTopicLength)).2.flatMap spell ∧
      (∀ item ∈ heard, item.IsByte) ∧ Ready middle.onDisconnect.1 ∧
      middle.session = client.session ∧ middle.maxTopicLength = client.maxTopicLength := by
  obtain ⟨first, rest, object, next, portions, known, takes, _⟩ := handles
  have encoded := flatten_portions packet limits
  rw [portions, List.flatten_cons, List.singleton_append] at encoded
  have reads := takes.reads innerRound_divisible
  cases part with
  | nil =>
    refine ⟨client, [], Reads.nil round spell client, List.nil_prefix, by simp, ?_, rfl, rfl⟩
    exact ⟨rfl, ready.position, ready.lengthBuffer, ready.marked, ready.topicBuffer⟩
  | cons byte part =>
    rw [← encoded] at cut short
    obtain ⟨rfl, front_of⟩ := List.cons_prefix_cons.mp cut
    obtain ⟨behind, parted⟩ := front_of
    have more : behind ≠ [] := by
      rintro rfl
      exact short (by rw [← parted, List.append_nil])
    rw [← parted] at reads
    obtain ⟨middle, early, late, front, back, whole⟩ := Reads.split reads
    have opened : Within client (client.begun byte object) :=
      ⟨rfl, rfl, rfl, ready.lengthBuffer, ready.marked, fun elsewhere => absurd rfl elsewhere,
        ready.topicBuffer⟩
    obtain ⟨within, position, bytes⟩ :=
      takes_within opened part behind middle next early late more front back
    refine ⟨middle, early, ?_, ⟨late, whole.symm⟩, bytes, ready_onDisconnect within position,
      within.session, within.limit⟩
    exact Reads.cons (round_begun client byte object ready.between known [])
      (leave_packet front)

/-- The packets of a new connection, which begin with the answer to the connection request. -/
theorem takes_answered (client : AsyncMqttClient) (ready : Ready client) (sessionPresent : Bool)
    (connectReturnCode : UInt8) (packets : List ServerPacket)
    (limits : ∀ packet ∈ packets, packet.WithinLimits) :
    let whole := .connAck sessionPresent connectReturnCode :: packets
    ∃ next, Reads round spell client (whole.flatMap ServerPacket.encode) next
        ((client.session.receive client.maxTopicLength whole).2.flatMap spell) ∧
      client.Follows next (client.session.receive client.maxTopicLength whole).1 := by
  intro whole
  obtain ⟨middle, consumes, follows⟩ :=
    (handles_connAck client ready sessionPresent connectReturnCode).consumes ready.between
  have read := consumes.reads round_divisible
  rw [flatten_portions (.connAck sessionPresent connectReturnCode) trivial] at read
  obtain ⟨next, later, behind⟩ := takes_packets middle follows.idle packets limits
  rw [follows.session, follows.limit] at later behind
  have both := receive_append client.maxTopicLength client.session
    [.connAck sessionPresent connectReturnCode] packets
  have one : client.session.receive client.maxTopicLength
      [.connAck sessionPresent connectReturnCode] = client.session.reactAll
        ((ServerPacket.connAck sessionPresent connectReturnCode).calls client.maxTopicLength) := by
    simp [Session.receive]
  have split : whole = [.connAck sessionPresent connectReturnCode] ++ packets := rfl
  rw [split, both, List.flatMap_append, one, List.flatMap_append]
  refine ⟨next, Reads.append ?_ later, behind.idle, behind.session,
    behind.limit.trans follows.limit, behind.connection.trans follows.connection⟩
  rw [List.flatMap_singleton]
  exact read

/-- One connection after the other, each with the segments that it brings before it ends. -/
def connections : AsyncMqttClient → List (List Bytes) → Option (AsyncMqttClient × List Effect)
  | client, [] => some (client, [])
  | client, segments :: rest => do
      let (received, effects) ← client.connect.onData segments
      let (apart, ended) := received.onDisconnect
      let (final, later) ← connections apart rest
      pure (final, effects ++ ended ++ later)

end AsyncMqttClient

/-- What a connection brings: packets that come whole, and a part of another one. -/
structure Connection where
  whole : List ServerPacket
  broken : ServerPacket
  part : Bytes
  segments : List Bytes

/-- The server answers the connection request first, and the last packet does not come
whole. -/
structure Connection.Valid (connection : Connection) : Prop where
  limits : ∀ packet ∈ connection.whole ++ [connection.broken], packet.WithinLimits
  answered : ∃ sessionPresent connectReturnCode packets,
    connection.whole ++ [connection.broken] =
      .connAck sessionPresent connectReturnCode :: packets
  cut : connection.part <+: connection.broken.encode
  short : connection.part ≠ connection.broken.encode
  nonempty : ∀ segment ∈ connection.segments, segment ≠ []
  bytes : connection.segments.flatten =
    connection.whole.flatMap ServerPacket.encode ++ connection.part

/-- What the whole packets of a connection do to the session that enters it. -/
def Session.connected (maxTopicLength : Nat) (session : Session) (packets : List ServerPacket) :
    Session × List Effect :=
  Session.receive maxTopicLength { session with state := .CONNECTING } packets

/-- What connections do to a session, and their spelling: the packets that came whole, some
bytes of the payload that broke off, and the end of the connection. -/
inductive Outlives (maxTopicLength : Nat) :
    Session → List Connection → Session → List Spelled → Prop
  | nil (session : Session) : Outlives maxTopicLength session [] session []
  | cons (session final : Session) (connection : Connection) (rest : List Connection)
      (heard late : List Spelled) :
      heard <+: ((session.connected maxTopicLength connection.whole).1.reactAll
        (connection.broken.calls maxTopicLength)).2.flatMap spell →
      (∀ item ∈ heard, item.IsByte) →
      Outlives maxTopicLength
        { (session.connected maxTopicLength connection.whole).1 with state := .DISCONNECTED }
        rest final late →
      Outlives maxTopicLength session (connection :: rest) final
        ((session.connected maxTopicLength connection.whole).2.flatMap spell ++ heard ++
          [.whole (.clearQueue true), .whole .onDisconnect] ++ late)

/-- The identifiers that wait are those of all whole packets on one wire. -/
theorem Outlives.pending {maxTopicLength : Nat} {session final : Session}
    {connections : List Connection} {done : List Spelled}
    (outlives : Outlives maxTopicLength session connections final done) :
    final.pendingPubRels = (session.receive maxTopicLength
      (connections.flatMap Connection.whole)).1.pendingPubRels := by
  induction outlives with
  | nil session => rfl
  | cons session final connection rest heard late _ _ _ ih =>
    rw [ih, List.flatMap_cons, receive_append]
    apply Session.reactAll_pending
    exact Session.reactAll_pending { session with state := .CONNECTING } session rfl
      (connection.whole.flatMap (ServerPacket.calls maxTopicLength))

namespace AsyncMqttClient

/-- One connection of a client that is ready for it. -/
theorem onData_broken (client : AsyncMqttClient) (ready : Ready client)
    (connection : Connection) (valid : connection.Valid) :
    ∃ received effects heard, client.onData connection.segments = some (received, effects) ∧
      effects.flatMap spell =
        (client.session.receive client.maxTopicLength connection.whole).2.flatMap spell ++ heard ∧
      heard <+: ((client.session.receive client.maxTopicLength connection.whole).1.reactAll
        (connection.broken.calls client.maxTopicLength)).2.flatMap spell ∧
      (∀ item ∈ heard, item.IsByte) ∧ Ready received.onDisconnect.1 ∧
      received.session = (client.session.receive client.maxTopicLength connection.whole).1 ∧
      received.maxTopicLength = client.maxTopicLength := by
  obtain ⟨limits, ⟨sessionPresent, connectReturnCode, packets, answered⟩, cut, short, nonempty,
    bytes⟩ := valid
  obtain ⟨complete, last⟩ := List.forall_mem_append.mp limits
  have broken := last connection.broken (List.mem_singleton_self _)
  -- the whole packets first; behind the answer the client is idle, and without it there are none
  obtain ⟨middle, front, handles, middleReady, session, limit⟩ : ∃ middle,
      Reads round spell client (connection.whole.flatMap ServerPacket.encode) middle
        ((client.session.receive client.maxTopicLength connection.whole).2.flatMap spell) ∧
      middle.Handles connection.broken ∧ Ready middle ∧
      middle.session = (client.session.receive client.maxTopicLength connection.whole).1 ∧
      middle.maxTopicLength = client.maxTopicLength := by
    cases shape : connection.whole with
    | nil =>
      rw [shape, List.nil_append] at answered
      obtain ⟨first, _⟩ := List.cons.inj answered
      refine ⟨client, Reads.nil round spell client, ?_, ready, rfl, rfl⟩
      rw [first]
      exact handles_connAck client ready sessionPresent connectReturnCode
    | cons first rest =>
      rw [shape, List.cons_append] at answered
      obtain ⟨same, _⟩ := List.cons.inj answered
      subst same
      rw [shape] at complete
      obtain ⟨middle, read, follows⟩ := takes_answered client ready sessionPresent
        connectReturnCode rest (List.forall_mem_cons.mp complete).2
      exact ⟨middle, read, handles_packet middle follows.idle connection.broken broken,
        follows.idle.ready, follows.session, follows.limit⟩
  obtain ⟨received, heard, back, prefixed, onlyBytes, apart, kept, same⟩ :=
    takes_broken middle middleReady connection.broken broken handles connection.part cut short
  have single := Reads.append front back
  rw [← bytes] at single
  obtain ⟨effects, result, spelling⟩ :=
    segments_of_single round spell round_divisible client received _ _ nonempty single
  rw [session, limit] at prefixed
  exact ⟨received, effects, heard, result, spelling, prefixed, onlyBytes, apart,
    kept.trans session, same.trans limit⟩

/-- For every list of connections, each answered by the server and broken after any byte,
in any segments: every one is read as far as it came, nothing of a broken packet reaches
the next connection, and the identifiers that wait are those of the whole packets. Induction
on the connections; between two of them the client is ready. -/
theorem broken_connections (client : AsyncMqttClient) (ready : Ready client)
    (apart : client.session.state = .DISCONNECTED) (connections : List Connection)
    (valid : ∀ connection ∈ connections, connection.Valid) :
    ∃ final effects, client.connections (connections.map Connection.segments) =
        some (final, effects) ∧ Ready final ∧ final.session.state = .DISCONNECTED ∧
      Outlives client.maxTopicLength client.session connections final.session
        (effects.flatMap spell) ∧
      final.session.pendingPubRels = (client.session.receive client.maxTopicLength
        (connections.flatMap Connection.whole)).1.pendingPubRels := by
  suffices runs : ∃ final effects, client.connections (connections.map Connection.segments) =
      some (final, effects) ∧ Ready final ∧ final.session.state = .DISCONNECTED ∧
      Outlives client.maxTopicLength client.session connections final.session
        (effects.flatMap spell) by
    obtain ⟨final, effects, result, behind, state, outlives⟩ := runs
    exact ⟨final, effects, result, behind, state, outlives, outlives.pending⟩
  induction connections generalizing client with
  | nil => exact ⟨client, [], rfl, ready, apart, .nil client.session⟩
  | cons connection rest ih =>
    obtain ⟨first, others⟩ := List.forall_mem_cons.mp valid
    have connected : client.connect =
        { client with
          session := { client.session with state := .CONNECTING }, connectionOpen := true } := by
      simp [connect, apart]
    have connectedReady : Ready client.connect := by
      rw [connected]
      exact ⟨ready.between, ready.position, ready.lengthBuffer, ready.marked, ready.topicBuffer⟩
    obtain ⟨received, effects, heard, result, spelling, prefixed, onlyBytes, behind, session,
      limit⟩ := onData_broken client.connect connectedReady connection first
    obtain ⟨final, later, runs, finalReady, state, outlives⟩ :=
      ih received.onDisconnect.1 behind rfl others
    have same : client.connect.maxTopicLength = client.maxTopicLength := by
      rw [connected]
      rfl
    have bound : received.onDisconnect.1.maxTopicLength = client.maxTopicLength :=
      limit.trans same
    have started : client.connect.session = { client.session with state := .CONNECTING } := by
      rw [connected]
    have ended : received.onDisconnect.1.session =
        { received.session with state := .DISCONNECTED } := rfl
    rw [same, started] at spelling prefixed session
    rw [bound, ended, session] at outlives
    refine ⟨final, effects ++ [.clearQueue true, .onDisconnect] ++ later, ?_, finalReady, state, ?_⟩
    · rw [List.map_cons, AsyncMqttClient.connections, result]
      show (AsyncMqttClient.connections received.onDisconnect.1 _).bind _ = _
      rw [runs]
      rfl
    · rw [List.flatMap_append, List.flatMap_append, spelling]
      exact .cons client.session final.session connection rest heard _ prefixed onlyBytes outlives

/-- A connection that breaks inside of a length, and another one on which the server sends the
message again. -/
theorem broken_connections_inLength :
    let message : Publication :=
      ⟨⟨[0x74], by decide⟩, 2, true, false, 7, List.replicate 200 0x31⟩
    let client := construct (List.replicate 129 0)
    ∃ final effects,
      client.connections
        [[[0x20, 2, 0], [0, 0x3C, 0xCD]], [[0x20, 2], [1, 0] ++ message.encode]] =
          some (final, effects) ∧ Ready final ∧ final.session = ⟨.DISCONNECTED, [7]⟩ := by
  intro message client
  let first : Connection :=
    ⟨[.connAck false 0], .publish message, [0x3C, 0xCD], [[0x20, 2, 0], [0, 0x3C, 0xCD]]⟩
  let second : Connection :=
    ⟨[.connAck true 0, .publish message], .pingResp, [],
      [[0x20, 2], [1, 0] ++ message.encode]⟩
  have sendable : (ServerPacket.publish message).WithinLimits :=
    ⟨by decide, by decide, by decide, by decide, by decide +kernel⟩
  have firstValid : first.Valid :=
    ⟨List.forall_mem_cons.mpr ⟨trivial, List.forall_mem_cons.mpr ⟨sendable, by simp⟩⟩,
      ⟨false, 0, [.publish message], rfl⟩, by decide +kernel, by decide +kernel,
      by simp [first], by decide +kernel⟩
  have secondValid : second.Valid :=
    ⟨List.forall_mem_cons.mpr ⟨trivial, List.forall_mem_cons.mpr ⟨sendable,
        List.forall_mem_cons.mpr ⟨trivial, by simp⟩⟩⟩,
      ⟨true, 0, [.publish message, .pingResp], rfl⟩, by decide, by decide, by simp [second],
      by decide +kernel⟩
  obtain ⟨final, effects, result, ready, state, _, pending⟩ := broken_connections client
    (by exact ⟨rfl, by decide, rfl, by simp [client, construct], rfl⟩) rfl [first, second]
    (by simp [firstValid, secondValid])
  refine ⟨final, effects, result, ready, ?_⟩
  have waiting : final.session.pendingPubRels = [7] := pending
  cases session : final.session with
  | mk current pendingPubRels =>
    rw [session] at state waiting
    cases state
    cases waiting
    rfl

end AsyncMqttClient

end WhirlpoolAc.MqttReceiver
