import WhirlpoolAc.MqttMessagesIn
import Mathlib.Data.List.Induction

/-!
# Messages that are passed on once

A message of the highest quality of service is sent again until it is acknowledged, and its
identifier is free again when the server releases it. The session keeps the identifiers
that wait for their release. An identifier waits exactly when no release has come since the
last message with it, so a message is passed on when its identifier does not wait and
dropped when it does; it is acknowledged either way.

A connection without its old session starts with no identifier waiting.
-/

namespace WhirlpoolAc.MqttReceiver

open ByteStrings PortionedStreams MqttPackets

/-- The packet is a message of the highest quality of service with the identifier, and its
topic is not skipped. -/
def ServerPacket.Holds (maxTopicLength packetId : Nat) : ServerPacket → Prop
  | .publish message =>
      message.qos = 2 ∧ message.packetId = packetId ∧
        message.topic.bytes.length ≤ maxTopicLength
  | _ => False

/-- The packet frees the identifier: its release, or the start of another session. -/
def ServerPacket.Releases (packetId : Nat) : ServerPacket → Prop
  | .connAck sessionPresent _ => sessionPresent = false
  | .acknowledgement kind released => kind = .pubRel ∧ released = packetId
  | _ => False

/-- After the packets the identifier waits for its release: the last message with it, or its
start among the waiting ones, is not followed by a release. -/
def Waits (maxTopicLength packetId : Nat) (session : Session) (packets : List ServerPacket) :
    Prop :=
  (packetId ∈ session.pendingPubRels ∧ ∀ packet ∈ packets, ¬ packet.Releases packetId) ∨
    ∃ before message after, packets = before ++ message :: after ∧
      message.Holds maxTopicLength packetId ∧ ∀ packet ∈ after, ¬ packet.Releases packetId

/-- Without repetitions the erasing loop removes exactly the identifier. -/
theorem eraseLoop_eq_filter (packetId : Nat) (entries : List Nat) (distinct : entries.Nodup) :
    Session.eraseLoop packetId entries = entries.filter fun entry => entry ≠ packetId := by
  fun_induction Session.eraseLoop packetId entries with
  | case1 => rfl
  | case2 => simp
  | case3 entry kept => simp [kept]
  | case4 follower rest ih =>
    obtain ⟨absent, others⟩ := List.nodup_cons.mp distinct
    obtain ⟨_, later⟩ := List.nodup_cons.mp others
    have different : follower ≠ packetId := by
      rintro rfl
      exact absent List.mem_cons_self
    rw [ih later]
    simp [different]
  | case5 entry follower rest kept ih =>
    rw [ih (List.nodup_cons.mp distinct).2]
    simp [kept]

/-- What one packet does to the waiting identifiers. -/
theorem react_pending (maxTopicLength packetId : Nat) (session : Session)
    (packet : ServerPacket) (distinct : session.pendingPubRels.Nodup) :
    let next := (session.reactAll (packet.calls maxTopicLength)).1
    next.pendingPubRels.Nodup ∧
      (packetId ∈ next.pendingPubRels ↔
        packet.Holds maxTopicLength packetId ∨
          packetId ∈ session.pendingPubRels ∧ ¬ packet.Releases packetId) := by
  cases packet with
  | connAck sessionPresent connectReturnCode =>
    cases sessionPresent with
    | true =>
      by_cases accepted : connectReturnCode = 0
      · simpa [ServerPacket.calls, Session.reactAll, Session.react, Session.onConnAck, accepted,
          ServerPacket.Holds, ServerPacket.Releases] using distinct
      · simpa [ServerPacket.calls, Session.reactAll, Session.react, Session.onConnAck, accepted,
          ServerPacket.Holds, ServerPacket.Releases] using distinct
    | false =>
      by_cases accepted : connectReturnCode = 0
      · simp [ServerPacket.calls, Session.reactAll, Session.react, Session.onConnAck, accepted,
          ServerPacket.Holds, ServerPacket.Releases]
      · simp [ServerPacket.calls, Session.reactAll, Session.react, Session.onConnAck, accepted,
          ServerPacket.Holds, ServerPacket.Releases]
  | publish message =>
    by_cases long : message.topic.bytes.length > maxTopicLength
    · have skipped : ¬ message.topic.bytes.length ≤ maxTopicLength := by omega
      simpa [ServerPacket.calls, long, Session.reactAll, ServerPacket.Holds, skipped,
        ServerPacket.Releases] using distinct
    · have fits : message.topic.bytes.length ≤ maxTopicLength := by omega
      by_cases highest : message.qos = 2
      · have identified : message.identifier = message.packetId := by
          simp [Publication.identifier, highest]
        by_cases waiting : message.packetId ∈ session.pendingPubRels
        · simp [ServerPacket.calls, long, Session.reactAll, Session.react, Session.onPublish,
            highest, identified, waiting, ServerPacket.Holds, fits, ServerPacket.Releases,
            distinct]
          rintro rfl
          exact waiting
        · simp only [ServerPacket.calls, long, Session.reactAll, Session.react,
            Session.onPublish, highest, identified, waiting, ServerPacket.Holds, fits,
            ServerPacket.Releases, if_false, Session.onMessage_fst]
          have fresh : ∀ entry ∈ session.pendingPubRels, entry ≠ message.packetId :=
            fun entry member same => waiting (same ▸ member)
          refine ⟨List.nodup_append.mpr ⟨distinct, by simp, by simpa using fresh⟩, ?_⟩
          simp [or_comm, eq_comm]
      · have kept : ((session.reactAll
            ((ServerPacket.publish message).calls maxTopicLength)).1).pendingPubRels =
            session.pendingPubRels := by
          by_cases one : message.qos = 1
          · simp [ServerPacket.calls, long, Session.reactAll, Session.react, Session.onPublish,
              one]
          · simp [ServerPacket.calls, long, Session.reactAll, Session.react, Session.onPublish,
              one, highest]
        simp [kept, distinct, ServerPacket.Holds, highest, ServerPacket.Releases]
  | acknowledgement kind released =>
    cases kind with
    | pubRel =>
      have erased := eraseLoop_eq_filter released session.pendingPubRels distinct
      simp only [ServerPacket.calls, Session.reactAll, Session.react, Session.onPubRel, erased,
        ServerPacket.Holds, ServerPacket.Releases]
      refine ⟨distinct.filter _, ?_⟩
      have apart : packetId ≠ released ↔ released ≠ packetId := ne_comm
      simp [List.mem_filter, apart]
    | _ =>
      simpa [ServerPacket.calls, Session.reactAll, Session.react, Session.onUnsubAck,
        Session.onPubAck, Session.onPubRec, Session.onPubComp, ServerPacket.Holds,
        ServerPacket.Releases] using distinct
  | subAck acknowledged status =>
    simpa [ServerPacket.calls, Session.reactAll, Session.react, Session.onSubAck,
      ServerPacket.Holds, ServerPacket.Releases] using distinct
  | pingResp =>
    simpa [ServerPacket.calls, Session.reactAll, Session.react, ServerPacket.Holds,
      ServerPacket.Releases] using distinct

/-- Packets are received one by one. -/
theorem receive_snoc (maxTopicLength : Nat) (session : Session) (packets : List ServerPacket)
    (last : ServerPacket) :
    session.receive maxTopicLength (packets ++ [last]) =
      let before := session.receive maxTopicLength packets
      let reaction := before.1.reactAll (last.calls maxTopicLength)
      (reaction.1, before.2 ++ reaction.2) := by
  rw [Session.receive, List.flatMap_append, AsyncMqttClient.reactAll_append]
  simp [Session.receive]

/-- One more packet: it starts the waiting, or does not end it. -/
theorem waits_snoc (maxTopicLength packetId : Nat) (session : Session)
    (packets : List ServerPacket) (last : ServerPacket) :
    Waits maxTopicLength packetId session (packets ++ [last]) ↔
      last.Holds maxTopicLength packetId ∨
        Waits maxTopicLength packetId session packets ∧ ¬ last.Releases packetId := by
  constructor
  · rintro (⟨start, kept⟩ | ⟨before, message, after, shape, holds, kept⟩)
    · refine .inr ⟨.inl ⟨start, fun packet member => ?_⟩, ?_⟩
      · exact kept packet (List.mem_append_left _ member)
      · exact kept last (by simp)
    · rcases List.eq_nil_or_concat after with rfl | ⟨front, final, rfl⟩
      · have same := List.append_inj_right' shape rfl
        rw [List.cons.inj same |>.1]
        exact .inl holds
      · have regrouped : packets ++ [last] = before ++ message :: front ++ [final] := by
          rw [shape]
          simp
        obtain ⟨front_eq, last_eq⟩ := List.append_inj' regrouped rfl
        rw [(List.cons.inj last_eq).1]
        refine .inr ⟨.inr ⟨before, message, front, front_eq, holds, fun packet member => ?_⟩, ?_⟩
        · exact kept packet (by simp [member])
        · exact kept final (by simp)
  · rintro (holds | ⟨⟨start, kept⟩ | ⟨before, message, after, rfl, holds, kept⟩, keeps⟩)
    · exact .inr ⟨packets, last, [], rfl, holds, by simp⟩
    · refine .inl ⟨start, fun packet member => ?_⟩
      rcases List.mem_append.mp member with early | final
      · exact kept packet early
      · rw [List.mem_singleton.mp final]
        exact keeps
    · refine .inr ⟨before, message, after ++ [last], by simp, holds, fun packet member => ?_⟩
      rcases List.mem_append.mp member with early | final
      · exact kept packet early
      · rw [List.mem_singleton.mp final]
        exact keeps

/-- The session keeps exactly the identifiers that wait, each once. Induction from the last
packet. -/
theorem receive_pending (maxTopicLength packetId : Nat) (session : Session)
    (packets : List ServerPacket) (distinct : session.pendingPubRels.Nodup) :
    (session.receive maxTopicLength packets).1.pendingPubRels.Nodup ∧
      (packetId ∈ (session.receive maxTopicLength packets).1.pendingPubRels ↔
        Waits maxTopicLength packetId session packets) := by
  induction packets using List.reverseRecOn with
  | nil => simp [Session.receive, Session.reactAll, Waits, distinct]
  | append_singleton packets last ih =>
    obtain ⟨nodup, waits⟩ := ih
    obtain ⟨kept, moved⟩ := react_pending maxTopicLength packetId
      (session.receive maxTopicLength packets).1 last nodup
    rw [receive_snoc, waits_snoc]
    refine ⟨kept, moved.trans ?_⟩
    rw [waits]

/-- What is reported of a message of the highest quality of service: the message unless its
identifier waits, and an acknowledgement in any case. -/
theorem react_highest (maxTopicLength : Nat) (session : Session) (message : Publication)
    (highest : message.qos = 2) (fits : message.topic.bytes.length ≤ maxTopicLength) :
    (session.reactAll ((ServerPacket.publish message).calls maxTopicLength)).2 =
      (if message.packetId ∈ session.pendingPubRels then []
        else [.onMessage message.topic ⟨2, message.dup, message.retain⟩ message.payload 0
          message.payload.length]) ++ [.addBack ⟨5, 0x00, message.packetId⟩] := by
  have short : ¬ message.topic.bytes.length > maxTopicLength := by omega
  have identified : message.identifier = message.packetId := by
    simp [Publication.identifier, highest]
  by_cases waiting : message.packetId ∈ session.pendingPubRels
  · simp [ServerPacket.calls, short, Session.reactAll, Session.react, Session.onMessage,
      Session.onPublish, highest, identified, waiting]
  · simp [ServerPacket.calls, short, Session.reactAll, Session.react, Session.onMessage,
      Session.onPublish, highest, identified, waiting]

/-- The effects of a list of packets around one of them. -/
theorem receive_around (maxTopicLength : Nat) (session : Session)
    (before : List ServerPacket) (middle : ServerPacket) (after : List ServerPacket) :
    let early := session.receive maxTopicLength before
    let here := early.1.reactAll (middle.calls maxTopicLength)
    session.receive maxTopicLength (before ++ middle :: after) =
      ((here.1.receive maxTopicLength after).1,
        early.2 ++ here.2 ++ (here.1.receive maxTopicLength after).2) := by
  have regrouped : before ++ middle :: after = (before ++ [middle]) ++ after := by simp
  have back := AsyncMqttClient.reactAll_append session
    ((before ++ [middle]).flatMap (ServerPacket.calls maxTopicLength))
    (after.flatMap (ServerPacket.calls maxTopicLength))
  have front := receive_snoc maxTopicLength session before middle
  unfold Session.receive at front ⊢
  rw [regrouped, List.flatMap_append, back, front]

namespace AsyncMqttClient

/-- On the wire: a message of the highest quality of service anywhere among the packets of
the server, cut into segments in any way. It is passed on once, in its place, unless its
identifier waits for a release there, and acknowledged once in any case. -/
theorem highest_passed_once (client : AsyncMqttClient) (idle : Idle client)
    (distinct : client.session.pendingPubRels.Nodup) (before after : List ServerPacket)
    (message : Publication) (highest : message.qos = 2)
    (fits : message.topic.bytes.length ≤ client.maxTopicLength)
    (limits : ∀ packet ∈ before ++ .publish message :: after, packet.WithinLimits)
    (segments : List Bytes) (nonempty : ∀ segment ∈ segments, segment ≠ [])
    (cut : segments.flatten =
      (before ++ .publish message :: after).flatMap ServerPacket.encode) :
    ∃ next effects early late, client.onData segments = some (next, effects) ∧
      early = (client.session.receive client.maxTopicLength before).2.flatMap spell ∧
      (Waits client.maxTopicLength message.packetId client.session before →
        effects.flatMap spell = early ++ .whole (.addBack ⟨5, 0x00, message.packetId⟩) :: late) ∧
      (¬ Waits client.maxTopicLength message.packetId client.session before →
        effects.flatMap spell =
          early ++ spell (.onMessage message.topic ⟨2, message.dup, message.retain⟩
            message.payload 0 message.payload.length) ++
            .whole (.addBack ⟨5, 0x00, message.packetId⟩) :: late) := by
  obtain ⟨next, read, _⟩ := takes_packets client idle _ limits
  have single : PortionedStreams.single round spell client segments.flatten = some (next, _) :=
    cut ▸ read
  obtain ⟨effects, result, spelling⟩ :=
    segments_of_single round spell round_divisible client next segments _ nonempty single
  let limit := client.maxTopicLength
  let early := client.session.receive limit before
  let here := early.1.reactAll ((ServerPacket.publish message).calls limit)
  have around : client.session.receive limit (before ++ .publish message :: after) =
      ((here.1.receive limit after).1, early.2 ++ here.2 ++ (here.1.receive limit after).2) :=
    receive_around limit client.session before (.publish message) after
  have pending := (receive_pending limit message.packetId client.session before distinct).2
  have reported : here.2 = _ := react_highest limit early.1 message highest fits
  rw [around] at spelling
  refine ⟨next, effects, early.2.flatMap spell,
    (here.1.receive limit after).2.flatMap spell, result, rfl, fun waits => ?_, fun fresh => ?_⟩
  · rw [if_pos (pending.mpr waits)] at reported
    rw [spelling, reported]
    simp [spell]
  · rw [if_neg (mt pending.mp fresh)] at reported
    rw [spelling, reported]
    simp [spell]

/-- A message that the server sends again before it has seen the acknowledgement: the second
one is only acknowledged. -/
theorem highest_passed_once_again :
    let topic : CString := ⟨[0x74], by decide⟩
    let client := (construct (List.replicate 129 0)).connect
    let first : ServerPacket := .publish ⟨topic, 2, false, false, 7, [0x31]⟩
    ∃ next effects early late,
      client.onData
        [[0x34, 6, 0, 1, 0x74, 0, 7, 0x31, 0x3C, 6, 0], [1, 0x74, 0, 7, 0x31, 0x62, 2, 0, 7]] =
          some (next, effects) ∧
      early = (client.session.receive client.maxTopicLength [first]).2.flatMap spell ∧
      effects.flatMap spell = early ++ .whole (.addBack ⟨5, 0x00, 7⟩) :: late := by
  intro topic client first
  have waits : Waits client.maxTopicLength 7 client.session [first] :=
    .inr ⟨[], first, [], rfl, ⟨rfl, rfl, by decide⟩, by simp⟩
  obtain ⟨next, effects, early, late, result, front, again, _⟩ :=
    highest_passed_once client (idle_connected _ rfl) List.nodup_nil [first]
      [.acknowledgement .pubRel 7] ⟨topic, 2, true, false, 7, [0x31]⟩ rfl (by decide)
      (by simp [first, topic, ServerPacket.WithinLimits])
      [[0x34, 6, 0, 1, 0x74, 0, 7, 0x31, 0x3C, 6, 0], [1, 0x74, 0, 7, 0x31, 0x62, 2, 0, 7]]
      (by simp) (by decide)
  exact ⟨next, effects, early, late, result, front, again waits⟩

end AsyncMqttClient

end WhirlpoolAc.MqttReceiver
