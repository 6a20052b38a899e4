import Mathlib.Logic.Relation
import WhirlpoolAc.MqttTimers

/-!
# What a callback does

However long the reaction to an event is, it consists of few kinds of small steps: bytes are
written, the queue changes, the answer to the connection request begins, the session
changes, a ping is answered, the connection is closed. Only the beginning of an event is
different from event to event. What the beginnings and the small steps keep, every event
keeps.
-/

namespace WhirlpoolAc.MqttTimers

open Relation HumiditySensor MqttReceiver MqttPackets MqttQueue

/-- What has been sent of the head is a part of it, and without a connection nothing is. -/
structure Seated (sender : Sender) : Prop where
  inside : sender.sent ≤ sender.packets.head?.elim 0 fun head => head.data.length
  apart : sender.connected = false → sender.sent = 0

/-- Another queue on the same connection. -/
structure Requeues (before after : Sender) : Prop where
  connected : after.connected = before.connected
  wire : after.wire = before.wire
  closing : after.closing = before.closing
  seated : Seated before → Seated after

/-- A small step of a callback that may meet some rounds of the sending loop, and in which the
answer to the connection request may begin. -/
inductive Small (permitted : Round → Prop) (begun : Prop) : Client → Client → Prop where
  | write (client : Client) (head : OutPacket) (rest : List OutPacket) (round : Round)
      (packets : client.sender.packets = head :: rest)
      (more : client.sender.sent < head.data.length) (room : 10 < round.answer.space)
      (connected : client.sender.connected = true) (met : permitted round) :
      Small permitted begun client (client.write head round)
  | queue (client : Client) (sender : Sender) (requeued : Requeues client.sender sender) :
      Small permitted begun client (client.withSender sender)
  | begins (client : Client) (answer : begun) :
      Small permitted begun client
        { client with tcp := { client.tcp with rxSinceTimeout := 0 } }
  | session (client : Client) (session : Session)
      (kept : session.state = client.session.state ∨
        session.state = .CONNECTED ∧ client.tcp.rxSinceTimeout = 0) :
      Small permitted begun client { client with session }
  | answered (client : Client) :
      Small permitted begun client { client with lastPingRequestTime := 0 }
  | close (client : Client) (connected : client.sender.connected = true) :
      Small permitted begun client client.close
  | apart (client : Client) (connected : client.sender.connected = false) :
      Small permitted begun client
        { client with session := { client.session with state := .DISCONNECTED } }

/-- Small steps one after the other. -/
def Reaction (permitted : Round → Prop) (begun : Prop) : Client → Client → Prop :=
  ReflTransGen (Small permitted begun)

section Callbacks

variable {permitted : Round → Prop} {begun : Prop} {rounds : List Round} {client next : Client}

/-- The queue without its head, which has been sent. -/
theorem requeues_popped (sender : Sender) (rest finishedPackets : List OutPacket) :
    Requeues sender { sender with packets := rest, sent := 0, finished := finishedPackets } :=
  ⟨rfl, rfl, rfl, fun _ => ⟨Nat.zero_le _, fun _ => rfl⟩⟩

/-- A packet at the back leaves the head where it is. -/
theorem requeues_addBack (sender : Sender) (packet : OutPacket) :
    Requeues sender (sender.addBack packet) := by
  refine ⟨rfl, rfl, rfl, fun seated => ⟨?_, seated.apart⟩⟩
  have inside := seated.inside
  cases packets : sender.packets with
  | nil =>
    rw [packets] at inside
    exact inside.trans (Nat.zero_le _)
  | cons head rest =>
    rw [packets] at inside
    simpa [Sender.addBack, packets] using inside

/-- So does one inserted behind the head. -/
theorem requeues_insert (sender inserted : Sender) (packet : OutPacket)
    (found : sender.insert packet = some inserted) : Requeues sender inserted := by
  unfold Sender.insert at found
  cases packets : sender.packets with
  | nil =>
    rw [packets] at found
    cases found
  | cons head rest =>
    rw [packets] at found
    cases found
    refine ⟨rfl, rfl, rfl, fun seated => ⟨?_, seated.apart⟩⟩
    have inside := seated.inside
    rw [packets] at inside
    exact inside

/-- So does the release of the head. -/
theorem requeues_release (sender : Sender) (packetId : Nat) :
    Requeues sender (sender.release packetId) := by
  unfold Sender.release
  cases packets : sender.packets with
  | nil => exact ⟨rfl, rfl, rfl, id⟩
  | cons head rest =>
    by_cases same : head.packetId = packetId
    · simp only [if_pos same]
      refine ⟨rfl, rfl, rfl, fun seated => ⟨?_, seated.apart⟩⟩
      have inside := seated.inside
      rw [packets] at inside
      exact inside
    · simp only [if_neg same]
      exact ⟨rfl, rfl, rfl, id⟩

/-- A cleared queue has sent nothing of its head. -/
theorem requeues_clearQueue (sender : Sender) (keepSessionData : Bool) :
    Requeues sender (sender.clearQueue keepSessionData) :=
  ⟨rfl, rfl, rfl, fun _ => ⟨Nat.zero_le _, fun _ => rfl⟩⟩

/-- Writing keeps the connection. -/
@[simp]
theorem write_connected (head : OutPacket) (round : Round) :
    (client.write head round).sender.connected = client.sender.connected := by
  unfold Client.write
  split
  · simp only [Sender.write]
    split
    · rfl
    · rfl
  · rfl

/-- A round writes, or it leaves the client as it is. -/
theorem write_reaction (head : OutPacket) (rest : List OutPacket) (round : Round)
    (packets : client.sender.packets = head :: rest) (room : 10 < round.answer.space)
    (connected : client.sender.connected = true) (met : permitted round) :
    Reaction permitted begun client (client.write head round) := by
  by_cases more : client.sender.sent < head.data.length
  · exact .single (.write client head rest round packets more room connected met)
  · rw [Client.write, if_neg more]
    exact .refl

/-- The sending loop, by induction on its rounds. -/
theorem handleRounds_reaction (connected : client.sender.connected = true)
    (during : ∀ round ∈ rounds, permitted round) (result : client.handleRounds rounds = some next) :
    Reaction permitted begun client next := by
  induction rounds generalizing client with
  | nil =>
    cases result
    exact .refl
  | cons round rounds ih =>
    obtain ⟨met, others⟩ := List.forall_mem_cons.mp during
    rw [Client.handleRounds] at result
    cases packets : client.sender.packets with
    | nil =>
      rw [packets] at result
      cases result
      exact .refl
    | cons head rest =>
      rw [packets] at result
      dsimp only at result
      by_cases full : round.answer.space ≤ 10
      · rw [if_pos full] at result
        cases result
        exact .refl
      · have written : Reaction permitted begun client (client.write head round) :=
          write_reaction head rest round packets (Nat.lt_of_not_le full) connected met
        have still : (client.write head round).sender.connected = true :=
          (write_connected head round).trans connected
        rw [if_neg full] at result
        by_cases whole : head.data.length = (client.write head round).sender.sent
        · rw [if_pos whole] at result
          by_cases released : head.released = true
          · rw [if_pos released] at result
            have popped : Small permitted begun (client.write head round) _ :=
              .queue (client.write head round) _ (requeues_popped (client.write head round).sender
                rest ((client.write head round).sender.finished ++ [head]))
            exact (written.tail popped).trans (ih still others result)
          · rw [if_neg released] at result
            cases result
            exact written
        · rw [if_neg whole] at result
          by_cases beyond : head.data.length < (client.write head round).sender.sent
          · rw [if_pos beyond] at result
            cases result
          · rw [if_neg beyond] at result
            exact written.trans (ih still others result)

/-- The sending loop is a reaction, with the connection or without. -/
theorem handleQueue_reaction (during : ∀ round ∈ rounds, permitted round)
    (result : client.handleQueue rounds = some next) :
    Reaction permitted begun client next := by
  unfold Client.handleQueue at result
  by_cases connected : client.sender.connected = true
  · rw [if_pos connected] at result
    exact handleRounds_reaction connected during result
  · rw [if_neg connected] at result
    cases result
    exact .refl

/-- Another queue, and then the sending loop. -/
theorem requeued_reaction {sender : Sender} (requeued : Requeues client.sender sender)
    (during : ∀ round ∈ rounds, permitted round)
    (result : (client.withSender sender).handleQueue rounds = some next) :
    Reaction permitted begun client next :=
  .head (.queue client sender requeued) (handleQueue_reaction during result)

/-- A packet put at the back and the loop behind it. -/
theorem addBack_reaction (packet : OutPacket) (during : ∀ round ∈ rounds, permitted round)
    (result : client.addBack packet rounds = some next) :
    Reaction permitted begun client next :=
  requeued_reaction (requeues_addBack client.sender packet) during result

/-- A packet put behind the head and the loop behind it. -/
theorem insert_reaction (packet : OutPacket) (during : ∀ round ∈ rounds, permitted round)
    (result : client.insert packet rounds = some next) :
    Reaction permitted begun client next := by
  obtain ⟨sender, found, sent⟩ := Option.bind_eq_some_iff.mp result
  exact requeued_reaction (requeues_insert client.sender sender packet found) during sent

/-- One effect. Those that only tell the program something do nothing here. -/
theorem effect_reaction (effect : Effect) (during : ∀ round ∈ rounds, permitted round)
    (result : client.effect rounds effect = some next) :
    Reaction permitted begun client next := by
  cases effect with
  | clearQueue keepSessionData =>
    cases result
    exact .single (.queue client _ (requeues_clearQueue client.sender keepSessionData))
  | addBack ack => exact addBack_reaction _ during result
  | release packetId =>
    cases result
    exact .single (.queue client _ (requeues_release client.sender packetId))
  | answer ack =>
    rw [Client.effect] at result
    cases packets : client.sender.packets with
    | nil =>
      rw [packets] at result
      cases result
      exact .refl
    | cons head rest =>
      rw [packets] at result
      dsimp only at result
      by_cases same : head.packetId = ack.packetId
      · rw [if_pos same] at result
        have released : Small permitted begun client _ :=
          .queue client _ (requeues_release client.sender ack.packetId)
        exact .head released (insert_reaction _ during result)
      · rw [if_neg same] at result
        cases result
        exact .refl
  | insert ack => exact insert_reaction _ during result
  | handleQueue => exact handleQueue_reaction during result
  | onConnect sessionPresent =>
    cases result
    exact .refl
  | onDisconnect =>
    cases result
    exact .refl
  | onSubscribe packetId status =>
    cases result
    exact .refl
  | onUnsubscribe packetId =>
    cases result
    exact .refl
  | onMessage topic properties payload index total =>
    cases result
    exact .refl
  | onPublish packetId =>
    cases result
    exact .refl

/-- Effects one after the other. Induction on their list. -/
theorem effects_reaction (effects : List Effect) (during : ∀ round ∈ rounds, permitted round)
    (result : client.effects rounds effects = some next) :
    Reaction permitted begun client next := by
  induction effects generalizing client with
  | nil =>
    cases result
    exact .refl
  | cons effect effects ih =>
    obtain ⟨middle, first, later⟩ := Option.bind_eq_some_iff.mp result
    exact (effect_reaction effect during first).trans (ih later)

/-- A call changes the state of the session only when it answers the connection request. -/
theorem react_state (session : Session) (call : Call) :
    (session.react call).1.state = session.state ∨
      (session.react call).1.state = .CONNECTED ∧
        ∃ sessionPresent connectReturnCode, call = .onConnAck sessionPresent connectReturnCode := by
  cases call with
  | onConnAck sessionPresent connectReturnCode =>
    simp only [Session.react, Session.onConnAck]
    by_cases accepted : connectReturnCode = 0
    · exact .inr ⟨by rw [if_pos accepted], sessionPresent, connectReturnCode, rfl⟩
    · refine .inl ?_
      rw [if_neg accepted]
      cases sessionPresent with
      | true => rfl
      | false => rfl
  | onPingResp => exact .inl rfl
  | onSubAck packetId status => exact .inl rfl
  | onAcknowledgement kind packetId =>
    cases kind with
    | unsubAck => exact .inl rfl
    | pubAck => exact .inl rfl
    | pubRec => exact .inl rfl
    | pubRel => exact .inl rfl
    | pubComp => exact .inl rfl
  | onMessage topic properties packetId payload index total =>
    simp only [Session.react, Session.onMessage]
    split
    · exact .inl rfl
    · exact .inl rfl
  | onPublish packetId qos =>
    simp only [Session.react, Session.onPublish]
    split
    · exact .inl rfl
    · split
      · exact .inl rfl
      · exact .inl rfl

/-- A callback of the parser. Only the answer to the connection request changes the state of
the session, and it comes with data. -/
theorem react_reaction (call : Call) (during : ∀ round ∈ rounds, permitted round)
    (due : (∃ sessionPresent connectReturnCode,
      call = .onConnAck sessionPresent connectReturnCode) → client.tcp.rxSinceTimeout = 0)
    (result : client.react call rounds = some next) :
    Reaction permitted begun client next := by
  have kept : Small permitted begun client
      { client with session := (client.session.react call).1 } := by
    refine .session client _ ?_
    rcases react_state client.session call with same | ⟨connected, answer⟩
    · exact .inl same
    · exact .inr ⟨connected, due answer⟩
  cases call with
  | onPingResp =>
    cases result
    exact (ReflTransGen.single kept).tail (.answered _)
  | onConnAck sessionPresent connectReturnCode =>
    exact .head kept (effects_reaction _ during result)
  | onSubAck packetId status => exact .head kept (effects_reaction _ during result)
  | onAcknowledgement kind packetId => exact .head kept (effects_reaction _ during result)
  | onMessage topic properties packetId payload index total =>
    exact .head kept (effects_reaction _ during result)
  | onPublish packetId qos => exact .head kept (effects_reaction _ during result)

/-- A packet of the program, which a client without a session drops. -/
theorem send_reaction (packet : OutPacket) (during : ∀ round ∈ rounds, permitted round)
    (result : client.send packet rounds = some next) :
    Reaction permitted begun client next := by
  unfold Client.send at result
  by_cases up : client.session.state = .CONNECTED
  · rw [if_pos up] at result
    exact addBack_reaction packet during result
  · rw [if_neg up] at result
    cases result
    exact .refl

/-- A request to close the connection. -/
theorem disconnect_reaction (client : Client) :
    Reaction permitted begun client client.disconnect := by
  unfold Client.disconnect
  split
  · exact .refl
  · split
    · next connected => exact .single (.close client connected)
    · next apart => exact .single (.apart client (Bool.not_eq_true _ ▸ apart))

end Callbacks

/-- The rounds of a turn. -/
def Turn.rounds : Turn → List Round
  | .call _ rounds | .send _ rounds => rounds
  | .connAckPacket | .violation => []

/-- Whether a turn begins to read the answer to the connection request. -/
def Turn.begins : Turn → Bool
  | .connAckPacket => true
  | .call _ _ | .send _ _ | .violation => false

section Events

variable {permitted : Round → Prop} {begun : Prop} {client next : Client}

/-- A turn of the parser or of the program is a reaction. -/
theorem turn_reaction (turn : Turn) (during : ∀ round ∈ turn.rounds, permitted round)
    (answer : turn = .connAckPacket → begun)
    (result : client.turn turn = some next) : Reaction permitted begun client next := by
  cases turn with
  | connAckPacket =>
    cases result
    exact .single (.begins client (answer rfl))
  | call call rounds =>
    cases call with
    | onConnAck sessionPresent connectReturnCode =>
      rw [Client.turn] at result
      by_cases due : client.tcp.rxSinceTimeout = 0
      · rw [if_pos due] at result
        exact react_reaction _ during (fun _ => due) result
      · rw [if_neg due] at result
        cases result
    | onPingResp => exact react_reaction .onPingResp during (by simp) result
    | onSubAck packetId status =>
      exact react_reaction (.onSubAck packetId status) during (by simp) result
    | onAcknowledgement kind packetId =>
      exact react_reaction (.onAcknowledgement kind packetId) during (by simp) result
    | onMessage topic properties packetId payload index total =>
      exact react_reaction (.onMessage topic properties packetId payload index total) during
        (by simp) result
    | onPublish packetId qos =>
      exact react_reaction (.onPublish packetId qos) during (by simp) result
  | send packet rounds => exact send_reaction packet during result
  | violation =>
    cases result
    exact disconnect_reaction client

/-- So are turns one after the other. Induction on their list. -/
theorem turns_reaction (reading : List Turn)
    (during : ∀ turn ∈ reading, ∀ round ∈ turn.rounds, permitted round)
    (answer : .connAckPacket ∈ reading → begun) (result : client.turns reading = some next) :
    Reaction permitted begun client next := by
  induction reading generalizing client with
  | nil =>
    cases result
    exact .refl
  | cons turn reading ih =>
    obtain ⟨first, others⟩ := List.forall_mem_cons.mp during
    obtain ⟨middle, turned, later⟩ := Option.bind_eq_some_iff.mp result
    have now : turn = .connAckPacket → begun := fun same => answer (same ▸ List.mem_cons_self)
    have soon : .connAckPacket ∈ reading → begun := fun member =>
      answer (List.mem_cons_of_mem turn member)
    exact (turn_reaction turn first now turned).trans (ih others soon later)

/-- All rounds of the sending loop in an event. -/
def Event.rounds (event : Event) : List Round :=
  match event.kind with
  | .connect | .lost => []
  | .connected _ first second | .poll _ first second => first ++ second
  | .data reading => reading.flatMap Turn.rounds
  | .sent _ rounds | .send _ rounds => rounds

/-- The answer to the connection request begins in the event. -/
def Event.begins (event : Event) : Bool :=
  match event.kind with
  | .data reading => reading.any Turn.begins
  | _ => false

/-- The connection that has just been made, with its request in front. -/
def Client.opening (client : Client) (now : Nat) (request : OutPacket) : Client :=
  { client with
    tcp := { client.tcp with pcbBusy := false, rxLastPacket := millis now }
    sender := { client.sender with connected := true, wire := [], finished := [] }.addFront
      request }

/-- A client that has just heard something. -/
def Client.hearing (client : Client) (now : Nat) : Client :=
  { client with
    tcp := { client.tcp with rxLastPacket := millis now }
    lastServerActivity := millis now }

/-- A client some of whose bytes have just been acknowledged. -/
def Client.acknowledged (client : Client) (now len : Nat) : Client :=
  let unacked := client.tcp.txUnackedLen - BitVec.ofNat 32 len
  { client with
    tcp := { client.tcp with
      rxLastPacket := millis now, txUnackedLen := unacked
      pcbBusy := if unacked = 0 then false else client.tcp.pcbBusy } }

/-- A client that does not wait for an acknowledgement any longer. -/
def Client.resigned (client : Client) : Client :=
  { client with tcp := { client.tcp with pcbBusy := false } }

/-- A poll reaches the MQTT client. -/
structure Client.Polled (client : Client) (now : Nat) : Prop where
  connected : client.sender.connected = true
  going : client.sender.closing = false
  patient : ¬ client.AckTimesOut now
  heard : ¬ client.RxTimesOut now

/-- The MQTT client asks for a ping when it is polled. -/
structure Client.PingDue (client : Client) (now : Nat) : Prop where
  waiting : ¬ client.PingTimesOut now
  up : client.session.state = .CONNECTED
  free : client.lastPingRequestTime = 0
  quiet : client.Quiet now client.lastClientActivity ∨ client.Quiet now client.lastServerActivity

/-- How an event begins. -/
inductive Opens (event : Event) : Client → Client → Prop where
  | connect (client : Client) (kind : event.kind = .connect) : Opens event client client.connect
  | connected (client : Client) (request : OutPacket) (first second : List Round)
      (kind : event.kind = .connected request first second)
      (asked : client.session.state = .CONNECTING) (apart : client.sender.connected = false) :
      Opens event client (client.opening event.now request)
  | data (client : Client) (reading : List Turn) (kind : event.kind = .data reading)
      (connected : client.sender.connected = true) :
      Opens event client (client.hearing event.now)
  | sent (client : Client) (len : Nat) (rounds : List Round) (kind : event.kind = .sent len rounds)
      (connected : client.sender.connected = true) :
      Opens event client (client.acknowledged event.now len)
  | missed (client : Client) (asked : Nat) (first second : List Round)
      (kind : event.kind = .poll asked first second)
      (connected : client.sender.connected = true) (late : client.AckTimesOut event.now) :
      Opens event client client.resigned
  | closed (client : Client) (asked : Nat) (first second : List Round) (closing : Bool)
      (kind : event.kind = .poll asked first second)
      (connected : client.sender.connected = true) :
      Opens event client
        ({ client with sender := { client.sender with closing } } : Client).close
  | pinged (client : Client) (asked : Nat) (first second : List Round)
      (kind : event.kind = .poll asked first second) (polled : client.Polled event.now)
      (due : client.PingDue event.now) :
      Opens event client { client with lastPingRequestTime := millis asked }
  | polled (client : Client) (asked : Nat) (first second : List Round)
      (kind : event.kind = .poll asked first second) (polled : client.Polled event.now)
      (early : ¬ client.PingDue event.now) : Opens event client client
  | send (client : Client) (packet : OutPacket) (rounds : List Round)
      (kind : event.kind = .send packet rounds) : Opens event client client
  | lost (client : Client) (kind : event.kind = .lost) : Opens event client client.close

/-- A ping and the rest of the poll. -/
theorem ping_reaction (asked : Nat) (first second : List Round)
    (firstDuring : ∀ round ∈ first, permitted round)
    (secondDuring : ∀ round ∈ second, permitted round)
    (result : ((client.sendPing asked first).bind fun next => next.handleQueue second) =
      some next) :
    Reaction permitted begun { client with lastPingRequestTime := millis asked } next := by
  obtain ⟨middle, sent, later⟩ := Option.bind_eq_some_iff.mp result
  exact (addBack_reaction PingReqOutPacket firstDuring sent).trans
    (handleQueue_reaction secondDuring later)

/-- A poll. -/
theorem poll_opens (event : Event) (asked : Nat) (first second : List Round)
    (kind : event.kind = .poll asked first second)
    (during : ∀ round ∈ event.rounds, permitted round)
    (connected : client.sender.connected = true)
    (result : client.poll event.now asked first second = some next) :
    ∃ middle, Opens event client middle ∧
      Reaction permitted (event.begins = true) middle next := by
  rw [Event.rounds, kind] at during
  obtain ⟨firstDuring, secondDuring⟩ := List.forall_mem_append.mp during
  unfold Client.poll at result
  by_cases going : client.sender.closing = true
  · rw [if_pos going] at result
    cases result
    exact ⟨_, .closed client asked first second false kind connected, .refl⟩
  rw [if_neg going] at result
  by_cases late : client.AckTimesOut event.now
  · rw [if_pos late] at result
    cases result
    exact ⟨_, .missed client asked first second kind connected late, .refl⟩
  rw [if_neg late] at result
  by_cases silent : client.RxTimesOut event.now
  · rw [if_pos silent] at result
    cases result
    exact ⟨_, .closed client asked first second client.sender.closing kind connected, .refl⟩
  rw [if_neg silent, Client.onPoll] at result
  have polled : client.Polled event.now := ⟨connected, Bool.eq_false_of_not_eq_true going, late,
    silent⟩
  by_cases lost : client.PingTimesOut event.now
  · rw [if_pos lost] at result
    cases result
    unfold Client.disconnect
    by_cases apart : client.session.state = .DISCONNECTED
    · rw [if_pos apart]
      exact ⟨_, .polled client asked first second kind polled fun due => due.waiting lost, .refl⟩
    · rw [if_neg apart, if_pos connected]
      exact ⟨_, .closed client asked first second client.sender.closing kind connected, .refl⟩
  rw [if_neg lost] at result
  by_cases due : client.PingDue event.now
  · have pinged : ((client.sendPing asked first).bind fun next => next.handleQueue second) =
        some next := by
      by_cases quiet : client.Quiet event.now client.lastClientActivity
      · rw [if_pos ⟨due.up, due.free, quiet⟩] at result
        exact result
      · have silence := due.quiet.resolve_left quiet
        rw [if_neg fun asks => quiet asks.2.2, if_pos ⟨due.up, due.free, silence⟩] at result
        exact result
    exact ⟨_, .pinged client asked first second kind polled due,
      ping_reaction asked first second firstDuring secondDuring pinged⟩
  · rw [if_neg fun asks => due ⟨lost, asks.1, asks.2.1, .inl asks.2.2⟩,
      if_neg fun asks => due ⟨lost, asks.1, asks.2.1, .inr asks.2.2⟩] at result
    exact ⟨client, .polled client asked first second kind polled due,
      handleQueue_reaction secondDuring result⟩

/-- Every event is a beginning and a reaction. -/
theorem step_opens (event : Event) (during : ∀ round ∈ event.rounds, permitted round)
    (stepped : client.step event = some next) :
    ∃ middle, Opens event client middle ∧
      Reaction permitted (event.begins = true) middle next := by
  unfold Client.step at stepped
  cases kind : event.kind with
  | connect =>
    rw [kind] at stepped
    cases stepped
    exact ⟨_, .connect client kind, .refl⟩
  | connected request first second =>
    rw [kind] at stepped
    rw [Event.rounds, kind] at during
    obtain ⟨firstDuring, secondDuring⟩ := List.forall_mem_append.mp during
    dsimp only at stepped
    by_cases possible : client.session.state = .CONNECTING ∧ client.sender.connected = false
    · rw [if_pos possible] at stepped
      obtain ⟨middle, sent, later⟩ := Option.bind_eq_some_iff.mp stepped
      exact ⟨_, .connected client request first second kind possible.1 possible.2,
        (handleQueue_reaction firstDuring sent).trans
          (handleQueue_reaction secondDuring later)⟩
    · rw [if_neg possible] at stepped
      cases stepped
  | data reading =>
    rw [kind] at stepped
    rw [Event.rounds, kind] at during
    have turned : ∀ turn ∈ reading, ∀ round ∈ turn.rounds, permitted round :=
      fun turn member round inside => during round (List.mem_flatMap.mpr ⟨turn, member, inside⟩)
    dsimp only at stepped
    by_cases connected : client.sender.connected = true
    · rw [if_pos connected] at stepped
      have answer : .connAckPacket ∈ reading → event.begins = true := by
        intro member
        rw [Event.begins, kind]
        exact List.any_eq_true.mpr ⟨.connAckPacket, member, rfl⟩
      exact ⟨_, .data client reading kind connected,
        turns_reaction reading turned answer stepped⟩
    · rw [if_neg connected] at stepped
      cases stepped
  | sent len rounds =>
    rw [kind] at stepped
    rw [Event.rounds, kind] at during
    dsimp only at stepped
    by_cases connected : client.sender.connected = true
    · rw [if_pos connected, Client.sent] at stepped
      refine ⟨_, .sent client len rounds kind connected, ?_⟩
      unfold Client.acknowledged
      dsimp only at stepped ⊢
      by_cases all : client.tcp.txUnackedLen - BitVec.ofNat 32 len = 0
      · rw [if_pos all] at stepped ⊢
        exact handleQueue_reaction during stepped
      · rw [if_neg all] at stepped ⊢
        cases stepped
        exact .refl
    · rw [if_neg connected] at stepped
      cases stepped
  | poll asked first second =>
    rw [kind] at stepped
    dsimp only at stepped
    by_cases connected : client.sender.connected = true
    · rw [if_pos connected] at stepped
      exact poll_opens event asked first second kind during connected stepped
    · rw [if_neg connected] at stepped
      cases stepped
  | send packet rounds =>
    rw [kind] at stepped
    rw [Event.rounds, kind] at during
    exact ⟨client, .send client packet rounds kind, send_reaction packet during stepped⟩
  | lost =>
    rw [kind] at stepped
    dsimp only at stepped
    by_cases possible : client.sender.connected = true ∨ client.session.state = .CONNECTING
    · rw [if_pos possible] at stepped
      cases stepped
      exact ⟨_, .lost client kind, .refl⟩
    · rw [if_neg possible] at stepped
      cases stepped

end Events

end WhirlpoolAc.MqttTimers
