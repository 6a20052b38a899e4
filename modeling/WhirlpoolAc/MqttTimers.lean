import WhirlpoolAc.HumiditySensor
import WhirlpoolAc.MqttSending
import WhirlpoolAc.WatchedRuns

/-!
# The timers of a connection

The MQTT client and the TCP client under it keep stamps of a wrapping millisecond counter:
of the last bytes written, of the last data from the server, of the last packet of any kind,
of the last request for a ping. Once in a while the network stack polls the TCP client,
which may close the connection, and otherwise passes the poll on to the MQTT client, which
may close it too, ask for a ping, and works on the queue.

A callback reads the counter when it comes and again whenever bytes are written, so an event
has a time and so has each round of the sending loop. The length of a wait for an
acknowledgement is the one that the TCP client is built with.
-/

namespace WhirlpoolAc.MqttTimers

open HumiditySensor MqttReceiver MqttPackets MqttQueue

/-- The time to wait for an acknowledgement, in milliseconds. -/
def ASYNC_MAX_ACK_TIME : Nat := 5000

/-- The members of the TCP client that its timers use. Its connection and the request to
close it belong to the sender. -/
structure AsyncClient where
  pcbBusy : Bool
  pcbSentAt : BitVec 32
  txUnackedLen : BitVec 32
  txUnsentLen : BitVec 32
  rxLastPacket : BitVec 32
  rxSinceTimeout : Nat
deriving DecidableEq

/-- What a round of the sending loop meets: what the connection answers, whether the stack
puts the bytes out, and the time. -/
structure Round where
  answer : Answer
  output : Bool
  now : Nat
deriving DecidableEq

/-- `add` and `send`, with as many bytes as there is room for. -/
def AsyncClient.write (tcp : AsyncClient) (willSend : Nat) (round : Round) : AsyncClient :=
  let unsent := tcp.txUnsentLen + if round.answer.accepted then BitVec.ofNat 32 willSend else 0
  if round.output then
    { tcp with
      pcbBusy := true, pcbSentAt := millis round.now
      txUnackedLen := tcp.txUnackedLen + unsent, txUnsentLen := 0 }
  else { tcp with txUnsentLen := 0 }

/-- Both clients, as far as time matters to them. -/
structure Client where
  tcp : AsyncClient
  sender : Sender
  session : Session
  keepAlive : Nat
  lastClientActivity : BitVec 32
  lastServerActivity : BitVec 32
  lastPingRequestTime : BitVec 32
deriving DecidableEq

namespace Client

/-- The client after construction. -/
def construct (keepAlive : Nat) : Client where
  tcp := ⟨false, 0, 0, 0, 0, 0⟩
  sender := .construct
  session := ⟨.DISCONNECTED, []⟩
  keepAlive := keepAlive
  lastClientActivity := 0
  lastServerActivity := 0
  lastPingRequestTime := 0

/-- The first half of a round of the sending loop. -/
def write (client : Client) (head : OutPacket) (round : Round) : Client :=
  if head.data.length > client.sender.sent then
    let willSend := min (head.data.length - client.sender.sent) round.answer.space
    { client with
      tcp := client.tcp.write willSend round
      sender := client.sender.write head round.answer
      lastClientActivity := millis round.now
      lastPingRequestTime := 0 }
  else client

/-- The loop of `_handleQueue`, with its stamps. -/
def handleRounds : Client → List Round → Option Client
  | client, [] => some client
  | client, round :: rounds =>
      match client.sender.packets with
      | [] => some client
      | head :: rest =>
          if round.answer.space ≤ 10 then some client
          else
            let client := client.write head round
            if head.data.length = client.sender.sent then
              if head.released then
                handleRounds
                  { client with
                    sender := { client.sender with
                      packets := rest, sent := 0
                      finished := client.sender.finished ++ [head] } }
                  rounds
              else some client
            else if head.data.length < client.sender.sent then none
            else handleRounds client rounds

/-- `_handleQueue`. -/
def handleQueue (client : Client) (rounds : List Round) : Option Client :=
  if client.sender.connected then client.handleRounds rounds else some client

/-- Another queue. -/
def withSender (client : Client) (sender : Sender) : Client := { client with sender }

/-- `_addFront`. -/
def addFront (client : Client) (packet : OutPacket) (rounds : List Round) : Option Client :=
  (client.withSender (client.sender.addFront packet)).handleQueue rounds

/-- `_addBack`. -/
def addBack (client : Client) (packet : OutPacket) (rounds : List Round) : Option Client :=
  (client.withSender (client.sender.addBack packet)).handleQueue rounds

/-- `_insert`. -/
def insert (client : Client) (packet : OutPacket) (rounds : List Round) : Option Client :=
  (client.sender.insert packet).bind fun sender => (client.withSender sender).handleQueue rounds

/-- `_close` of the TCP client and `_onDisconnect`, which it calls. -/
def close (client : Client) : Client :=
  { client with
    tcp := { client.tcp with rxSinceTimeout := 0 }
    sender := { client.sender.clearQueue true with connected := false }
    session := { client.session with state := .DISCONNECTED }
    lastPingRequestTime := 0 }

/-- A forced `disconnect`. -/
def disconnect (client : Client) : Client :=
  if client.session.state = .DISCONNECTED then client
  else if client.sender.connected then client.close
  else { client with session := { client.session with state := .DISCONNECTED } }

/-- What a reaction to the server does to the queue. -/
def effect (client : Client) (rounds : List Round) : Effect → Option Client
  | .clearQueue keepSessionData =>
      some (client.withSender (client.sender.clearQueue keepSessionData))
  | .addBack ack => client.addBack (PubAckOutPacket ack) rounds
  | .release packetId => some (client.withSender (client.sender.release packetId))
  | .answer ack =>
      match client.sender.packets with
      | head :: _ =>
          if head.packetId = ack.packetId then
            (client.withSender (client.sender.release ack.packetId)).insert
              (PubAckOutPacket ack) rounds
          else some client
      | [] => some client
  | .insert ack => client.insert (PubAckOutPacket ack) rounds
  | .handleQueue => client.handleQueue rounds
  | _ => some client

/-- Effects one after the other. At most one of a reaction runs the sending loop. -/
def effects (client : Client) (rounds : List Round) : List Effect → Option Client
  | [] => some client
  | first :: later => (client.effect rounds first).bind fun next => next.effects rounds later

/-- The reaction to a call of a packet. -/
def react (client : Client) (call : Call) (rounds : List Round) : Option Client :=
  let reaction := client.session.react call
  let client := { client with session := reaction.1 }
  match call with
  | .onPingResp => some { client with lastPingRequestTime := 0 }
  | _ => client.effects rounds reaction.2

end Client

/-- What happens while a segment is read: the answer to the connection request begins, a
packet calls the client, the program sends a packet from a callback, or the bytes break the
protocol. -/
inductive Turn where
  | connAckPacket
  | call (call : Call) (rounds : List Round)
  | send (packet : OutPacket) (rounds : List Round)
  | violation

namespace Client

/-- `publish`, `subscribe` and `unsubscribe`. -/
def send (client : Client) (packet : OutPacket) (rounds : List Round) : Option Client :=
  if client.session.state = .CONNECTED then client.addBack packet rounds else some client

/-- One turn. The answer to the connection request does not end before it begins. -/
def turn (client : Client) : Turn → Option Client
  | .connAckPacket => some { client with tcp := { client.tcp with rxSinceTimeout := 0 } }
  | .call (.onConnAck sessionPresent connectReturnCode) rounds =>
      if client.tcp.rxSinceTimeout = 0 then
        client.react (.onConnAck sessionPresent connectReturnCode) rounds
      else none
  | .call call rounds => client.react call rounds
  | .send packet rounds => client.send packet rounds
  | .violation => some client.disconnect

/-- Turns one after the other. -/
def turns (client : Client) : List Turn → Option Client
  | [] => some client
  | first :: later => (client.turn first).bind fun next => next.turns later

/-- `_recv` and `_onData`. -/
def onData (client : Client) (now : Nat) (reading : List Turn) : Option Client :=
  ({ client with
    tcp := { client.tcp with rxLastPacket := millis now }
    lastServerActivity := millis now } : Client).turns reading

/-- `_sent`, which calls `_onAck` when nothing is unacknowledged. -/
def sent (client : Client) (now len : Nat) (rounds : List Round) : Option Client :=
  let tcp := { client.tcp with
    rxLastPacket := millis now
    txUnackedLen := client.tcp.txUnackedLen - BitVec.ofNat 32 len }
  if tcp.txUnackedLen = 0 then
    ({ client with tcp := { tcp with pcbBusy := false } } : Client).handleQueue rounds
  else some { client with tcp }

/-- `_connected` and `_onConnect`, which works on the queue twice. -/
def connected (client : Client) (now : Nat) (request : OutPacket) (first second : List Round) :
    Option Client :=
  (({ client with
      tcp := { client.tcp with pcbBusy := false, rxLastPacket := millis now }
      sender := { client.sender with connected := true, wire := [], finished := [] } } :
      Client).addFront request first).bind fun next => next.handleQueue second

/-- `connect`. -/
def connect (client : Client) : Client :=
  if client.session.state ≠ .DISCONNECTED then client
  else
    { client with
      tcp := { client.tcp with rxSinceTimeout := client.keepAlive }
      session := { client.session with state := .CONNECTING } }

/-- `_sendPing`, at a time. -/
def sendPing (client : Client) (asked : Nat) (rounds : List Round) : Option Client :=
  ({ client with lastPingRequestTime := millis asked } : Client).addBack PingReqOutPacket rounds

/-- The client has waited too long for the answer to a ping. -/
def PingTimesOut (client : Client) (now : Nat) : Prop :=
  client.lastPingRequestTime ≠ 0 ∧
    client.keepAlive * 1000 * 2 ≤ (millis now - client.lastPingRequestTime).toNat

/-- Seven tenths of the keep-alive time have gone by. -/
def Quiet (client : Client) (now : Nat) (stamp : BitVec 32) : Prop :=
  client.keepAlive * 700 ≤ (millis now - stamp).toNat

instance (client : Client) (now : Nat) : Decidable (client.PingTimesOut now) :=
  inferInstanceAs (Decidable (_ ∧ _))

instance (client : Client) (now : Nat) (stamp : BitVec 32) : Decidable (client.Quiet now stamp) :=
  inferInstanceAs (Decidable (_ ≤ _))

/-- `_onPoll`. -/
def onPoll (client : Client) (now asked : Nat) (first second : List Round) : Option Client :=
  if client.PingTimesOut now then some client.disconnect
  else if client.session.state = .CONNECTED ∧ client.lastPingRequestTime = 0 ∧
      client.Quiet now client.lastClientActivity then
    (client.sendPing asked first).bind fun next => next.handleQueue second
  else if client.session.state = .CONNECTED ∧ client.lastPingRequestTime = 0 ∧
      client.Quiet now client.lastServerActivity then
    (client.sendPing asked first).bind fun next => next.handleQueue second
  else client.handleQueue second

/-- Written bytes have not been acknowledged in time. -/
def AckTimesOut (client : Client) (now : Nat) : Prop :=
  client.tcp.pcbBusy = true ∧
    ASYNC_MAX_ACK_TIME ≤ (millis now - client.tcp.pcbSentAt).toNat

/-- The server has not been heard in time. -/
def RxTimesOut (client : Client) (now : Nat) : Prop :=
  client.tcp.rxSinceTimeout ≠ 0 ∧
    client.tcp.rxSinceTimeout * 1000 ≤ (millis now - client.tcp.rxLastPacket).toNat

instance (client : Client) (now : Nat) : Decidable (client.AckTimesOut now) :=
  inferInstanceAs (Decidable (_ ∧ _))

instance (client : Client) (now : Nat) : Decidable (client.RxTimesOut now) :=
  inferInstanceAs (Decidable (_ ∧ _))

/-- `_poll`. A missing acknowledgement costs the poll and has no other consequence, since
nothing listens to it. -/
def poll (client : Client) (now asked : Nat) (first second : List Round) : Option Client :=
  if client.sender.closing then
    some { client with sender := { client.sender with closing := false } }.close
  else if client.AckTimesOut now then
    some { client with tcp := { client.tcp with pcbBusy := false } }
  else if client.RxTimesOut now then some client.close
  else client.onPoll now asked first second

end Client

/-- What happens to a client. -/
inductive Kind where
  | connect
  | connected (request : OutPacket) (first second : List Round)
  | data (reading : List Turn)
  | sent (len : Nat) (rounds : List Round)
  | poll (asked : Nat) (first second : List Round)
  | send (packet : OutPacket) (rounds : List Round)
  | lost

/-- It begins and ends at some times. -/
structure Event where
  now : Nat
  finished : Nat
  kind : Kind

/-- One event; none when it cannot happen, or when it would never end. The stack calls back
only on a connection, and it has to be asked for one. -/
def Client.step (client : Client) (event : Event) : Option Client :=
  match event.kind with
  | .connect => some client.connect
  | .connected request first second =>
      if client.session.state = .CONNECTING ∧ client.sender.connected = false then
        client.connected event.now request first second
      else none
  | .data reading =>
      if client.sender.connected then client.onData event.now reading else none
  | .sent len rounds =>
      if client.sender.connected then client.sent event.now len rounds else none
  | .poll asked first second =>
      if client.sender.connected then client.poll event.now asked first second else none
  | .send packet rounds => client.send packet rounds
  | .lost =>
      if client.sender.connected ∨ client.session.state = .CONNECTING then some client.close
      else none

end WhirlpoolAc.MqttTimers
