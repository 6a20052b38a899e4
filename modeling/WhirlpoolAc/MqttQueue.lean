import WhirlpoolAc.MqttPackets

/-!
# The queue of outgoing packets

Packets leave the client one by one through a queue. The head is written as far as the
connection has room, a packet that waits for an acknowledgement stays at the head until it
is released, and everything behind it stays behind it. What the connection answers on the
way is arbitrary: how much room it has in each round, and whether it takes what is written.

What has been written into a connection and which packets have left the queue on it are
kept beside the members of the client; the code does not read them.
-/

namespace WhirlpoolAc.MqttQueue

open ByteStrings MqttPackets MqttReceiver

/-- What the connection answers in a round of the loop. -/
structure Answer where
  space : Nat
  accepted : Bool
deriving DecidableEq

/-- The type of a packet. -/
def packetType (packet : OutPacket) : Nat := (packet.data.headD 0).toNat >>> 4

/-- `OutPacket::qos` reads the byte behind the flags, which is the first one of the length. -/
def qos (packet : OutPacket) : Nat :=
  if packetType packet = 3 then ((packet.data.getD 1 0).toNat &&& 0x06) >>> 1 else 0

/-- The members of the client that sending uses, and the record of its connection. -/
structure Sender where
  packets : List OutPacket
  sent : Nat
  connected : Bool
  closing : Bool
  wire : Bytes
  finished : List OutPacket
deriving DecidableEq

/-- A client that has not been connected. -/
def Sender.construct : Sender := ⟨[], 0, false, false, [], []⟩

/-- The first half of a round: the rest of the head is written as far as there is room.
What the connection does not take is counted as sent all the same. -/
def Sender.write (sender : Sender) (head : OutPacket) (answer : Answer) : Sender :=
  if head.data.length > sender.sent then
    let willSend := min (head.data.length - sender.sent) answer.space
    { sender with
      sent := sender.sent + willSend
      wire := sender.wire ++
        if answer.accepted then (head.data.drop sender.sent).take willSend else []
      closing := sender.closing || packetType head = 14 }
  else sender

/-- The loop of `_handleQueue`, which ends for want of room when there are no more answers.
None when the head has been sent beyond its end, which the loop would never leave. -/
def Sender.handleRounds : Sender → List Answer → Option Sender
  | sender, [] => some sender
  | sender, answer :: answers =>
      match sender.packets with
      | [] => some sender
      | head :: rest =>
          if answer.space ≤ 10 then some sender
          else
            let sender := sender.write head answer
            if head.data.length = sender.sent then
              if head.released then
                Sender.handleRounds
                  { sender with
                    packets := rest, sent := 0, finished := sender.finished ++ [head] }
                  answers
              else some sender
            else if head.data.length < sender.sent then none
            else Sender.handleRounds sender answers

/-- `_handleQueue`. Without a connection there is no room. -/
def Sender.handleQueue (sender : Sender) (answers : List Answer) : Option Sender :=
  if sender.connected then sender.handleRounds answers else some sender

/-- `_addFront`, on a new connection. -/
def Sender.addFront (sender : Sender) (packet : OutPacket) : Sender :=
  { sender with packets := packet :: sender.packets }

/-- `_addBack`, without the sending loop that follows it. -/
def Sender.addBack (sender : Sender) (packet : OutPacket) : Sender :=
  { sender with packets := sender.packets ++ [packet] }

/-- `_insert` puts a packet behind the head, which has to exist. -/
def Sender.insert (sender : Sender) (packet : OutPacket) : Option Sender :=
  match sender.packets with
  | [] => none
  | head :: rest => some { sender with packets := head :: packet :: rest }

/-- Release the head if it has the identifier. -/
def Sender.release (sender : Sender) (packetId : Nat) : Sender :=
  match sender.packets with
  | head :: rest =>
      if head.packetId = packetId then
        { sender with packets := { head with released := true } :: rest }
      else sender
  | [] => sender

/-- The packets that survive the end of a connection. -/
def survives (packet : OutPacket) : Bool :=
  0 < qos packet ∨ packetType packet = 5 ∨ packetType packet = 7

/-- `_clearQueue`. The packets that are kept are added again at the back, and marked as sent
before if they are not larger than what has been sent of the old head. -/
def Sender.clearQueue (sender : Sender) (keepSessionData : Bool) : Sender :=
  { sender with
    packets :=
      if keepSessionData then
        (sender.packets.filter survives).map fun packet =>
          if 0 < qos packet ∧ packet.data.length ≤ sender.sent then packet.setDup else packet
      else []
    sent := 0
    finished :=
      match sender.packets with
      | head :: _ =>
          if head.data.length = sender.sent then sender.finished ++ [head] else sender.finished
      | [] => sender.finished }

/-- What works on the queue: a new connection, a packet of the program or of the keep-alive
poll, a reaction to the server, and whatever else looks whether there is room again. -/
inductive Operation where
  | connected (packet : OutPacket)
  | addBack (packet : OutPacket)
  | reaction (effect : Effect)
  | handle
deriving DecidableEq

/-- One operation with the answers of the connection during it. The queue survives the end
of a connection, and a new one has taken nothing yet. -/
def Sender.step (sender : Sender) (answers : List Answer) : Operation → Option Sender
  | .connected packet =>
      ({ sender with connected := true, wire := [], finished := [] }.addFront packet).handleQueue
        answers
  | .addBack packet => (sender.addBack packet).handleQueue answers
  | .handle => sender.handleQueue answers
  | .reaction (.clearQueue true) =>
      some { sender.clearQueue true with connected := false }
  | .reaction (.clearQueue false) => some (sender.clearQueue false)
  | .reaction (.addBack ack) => (sender.addBack (PubAckOutPacket ack)).handleQueue answers
  | .reaction (.release packetId) => some (sender.release packetId)
  | .reaction (.answer ack) =>
      match sender.packets with
      | head :: _ =>
          if head.packetId = ack.packetId then
            ((sender.release ack.packetId).insert (PubAckOutPacket ack)).bind
              (·.handleQueue answers)
          else some sender
      | [] => some sender
  | .reaction (.insert ack) =>
      (sender.insert (PubAckOutPacket ack)).bind (·.handleQueue answers)
  | .reaction .handleQueue => sender.handleQueue answers
  | .reaction _ => some sender

/-- Operations one after the other. -/
def Sender.run : Sender → List (Operation × List Answer) → Option Sender
  | sender, [] => some sender
  | sender, (operation, answers) :: rest =>
      (sender.step answers operation).bind fun next => Sender.run next rest

/-- Everything on a connection, in its order: what has left the queue and what is in it. -/
def Sender.line (sender : Sender) : List OutPacket := sender.finished ++ sender.packets

/-- While a connection lasts, its wire carries whole packets and the part of the head that
has been sent; nothing has been sent without a connection. -/
structure Sound (sender : Sender) : Prop where
  inside : sender.sent ≤ sender.packets.head?.elim 0 fun head => head.data.length
  apart : sender.connected = false → sender.sent = 0
  wire : sender.connected = true → sender.wire = sender.finished.flatMap OutPacket.data ++
    (sender.packets.flatMap OutPacket.data).take sender.sent

/-- The packets on a connection as bytes. -/
def Sender.lineData (sender : Sender) : List Bytes := sender.line.map OutPacket.data

/-- The packets that have been sent whole. -/
def Sender.sentWhole (sender : Sender) : List Bytes :=
  sender.finished.map OutPacket.data ++
    match sender.packets with
    | head :: _ => if head.data.length = sender.sent then [head.data] else []
    | [] => []

/-- What an operation adds at the back. -/
def Operation.behind : Operation → List Bytes
  | .addBack packet => [packet.data]
  | .reaction (.addBack ack) => [(PubAckOutPacket ack).data]
  | _ => []

/-- What an operation may insert behind the head. -/
def Operation.inserts : Operation → List Bytes
  | .reaction (.insert ack) | .reaction (.answer ack) => [(PubAckOutPacket ack).data]
  | _ => []

/-- The connection lasts through the operation. -/
def Operation.Lasts : Operation → Prop
  | .connected _ | .reaction (.clearQueue _) => False
  | _ => True

/-- An operation that does not spoil the wire. -/
def Sender.Regular (sender : Sender) : Operation → Prop
  | .connected _ => sender.connected = false
  | .reaction (.clearQueue false) =>
      sender.sent = 0 ∨ ∀ head ∈ sender.packets.head?, head.data.length = sender.sent
  | .reaction (.insert _) => sender.packets ≠ []
  | _ => True

/-- A run of such operations on a connection that takes what it has room for. -/
def Sender.RunsRegularly : Sender → List (Operation × List Answer) → Prop
  | _, [] => True
  | sender, (operation, answers) :: rest =>
      sender.Regular operation ∧ (∀ answer ∈ answers, answer.accepted = true) ∧
        ∀ next, sender.step answers operation = some next → Sender.RunsRegularly next rest

end WhirlpoolAc.MqttQueue
