import WhirlpoolAc.MqttKeepAlive

/-!
# The queue under the timers

The client with its timers works on the queue through the same functions as the sender
without them. Here every function of the one is traced back to the other: the sender behind
an event is the sender in front of it after some operations on the queue, with what the
connection answers in the rounds of the event. What holds of every run of operations thus
holds under the timers.

Only one thing is no operation on the queue: a poll that finds the connection about to be
closed takes that request back before it closes the connection.
-/

namespace WhirlpoolAc.MqttTimers

open WatchedRuns MqttReceiver MqttPackets MqttQueue

/-- What the connection answers in some rounds. -/
def answersOf (rounds : List Round) : List Answer := rounds.map Round.answer

/-- The sender without the request to close the connection. -/
def forget (sender : Sender) : Sender := { sender with closing := false }

/-- Some operations lead from one sender to the other, whether or not a close is requested. -/
def Works (operations : List (Operation × List Answer)) (before after : Sender) : Prop :=
  (before.run operations).map forget = some (forget after)

section Senders

variable {answers : List Answer} {first second : List (Operation × List Answer)}
  {sender before middle after : Sender}

/-- The sending loop does not read the request. Induction on the answers. -/
theorem handleRounds_forget :
    ((forget sender).handleRounds answers).map forget =
      (sender.handleRounds answers).map forget := by
  induction answers generalizing sender with
  | nil => rfl
  | cons answer answers ih =>
    have again (one two : Sender) (alike : forget one = forget two) :
        (one.handleRounds answers).map forget = (two.handleRounds answers).map forget := by
      rw [← ih, alike, ih]
    have wrote (head : OutPacket) : forget ((forget sender).write head answer) =
        forget (sender.write head answer) := by
      unfold Sender.write forget
      split
      · rfl
      · rfl
    have sent (head : OutPacket) : ((forget sender).write head answer).sent =
        (sender.write head answer).sent := by
      have kept := congrArg Sender.sent (wrote head)
      exact kept
    have same : (forget sender).packets = sender.packets := rfl
    rw [Sender.handleRounds, Sender.handleRounds, same]
    cases packets : sender.packets with
    | nil => rfl
    | cons head rest =>
      dsimp only
      rw [sent head]
      by_cases full : answer.space ≤ 10
      · rw [if_pos full, if_pos full]
        rfl
      · rw [if_neg full, if_neg full]
        by_cases whole : head.data.length = (sender.write head answer).sent
        · rw [if_pos whole, if_pos whole]
          by_cases released : head.released = true
          · rw [if_pos released, if_pos released]
            exact again _ _ (congrArg (fun written : Sender => { written with
              packets := rest, sent := 0, finished := written.finished ++ [head] }) (wrote head))
          · rw [if_neg released, if_neg released]
            exact congrArg some (wrote head)
        · rw [if_neg whole, if_neg whole]
          by_cases beyond : head.data.length < (sender.write head answer).sent
          · rw [if_pos beyond, if_pos beyond]
          · rw [if_neg beyond, if_neg beyond]
            exact again _ _ (wrote head)

/-- The loop behind its test for a connection does not read it either. -/
theorem handleQueue_forget (sender : Sender) :
    ((forget sender).handleQueue answers).map forget =
      (sender.handleQueue answers).map forget := by
  have same : (forget sender).connected = sender.connected := rfl
  unfold Sender.handleQueue
  rw [same]
  split
  · exact handleRounds_forget
  · rfl

/-- Inserting a packet does not read the request. -/
theorem insert_forget (sender : Sender) (packet : OutPacket) :
    (((forget sender).insert packet).bind (·.handleQueue answers)).map forget =
      ((sender.insert packet).bind (·.handleQueue answers)).map forget := by
  have same : (forget sender).packets = sender.packets := rfl
  unfold Sender.insert
  rw [same]
  cases sender.packets with
  | nil => rfl
  | cons head rest =>
    exact handleQueue_forget { sender with packets := head :: packet :: rest }

/-- Releasing the head does not read the request. -/
theorem release_forget (packetId : Nat) :
    (forget sender).release packetId = forget (sender.release packetId) := by
  have same : (forget sender).packets = sender.packets := rfl
  unfold Sender.release
  rw [same]
  cases sender.packets with
  | nil => rfl
  | cons head rest =>
    dsimp only
    split
    · rfl
    · rfl

/-- No operation reads the request. -/
theorem step_forget (sender : Sender) (operation : Operation) :
    ((forget sender).step answers operation).map forget =
      (sender.step answers operation).map forget := by
  cases operation with
  | connected packet =>
    exact handleQueue_forget
      ({ sender with connected := true, wire := [], finished := [] }.addFront packet)
  | addBack packet => exact handleQueue_forget (sender.addBack packet)
  | handle => exact handleQueue_forget sender
  | reaction effect =>
    cases effect with
    | clearQueue keepSessionData =>
      cases keepSessionData with
      | true => rfl
      | false => rfl
    | addBack ack => exact handleQueue_forget (sender.addBack (PubAckOutPacket ack))
    | release packetId =>
      rw [Sender.step, Sender.step, release_forget]
      rfl
    | answer ack =>
      have same : (forget sender).packets = sender.packets := rfl
      rw [Sender.step, Sender.step, same, release_forget]
      cases sender.packets with
      | nil => rfl
      | cons head rest =>
        dsimp only
        split
        · exact insert_forget (sender.release ack.packetId) (PubAckOutPacket ack)
        · rfl
    | insert ack => exact insert_forget sender (PubAckOutPacket ack)
    | handleQueue => exact handleQueue_forget sender
    | onConnect sessionPresent => rfl
    | onDisconnect => rfl
    | onSubscribe packetId status => rfl
    | onUnsubscribe packetId => rfl
    | onMessage topic properties payload index total => rfl
    | onPublish packetId => rfl

/-- Senders that differ in the request only are led to such senders. Induction on the
operations. -/
theorem run_forget (one two : Sender) (alike : forget one = forget two)
    (operations : List (Operation × List Answer)) :
    (one.run operations).map forget = (two.run operations).map forget := by
  induction operations generalizing one two with
  | nil => exact congrArg some alike
  | cons operation rest ih =>
    obtain ⟨operation, answers⟩ := operation
    have stepped : (one.step answers operation).map forget =
        (two.step answers operation).map forget := by
      rw [← step_forget, alike, step_forget]
    rw [Sender.run, Sender.run]
    cases first : one.step answers operation with
    | none =>
      rw [first, Option.map_none, eq_comm, Option.map_eq_none_iff] at stepped
      rw [stepped]
    | some next =>
      rw [first, Option.map_some, eq_comm, Option.map_eq_some_iff] at stepped
      obtain ⟨other, second, same⟩ := stepped
      rw [second]
      exact ih next other same.symm

/-- Without operations nothing changes. -/
theorem Works.refl (sender : Sender) : Works [] sender sender := rfl

/-- Operations go on after operations. -/
theorem Works.trans (early : Works first before middle) (late : Works second middle after) :
    Works (first ++ second) before after := by
  obtain ⟨reached, run, alike⟩ := Option.map_eq_some_iff.mp early
  have split : before.run (first ++ second) = reached.run second := by
    clear early late alike
    induction first generalizing before with
    | nil =>
      cases run
      rfl
    | cons operation rest ih =>
      obtain ⟨next, stepped, others⟩ := Option.bind_eq_some_iff.mp run
      rw [List.cons_append, Sender.run, stepped]
      exact ih others
  rw [Works, split, run_forget reached middle alike]
  exact late

/-- One operation. -/
theorem Works.single {operation : Operation}
    (stepped : before.step answers operation = some after) :
    Works [(operation, answers)] before after := by
  have run : before.run [(operation, answers)] = some after :=
    Option.bind_eq_some_iff.mpr ⟨after, stepped, rfl⟩
  rw [Works, run]
  rfl

end Senders

section Clients

variable {rounds : List Round} {client next : Client}

/-- A round writes what the sender writes. -/
@[simp]
theorem write_sender (head : OutPacket) (round : Round) :
    (client.write head round).sender = client.sender.write head round.answer := by
  unfold Client.write Sender.write
  split
  · rfl
  · rfl

/-- The sending loop is that of the sender. Induction on the rounds. -/
theorem handleRounds_sender :
    (client.handleRounds rounds).map Client.sender =
      client.sender.handleRounds (answersOf rounds) := by
  induction rounds generalizing client with
  | nil => rfl
  | cons round rounds ih =>
    rw [Client.handleRounds, answersOf, List.map_cons, Sender.handleRounds]
    cases packets : client.sender.packets with
    | nil => rfl
    | cons head rest =>
      dsimp only
      by_cases full : round.answer.space ≤ 10
      · rw [if_pos full, if_pos full]
        rfl
      · rw [if_neg full, if_neg full, write_sender]
        by_cases whole : head.data.length = (client.sender.write head round.answer).sent
        · rw [if_pos whole, if_pos whole]
          by_cases released : head.released = true
          · rw [if_pos released, if_pos released]
            exact ih
          · rw [if_neg released, if_neg released, Option.map_some, write_sender]
        · rw [if_neg whole, if_neg whole]
          by_cases beyond : head.data.length < (client.sender.write head round.answer).sent
          · rw [if_pos beyond, if_pos beyond]
            rfl
          · rw [if_neg beyond, if_neg beyond, ← write_sender]
            exact ih

/-- The same of the loop behind its test for a connection. -/
theorem handleQueue_sender :
    (client.handleQueue rounds).map Client.sender =
      client.sender.handleQueue (answersOf rounds) := by
  unfold Client.handleQueue Sender.handleQueue
  by_cases connected : client.sender.connected = true
  · rw [if_pos connected, if_pos connected]
    exact handleRounds_sender
  · rw [if_neg connected, if_neg connected]
    rfl

/-- The sending loop, on a queue that has just changed. -/
theorem handleQueue_works (result : client.handleQueue rounds = some next) :
    client.sender.handleQueue (answersOf rounds) = some next.sender := by
  rw [← handleQueue_sender, result]
  rfl

/-- A packet inserted, and then the sending loop. -/
theorem insert_works (packet : OutPacket) (result : client.insert packet rounds = some next) :
    (client.sender.insert packet).bind (·.handleQueue (answersOf rounds)) = some next.sender := by
  obtain ⟨sender, found, sent⟩ := Option.bind_eq_some_iff.mp result
  exact Option.bind_eq_some_iff.mpr ⟨sender, found, handleQueue_works sent⟩

/-- One effect is one operation. The end of a connection is none of the effects here. -/
theorem effect_works (effect : Effect) (open' : effect ≠ .clearQueue true)
    (result : client.effect rounds effect = some next) :
    Works [(.reaction effect, answersOf rounds)] client.sender next.sender := by
  apply Works.single
  cases effect with
  | clearQueue keepSessionData =>
    cases keepSessionData with
    | true => exact absurd rfl open'
    | false =>
      cases result
      rfl
  | addBack ack => exact handleQueue_works result
  | release packetId =>
    cases result
    rfl
  | answer ack =>
    rw [Client.effect] at result
    rw [Sender.step]
    cases packets : client.sender.packets with
    | nil =>
      rw [packets] at result
      cases result
      rfl
    | cons head rest =>
      rw [packets] at result
      dsimp only at result ⊢
      by_cases same : head.packetId = ack.packetId
      · rw [if_pos same] at result ⊢
        exact insert_works _ result
      · rw [if_neg same] at result ⊢
        cases result
        rfl
  | insert ack => exact insert_works _ result
  | handleQueue => exact handleQueue_works result
  | onConnect sessionPresent =>
    cases result
    rfl
  | onDisconnect =>
    cases result
    rfl
  | onSubscribe packetId status =>
    cases result
    rfl
  | onUnsubscribe packetId =>
    cases result
    rfl
  | onMessage topic properties payload index total =>
    cases result
    rfl
  | onPublish packetId =>
    cases result
    rfl

/-- Effects are operations in their order. -/
theorem effects_works (effects : List Effect) (open' : .clearQueue true ∉ effects)
    (result : client.effects rounds effects = some next) :
    Works (effects.map fun effect => (.reaction effect, answersOf rounds)) client.sender
      next.sender := by
  induction effects generalizing client with
  | nil =>
    cases result
    rfl
  | cons effect effects ih =>
    obtain ⟨middle, first, later⟩ := Option.bind_eq_some_iff.mp result
    have here : effect ≠ .clearQueue true := fun same => open' (same ▸ List.mem_cons_self)
    have others : .clearQueue true ∉ effects := fun member =>
      open' (List.mem_cons_of_mem effect member)
    exact (effect_works effect here first).trans (ih others later)

/-- No packet of the server ends the connection. -/
theorem react_open (session : Session) (call : Call) :
    .clearQueue true ∉ (session.react call).2 := by
  cases call with
  | onConnAck sessionPresent connectReturnCode =>
    simp only [Session.react, Session.onConnAck]
    cases sessionPresent with
    | true => split <;> simp
    | false => split <;> simp
  | onPingResp => simp [Session.react]
  | onSubAck packetId status => simp [Session.react, Session.onSubAck]
  | onAcknowledgement kind packetId =>
    cases kind with
    | unsubAck => simp [Session.react, Session.onUnsubAck]
    | pubAck => simp [Session.react, Session.onPubAck]
    | pubRec => simp [Session.react, Session.onPubRec]
    | pubRel => simp [Session.react, Session.onPubRel]
    | pubComp => simp [Session.react, Session.onPubComp]
  | onMessage topic properties packetId payload index total =>
    simp only [Session.react, Session.onMessage]
    split <;> simp
  | onPublish packetId qos =>
    simp only [Session.react, Session.onPublish]
    split
    · simp
    · split <;> simp

/-- A callback of the parser is the operations of its effects. -/
theorem react_works (call : Call) (result : client.react call rounds = some next) :
    ∃ operations, Works operations client.sender next.sender := by
  have reacted (result : ({ client with session := (client.session.react call).1 } :
      Client).effects rounds (client.session.react call).2 = some next) :
      ∃ operations, Works operations client.sender next.sender := by
    have works := effects_works _ (react_open client.session call) result
    exact ⟨_, works⟩
  cases call with
  | onPingResp =>
    cases result
    exact ⟨[], .refl _⟩
  | onConnAck sessionPresent connectReturnCode => exact reacted result
  | onSubAck packetId status => exact reacted result
  | onAcknowledgement kind packetId => exact reacted result
  | onMessage topic properties packetId payload index total => exact reacted result
  | onPublish packetId qos => exact reacted result

/-- Closing the connection is its end for the queue. -/
theorem close_works (client : Client) :
    Works [(.reaction (.clearQueue true), [])] client.sender client.close.sender :=
  .single rfl

/-- A request to close the connection is its end, or is only noted. -/
theorem disconnect_works (client : Client) :
    ∃ operations, Works operations client.sender client.disconnect.sender := by
  unfold Client.disconnect
  split
  · exact ⟨[], .refl _⟩
  · split
    · exact ⟨_, close_works client⟩
    · exact ⟨[], .refl _⟩

/-- A packet put at the back. -/
theorem addBack_works (packet : OutPacket) (result : client.addBack packet rounds = some next) :
    Works [(.addBack packet, answersOf rounds)] client.sender next.sender :=
  .single (handleQueue_works result)

/-- A turn while a segment is read. -/
theorem turn_works (turn : Turn) (result : client.turn turn = some next) :
    ∃ operations, Works operations client.sender next.sender := by
  cases turn with
  | connAckPacket =>
    cases result
    exact ⟨[], .refl _⟩
  | call call rounds =>
    cases call with
    | onConnAck sessionPresent connectReturnCode =>
      rw [Client.turn] at result
      split at result
      · exact react_works _ result
      · cases result
    | onPingResp =>
      have reaction : client.react .onPingResp rounds = some next := result
      exact react_works .onPingResp reaction
    | onSubAck packetId status => exact react_works (.onSubAck packetId status) result
    | onAcknowledgement kind packetId =>
      exact react_works (.onAcknowledgement kind packetId) result
    | onMessage topic properties packetId payload index total =>
      exact react_works (.onMessage topic properties packetId payload index total) result
    | onPublish packetId qos => exact react_works (.onPublish packetId qos) result
  | send packet rounds =>
    rw [Client.turn, Client.send] at result
    split at result
    · exact ⟨_, addBack_works packet result⟩
    · cases result
      exact ⟨[], .refl _⟩
  | violation =>
    cases result
    exact disconnect_works client

/-- Turns one after the other. Induction on their list. -/
theorem turns_works (reading : List Turn) (result : client.turns reading = some next) :
    ∃ operations, Works operations client.sender next.sender := by
  induction reading generalizing client with
  | nil =>
    cases result
    exact ⟨[], .refl _⟩
  | cons turn reading ih =>
    obtain ⟨middle, turned, later⟩ := Option.bind_eq_some_iff.mp result
    obtain ⟨early, first⟩ := turn_works turn turned
    obtain ⟨late, second⟩ := ih later
    exact ⟨early ++ late, first.trans second⟩

/-- A ping goes to the back of the queue. -/
theorem ping_works (asked : Nat) (first second : List Round)
    (result : ((client.sendPing asked first).bind fun next => next.handleQueue second) =
      some next) :
    ∃ operations, Works operations client.sender next.sender := by
  obtain ⟨middle, sent, later⟩ := Option.bind_eq_some_iff.mp result
  have added := addBack_works PingReqOutPacket sent
  have handled : Works [(.handle, answersOf second)] middle.sender next.sender :=
    .single (handleQueue_works later)
  exact ⟨_, added.trans handled⟩

/-- A poll. A close that was requested is taken back and made. -/
theorem poll_works (now asked : Nat) (first second : List Round)
    (result : client.poll now asked first second = some next) :
    ∃ operations, Works operations client.sender next.sender := by
  have handled (result : client.handleQueue second = some next) :
      ∃ operations, Works operations client.sender next.sender :=
    ⟨[(.handle, answersOf second)], .single (handleQueue_works result)⟩
  unfold Client.poll at result
  split at result
  · cases result
    exact ⟨[(.reaction (.clearQueue true), [])], rfl⟩
  · split at result
    · cases result
      exact ⟨[], .refl _⟩
    · split at result
      · cases result
        exact ⟨_, close_works client⟩
      · unfold Client.onPoll at result
        split at result
        · cases result
          exact disconnect_works client
        · split at result
          · exact ping_works asked first second result
          · split at result
            · exact ping_works asked first second result
            · exact handled result

/-- Every event is some operations on the queue. -/
theorem step_works (event : Event) (stepped : client.step event = some next) :
    ∃ operations, Works operations client.sender next.sender := by
  unfold Client.step at stepped
  cases kind : event.kind with
  | connect =>
    rw [kind] at stepped
    cases stepped
    refine ⟨[], ?_⟩
    unfold Client.connect
    split
    · exact .refl _
    · exact .refl _
  | connected request first second =>
    rw [kind] at stepped
    dsimp only at stepped
    split at stepped
    · obtain ⟨middle, sent, later⟩ := Option.bind_eq_some_iff.mp stepped
      have opened : Works [(.connected request, answersOf first)] client.sender middle.sender :=
        .single (handleQueue_works sent)
      have handled : Works [(.handle, answersOf second)] middle.sender next.sender :=
        .single (handleQueue_works later)
      exact ⟨_, opened.trans handled⟩
    · cases stepped
  | data reading =>
    rw [kind] at stepped
    dsimp only at stepped
    split at stepped
    · have works := turns_works reading stepped
      exact works
    · cases stepped
  | sent len rounds =>
    rw [kind] at stepped
    dsimp only at stepped
    split at stepped
    · unfold Client.sent at stepped
      dsimp only at stepped
      split at stepped
      · have works := handleQueue_works stepped
        exact ⟨[(.handle, answersOf rounds)], .single works⟩
      · cases stepped
        exact ⟨[], .refl _⟩
    · cases stepped
  | poll asked first second =>
    rw [kind] at stepped
    dsimp only at stepped
    split at stepped
    · exact poll_works event.now asked first second stepped
    · cases stepped
  | send packet rounds =>
    rw [kind] at stepped
    dsimp only at stepped
    unfold Client.send at stepped
    split at stepped
    · exact ⟨_, addBack_works packet stepped⟩
    · cases stepped
      exact ⟨[], .refl _⟩
  | lost =>
    rw [kind] at stepped
    dsimp only at stepped
    split at stepped
    · cases stepped
      exact ⟨_, close_works client⟩
    · cases stepped

end Clients

end WhirlpoolAc.MqttTimers
