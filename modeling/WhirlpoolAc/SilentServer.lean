import WhirlpoolAc.MqttKeepAlive

/-!
# A server that falls silent

A connection has room when its polls find it: nothing in the queue waits for an
acknowledgement, and the sending loop has rounds enough to empty it. Every ping that is
asked for is then written in the same poll, which clears the stamp of its request, so no
poll ever finds that the client has waited too long. From seven tenths of the keep-alive
time on, each poll sends another ping, and the connection stays.
-/

namespace WhirlpoolAc.MqttTimers

open ByteStrings Relation WatchedRuns WrappingClock HumiditySensor MqttReceiver MqttPackets
  MqttQueue

/-- Everything in a queue, as bytes. -/
def queued (packets : List OutPacket) : Bytes := packets.flatMap OutPacket.data

/-- What of its queue a sender has not written yet. -/
def unwritten (sender : Sender) : Bytes := (queued sender.packets).drop sender.sent

/-- Enough rounds with room for some packets, none of which waits for an acknowledgement. -/
structure Roomy (rounds : List Round) (packets : List OutPacket) : Prop where
  released : ∀ packet ∈ packets, packet.released = true
  room : ∀ round ∈ rounds, round.answer.accepted = true ∧ 10 < round.answer.space
  enough : (packets.map fun packet => packet.data.length + 1).sum ≤ rounds.length

/-- The sending loop has emptied the queue; if there was anything to write, it has taken the
stamps of that. -/
structure Flows (rounds : List Round) (client next : Client) : Prop where
  empty : next.sender.packets = []
  wire : next.sender.wire = client.sender.wire ++ unwritten client.sender
  connected : next.sender.connected = true
  session : next.session = client.session
  stamps : (unwritten client.sender = [] ∧
      next.lastPingRequestTime = client.lastPingRequestTime ∧
      next.lastClientActivity = client.lastClientActivity) ∨
    next.lastPingRequestTime = 0 ∧ ∃ round ∈ rounds, next.lastClientActivity = millis round.now

variable {client next : Client} {rounds : List Round}

/-- A round with room writes a further part of what is queued. -/
theorem write_flows (head : OutPacket) (rest : List OutPacket) (round : Round)
    (packets : client.sender.packets = head :: rest)
    (inside : client.sender.sent ≤ head.data.length) (accepted : round.answer.accepted = true)
    (room : 10 < round.answer.space) :
    let written := client.write head round
    written.sender.packets = head :: rest ∧ written.session = client.session ∧
      written.sender.sent ≤ head.data.length ∧
      written.sender.wire ++ unwritten written.sender =
        client.sender.wire ++ unwritten client.sender ∧
      (client.sender.sent = head.data.length ∧ written = client ∨
        client.sender.sent < written.sender.sent ∧ written.lastPingRequestTime = 0 ∧
          written.lastClientActivity = millis round.now) := by
  intro written
  by_cases more : client.sender.sent < head.data.length
  · let willSend := min (head.data.length - client.sender.sent) round.answer.space
    have bound : willSend ≤ head.data.length - client.sender.sent := Nat.min_le_left _ _
    have some : 0 < willSend := by omega
    have sender : written.sender =
        { client.sender with
          sent := client.sender.sent + willSend
          wire := client.sender.wire ++ (head.data.drop client.sender.sent).take willSend
          closing := client.sender.closing || packetType head = 14 } := by
      simp [written, write_spec head round more, Sender.write, more, accepted, willSend]
    have stamp : written.lastPingRequestTime = 0 := by
      simp [written, write_spec head round more]
    have activity : written.lastClientActivity = millis round.now := by
      simp [written, write_spec head round more]
    have session : written.session = client.session := by
      simp [written, write_spec head round more]
    have part : (head.data.drop client.sender.sent).take willSend ++
        (queued (head :: rest)).drop (client.sender.sent + willSend) =
          (queued (head :: rest)).drop client.sender.sent := by
      have front : (head.data.drop client.sender.sent).take willSend =
          ((queued (head :: rest)).drop client.sender.sent).take willSend := by
        rw [queued, List.flatMap_cons, List.drop_append_of_le_length inside,
          List.take_append_of_le_length (by rw [List.length_drop]; exact bound)]
      rw [front, ← List.drop_drop, List.take_append_drop]
    refine ⟨by rw [sender]; exact packets, session, ?_, ?_, .inr ⟨?_, stamp, activity⟩⟩
    · rw [sender]
      dsimp only
      omega
    · rw [sender]
      unfold unwritten
      dsimp only
      rw [packets, List.append_assoc, part]
    · rw [sender]
      dsimp only
      omega
  · have same : written = client := by simp only [written, Client.write, if_neg more]
    rw [same]
    exact ⟨packets, rfl, inside, rfl, .inl ⟨by omega, rfl⟩⟩

/-- What is behind a packet that has been sent whole. -/
theorem unwritten_popped (sender : Sender) (head : OutPacket) (rest : List OutPacket)
    (packets : sender.packets = head :: rest) (whole : sender.sent = head.data.length) :
    unwritten sender = queued rest := by
  rw [unwritten, packets, whole, queued, List.flatMap_cons, List.drop_left]
  rfl

/-- The stamps of a round, or those of a later one. -/
theorem Flows.behind {middle : Client} {round : Round} (flows : Flows rounds middle next)
    (free : middle.lastPingRequestTime = 0) (stamp : middle.lastClientActivity = millis round.now) :
    next.lastPingRequestTime = 0 ∧
      ∃ met ∈ round :: rounds, next.lastClientActivity = millis met.now := by
  rcases flows.stamps with ⟨_, same, still⟩ | ⟨later, met, member, renewed⟩
  · exact ⟨same.trans free, round, List.mem_cons_self, still.trans stamp⟩
  · exact ⟨later, met, List.mem_cons_of_mem round member, renewed⟩

/-- The sending loop empties a queue that nothing holds back. Induction on the rounds; each
takes a byte or a packet off what is still to be written. -/
theorem handleRounds_flows (client : Client) (rounds : List Round)
    (seated : Seated client.sender) (connected : client.sender.connected = true)
    (released : ∀ packet ∈ client.sender.packets, packet.released = true)
    (roomy : ∀ round ∈ rounds, round.answer.accepted = true ∧ 10 < round.answer.space)
    (enough : (client.sender.packets.map fun packet => packet.data.length + 1).sum ≤
      rounds.length + client.sender.sent) :
    ∃ next, client.handleRounds rounds = some next ∧ Flows rounds client next := by
  have inside := seated.inside
  induction rounds generalizing client with
  | nil =>
    cases packets : client.sender.packets with
    | nil =>
      have nothing : unwritten client.sender = [] := by simp [unwritten, packets, queued]
      exact ⟨client, rfl, packets, by simp [nothing], connected, rfl, .inl ⟨nothing, rfl, rfl⟩⟩
    | cons head rest =>
      rw [packets, List.head?_cons, Option.elim_some] at inside
      rw [packets, List.map_cons, List.sum_cons, List.length_nil] at enough
      omega
  | cons round rounds ih =>
    obtain ⟨⟨accepted, room⟩, others⟩ := List.forall_mem_cons.mp roomy
    rw [Client.handleRounds]
    cases packets : client.sender.packets with
    | nil =>
      have nothing : unwritten client.sender = [] := by simp [unwritten, packets, queued]
      exact ⟨client, rfl, packets, by simp [nothing], connected, rfl, .inl ⟨nothing, rfl, rfl⟩⟩
    | cons head rest =>
      rw [packets, List.head?_cons, Option.elim_some] at inside
      rw [packets] at released
      obtain ⟨free, behind⟩ := List.forall_mem_cons.mp released
      rw [packets, List.map_cons, List.sum_cons, List.length_cons] at enough
      simp only [if_neg (Nat.not_le_of_lt room)]
      obtain ⟨same, session, short, wire, progress⟩ :=
        write_flows head rest round packets inside accepted room
      have open' : (client.write head round).sender.connected = true :=
        (write_connected head round).trans connected
      by_cases whole : head.data.length = (client.write head round).sender.sent
      · rw [if_pos whole, if_pos free]
        let popped : Client :=
          { client.write head round with
            sender := { (client.write head round).sender with
              packets := rest, sent := 0
              finished := (client.write head round).sender.finished ++ [head] } }
        have enoughRest : (rest.map fun packet => packet.data.length + 1).sum ≤
            rounds.length + popped.sender.sent := by
          show (rest.map fun packet => packet.data.length + 1).sum ≤ rounds.length + 0
          omega
        obtain ⟨next, result, flows⟩ := ih popped ⟨Nat.zero_le _, fun _ => rfl⟩ open' behind others
          enoughRest (Nat.zero_le _)
        have rest' : unwritten popped.sender = unwritten (client.write head round).sender := by
          rw [unwritten_popped _ head rest same whole.symm]
          rfl
        refine ⟨next, result, flows.empty, ?_, flows.connected, flows.session.trans session, ?_⟩
        · rw [flows.wire, ← wire, rest']
        · rcases progress with ⟨_, unchanged⟩ | ⟨_, stamp, activity⟩
          · rcases flows.stamps with ⟨nothing, request, activity⟩ | ⟨stamp, met, member, activity⟩
            · refine .inl ⟨?_, ?_, ?_⟩
              · rw [← unchanged, ← rest']
                exact nothing
              · rw [request]
                show (client.write head round).lastPingRequestTime = _
                rw [unchanged]
              · rw [activity]
                show (client.write head round).lastClientActivity = _
                rw [unchanged]
            · exact .inr ⟨stamp, met, List.mem_cons_of_mem round member, activity⟩
          · exact .inr (flows.behind stamp activity)
      · have below : ¬ head.data.length < (client.write head round).sender.sent := by omega
        rw [if_neg whole, if_neg below]
        obtain ⟨further, stamp, activity⟩ : client.sender.sent <
            (client.write head round).sender.sent ∧
            (client.write head round).lastPingRequestTime = 0 ∧
            (client.write head round).lastClientActivity = millis round.now := by
          rcases progress with ⟨complete, unchanged⟩ | grown
          · rw [unchanged] at whole
            exact absurd complete.symm whole
          · exact grown
        have within : (client.write head round).sender.sent ≤
            (client.write head round).sender.packets.head?.elim 0 fun head => head.data.length := by
          rw [same]
          exact short
        obtain ⟨next, result, flows⟩ := ih (client.write head round)
          ⟨within, fun apart => Bool.noConfusion (open'.symm.trans apart)⟩ open'
          (by rw [same]; exact released) others
          (by rw [same, List.map_cons, List.sum_cons]; omega) within
        exact ⟨next, result, flows.empty, flows.wire.trans wire, flows.connected,
          flows.session.trans session, .inr (flows.behind stamp activity)⟩

/-- So does the sending loop from its beginning. -/
theorem handleQueue_flows (client : Client) (rounds : List Round) (seated : Seated client.sender)
    (connected : client.sender.connected = true) (roomy : Roomy rounds client.sender.packets) :
    ∃ next, client.handleQueue rounds = some next ∧ Flows rounds client next := by
  rw [Client.handleQueue, if_pos connected]
  exact handleRounds_flows client rounds seated connected roomy.released roomy.room
    (Nat.le_add_right_of_le roomy.enough)

/-- There is nothing to do for an empty queue. -/
theorem handleQueue_empty (client : Client) (rounds : List Round)
    (empty : client.sender.packets = []) : client.handleQueue rounds = some client := by
  unfold Client.handleQueue
  split
  · cases rounds with
    | nil => rfl
    | cons round rounds => rw [Client.handleRounds, empty]
  · rfl

/-- What is to be written grows by what is added at the back. -/
theorem unwritten_addBack (sender : Sender) (packet : OutPacket) (seated : Seated sender) :
    unwritten (sender.addBack packet) = unwritten sender ++ packet.data := by
  have inside : sender.sent ≤ (queued sender.packets).length := by
    have bound := seated.inside
    cases packets : sender.packets with
    | nil =>
      rw [packets] at bound
      exact bound.trans (Nat.zero_le _)
    | cons head rest =>
      rw [packets, List.head?_cons, Option.elim_some] at bound
      rw [queued, List.flatMap_cons, List.length_append]
      omega
  have grown : queued (sender.packets ++ [packet]) = queued sender.packets ++ packet.data := by
    simp [queued]
  show (queued (sender.packets ++ [packet])).drop sender.sent = _
  rw [grown, List.drop_append_of_le_length inside]
  rfl

/-- A poll that reaches the MQTT client. -/
theorem poll_polled (now asked : Nat) (first second : List Round) (polled : client.Polled now) :
    client.poll now asked first second = client.onPoll now asked first second := by
  rw [Client.poll, if_neg (by simp [polled.going]), if_neg polled.patient, if_neg polled.heard]

/-- A poll that asks for a ping where there is room sends it. -/
theorem poll_pings (now asked : Nat) (first second : List Round) (seated : Seated client.sender)
    (polled : client.Polled now) (due : client.PingDue now)
    (roomy : Roomy first (client.sender.packets ++ [PingReqOutPacket])) :
    ∃ next, client.poll now asked first second = some next ∧ next.sender.connected = true ∧
      next.session = client.session ∧ next.lastPingRequestTime = 0 ∧
      next.sender.wire = client.sender.wire ++ unwritten client.sender ++ PingReqOutPacket.data ∧
      ∃ round ∈ first, next.lastClientActivity = millis round.now := by
  let asking : Client := { client with lastPingRequestTime := millis asked }
  let longer : Client := asking.withSender (client.sender.addBack PingReqOutPacket)
  have longerSeated : Seated longer.sender :=
    (requeues_addBack client.sender PingReqOutPacket).seated seated
  have more : unwritten longer.sender = unwritten client.sender ++ PingReqOutPacket.data :=
    unwritten_addBack client.sender PingReqOutPacket seated
  obtain ⟨next, result, flows⟩ :=
    handleQueue_flows longer first longerSeated polled.connected roomy
  have pinged : ((client.sendPing asked first).bind fun next => next.handleQueue second) =
      some next := by
    show ((longer.handleQueue first).bind fun next => next.handleQueue second) = some next
    rw [result]
    exact handleQueue_empty next second flows.empty
  refine ⟨next, ?_, flows.connected, flows.session, ?_⟩
  · rw [poll_polled now asked first second polled, Client.onPoll, if_neg due.waiting]
    by_cases quiet : client.Quiet now client.lastClientActivity
    · rw [if_pos ⟨due.up, due.free, quiet⟩, pinged]
    · rw [if_neg fun asks => quiet asks.2.2,
        if_pos ⟨due.up, due.free, due.quiet.resolve_left quiet⟩, pinged]
  · have wire : next.sender.wire =
        client.sender.wire ++ unwritten client.sender ++ PingReqOutPacket.data := by
      rw [flows.wire, more, List.append_assoc]
      rfl
    rcases flows.stamps with ⟨nothing, _⟩ | ⟨free, stamp⟩
    · rw [more] at nothing
      exact absurd (List.append_eq_nil_iff.mp nothing).2 (List.cons_ne_nil _ _)
    · exact ⟨free, wire, stamp⟩

/-- A poll that does not ask for one, and has not asked before, works on the queue. -/
theorem poll_looks (now asked : Nat) (first second : List Round) (polled : client.Polled now)
    (early : ¬ client.PingDue now) (free : client.lastPingRequestTime = 0) :
    client.poll now asked first second = client.handleQueue second := by
  have waiting : ¬ client.PingTimesOut now := fun late => late.1 free
  rw [poll_polled now asked first second polled, Client.onPoll, if_neg waiting,
    if_neg fun asks => early ⟨waiting, asks.1, asks.2.1, .inl asks.2.2⟩,
    if_neg fun asks => early ⟨waiting, asks.1, asks.2.1, .inr asks.2.2⟩]

/-- Whenever a connected client is polled, the connection has room for what is queued and for
a ping. -/
structure Flowing (watch : Watch) (client : Client) (event : Event) (next : Client) : Prop
    extends InOrder watch client event next where
  roomy : ∀ asked first second, event.kind = .poll asked first second →
    client.session.state = .CONNECTED →
      Roomy first (client.sender.packets ++ [PingReqOutPacket]) ∧
        Roomy second client.sender.packets

section Runs

variable {limit : Nat} {permitted : Round → Prop} {answers : Prop} {middle : Client} {event : Event}
  {watch : Watch}

/-- A reaction does not ask for a ping. -/
theorem Reaction.unasked (reaction : Reaction permitted answers client next)
    (free : client.lastPingRequestTime = 0) : next.lastPingRequestTime = 0 := by
  induction reaction with
  | refl => exact free
  | tail _ small ih =>
    cases small with
    | write head rest round packets more room connected met => rw [write_spec head round more]
    | queue sender requeued => exact ih
    | begins answer => exact ih
    | session session kept => exact ih
    | answered => rfl
    | close connected => rfl
    | apart connected => exact ih

/-- The step of a poll. -/
theorem step_poll (asked : Nat) (first second : List Round)
    (kind : event.kind = .poll asked first second) (connected : client.sender.connected = true) :
    client.step event = client.poll event.now asked first second := by
  unfold Client.step
  rw [kind]
  exact if_pos connected

/-- Where polls find room, no ping is ever waited for between two events. -/
theorem reaches_unasked (reached : Reaches watched Flowing (.construct limit) .clean client watch) :
    client.lastPingRequestTime = 0 := by
  refine reached.invariant (fun client _ => client.lastPingRequestTime = 0) rfl ?_
  intro client next watch event before free stepped promised
  have settled := reaches_settled before
  obtain ⟨middle, opens, reaction⟩ := step_opens event promised.rounds stepped
  cases opens with
  | pinged asked first second kind polled due =>
    obtain ⟨roomy, _⟩ := promised.roomy asked first second kind due.up
    obtain ⟨sent, result, _, _, cleared, _⟩ :=
      poll_pings event.now asked first second settled.seated polled due roomy
    have step := (step_poll asked first second kind polled.connected).trans result
    cases stepped.symm.trans step
    exact cleared
  | connect kind =>
    refine reaction.unasked ?_
    unfold Client.connect
    split
    · exact free
    · exact free
  | connected request first second kind asked apart => exact reaction.unasked free
  | data reading kind connected => exact reaction.unasked free
  | sent len rounds kind connected => exact reaction.unasked free
  | missed asked first second kind connected late => exact reaction.unasked free
  | closed asked first second closing kind connected => exact reaction.unasked rfl
  | polled asked first second kind polled early => exact reaction.unasked free
  | send packet rounds kind => exact reaction.unasked free
  | lost kind => exact reaction.unasked rfl

/-- A silent server is tolerated: in every run of a client whose polls find room, no poll of a
connected client ends the connection, unless the program has asked for its end. Every poll
that is not spent on a missing acknowledgement writes all that is queued, and behind it a
ping if the server has been silent for seven tenths of the keep-alive time, however many
pings have been sent and never answered before. -/
theorem silence_is_tolerated (limit asked : Nat) (client : Client) (watch : Watch) (event : Event)
    (first second : List Round)
    (reached : Reaches watched Flowing (.construct limit) .clean client watch)
    (kind : event.kind = .poll asked first second)
    (up : client.session.state = .CONNECTED) (connected : client.sender.connected = true)
    (going : client.sender.closing = false)
    (roomy : Roomy first (client.sender.packets ++ [PingReqOutPacket]))
    (roomyAfter : Roomy second client.sender.packets) :
    ∃ next, client.step event = some next ∧ next.sender.connected = true ∧
      next.session = client.session ∧
      (¬ client.AckTimesOut event.now → ∃ ping, (ping = [] ∨ ping = PingReqOutPacket.data) ∧
        (limit * 700 ≤ (millis event.now - client.lastServerActivity).toNat →
          ping = PingReqOutPacket.data) ∧
        next.sender.wire = client.sender.wire ++ unwritten client.sender ++ ping) := by
  have settled := reaches_settled reached
  have free := reaches_unasked reached
  have step := step_poll asked first second kind connected
  by_cases late : client.AckTimesOut event.now
  · refine ⟨client.resigned, ?_, connected, rfl, fun patient => absurd late patient⟩
    rw [step, Client.poll, if_neg (by simp [going]), if_pos late]
    rfl
  have heard : ¬ client.RxTimesOut event.now := fun silent => silent.1 (settled.up up)
  have polled : client.Polled event.now := ⟨connected, going, late, heard⟩
  by_cases due : client.PingDue event.now
  · obtain ⟨next, result, open', session, _, wire, _⟩ :=
      poll_pings event.now asked first second settled.seated polled due roomy
    exact ⟨next, step.trans result, open', session, fun _ =>
      ⟨PingReqOutPacket.data, .inr rfl, fun _ => rfl, wire⟩⟩
  · obtain ⟨next, result, flows⟩ := handleQueue_flows client second settled.seated connected
      roomyAfter
    refine ⟨next, ?_, flows.connected, flows.session, fun _ => ⟨[], .inl rfl, fun silent => ?_, ?_⟩⟩
    · rw [step, poll_looks event.now asked first second polled due free, result]
    · have quiet : client.Quiet event.now client.lastServerActivity := by
        rw [Client.Quiet, settled.keepAlive]
        exact silent
      exact absurd ⟨fun waiting => waiting.1 free, up, free, .inr quiet⟩ due
    · rw [flows.wire, List.append_nil]

/-- A client that was let in ten seconds ago and has heard nothing since. -/
theorem silence_is_tolerated_ping :
    let rounds : List Round := [⟨⟨100, true⟩, true, 10600⟩, ⟨⟨98, true⟩, true, 10600⟩,
      ⟨⟨98, true⟩, true, 10600⟩]
    let poll : Event := ⟨10600, 10600, .poll 10600 rounds []⟩
    ∃ next, letIn.step poll = some next ∧ next.sender.connected = true ∧
      next.sender.wire = letIn.sender.wire ++ unwritten letIn.sender ++ [0xC0, 0] := by
  intro rounds poll
  have reached : Reaches watched Flowing (.construct 15) .clean letIn
      ⟨20, 10, 20, true, 10, 20⟩ :=
    letIn_reached fun _ _ _ _ promised _ _ other =>
      ⟨promised.toInOrder, fun asked first second kind => absurd kind (other asked first second)⟩
  obtain ⟨next, result, connected, _, written⟩ :=
    silence_is_tolerated 15 10600 letIn ⟨20, 10, 20, true, 10, 20⟩ poll rounds [] reached rfl rfl
      rfl rfl ⟨by decide, by decide, by decide⟩ ⟨by decide, by decide, by decide⟩
  obtain ⟨ping, _, silent, wire⟩ := written (by decide +kernel)
  have pinged : ping = PingReqOutPacket.data := silent (by decide +kernel)
  exact ⟨next, result, connected, by rw [wire, pinged]; rfl⟩

end Runs

end WhirlpoolAc.MqttTimers
