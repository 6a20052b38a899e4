import WhirlpoolAc.PolledLine
import WhirlpoolAc.TimedCallbacks

/-!
# Keeping a connection alive

An observer notes the true times that the counter only shows modulo its width: when the
connection was last polled, when anything was last heard from the server, when bytes were
last written, when the client was let in.

Until the server answers the connection request, its silence is watched by the TCP client,
and a silent server is dropped. From then on nothing watches the silence: a ping that is
asked for is written at once where the connection has room, and writing it clears the stamp
of its request, so the time that the client waits for its answer never begins to run. It
runs only while nothing can be written.
-/

namespace WhirlpoolAc.MqttTimers

open ByteStrings Relation WatchedRuns WrappingClock HumiditySensor MqttReceiver MqttPackets
  MqttQueue

/-- What the observer notes. -/
structure Watch where
  now : Nat
  polled : Nat
  heard : Nat
  begun : Bool
  wrote : Nat
  admitted : Nat
deriving DecidableEq

/-- Nothing has happened yet. -/
def Watch.clean : Watch := ⟨0, 0, 0, false, 0, 0⟩

/-- What had been written into the connection before an event; nothing into a new one. -/
def Event.written (event : Event) (client : Client) : Bytes :=
  match event.kind with
  | .connected _ _ _ => []
  | _ => client.sender.wire

/-- What is noted of an event. A new connection counts as polled and heard. -/
def Watch.note (watch : Watch) (client : Client) (event : Event) (next : Client) : Watch where
  now := event.finished
  polled :=
    match event.kind with
    | .connected _ _ _ | .poll _ _ _ => event.now
    | _ => watch.polled
  heard :=
    match event.kind with
    | .connected _ _ _ | .data _ | .sent _ _ => event.now
    | _ => watch.heard
  begun :=
    match event.kind with
    | .connected _ _ _ => false
    | _ => watch.begun || event.begins
  wrote := if next.sender.wire = event.written client then watch.wrote else event.now
  admitted :=
    if client.session.state ≠ .CONNECTED ∧ next.session.state = .CONNECTED then event.finished
    else watch.admitted

/-- The client under observation. -/
def watched : Watched Client Event Watch := ⟨Client.step, Watch.note⟩

/-- A round lies within an event. -/
def Event.Meets (event : Event) (round : Round) : Prop :=
  event.now ≤ round.now ∧ round.now ≤ event.finished

/-- So does the request for a ping. -/
def Event.Asks (event : Event) : Prop :=
  match event.kind with
  | .poll asked _ _ => event.now ≤ asked ∧ asked ≤ event.finished
  | _ => True

/-- Events come one after the other, and what happens in them happens in their time. -/
structure InOrder (watch : Watch) (client : Client) (event : Event) (next : Client) : Prop where
  ordered : watch.now ≤ event.now
  lasting : event.now ≤ event.finished
  rounds : ∀ round ∈ event.rounds, event.Meets round
  asks : event.Asks

/-- A connection is polled again and again. -/
structure Dense (pause : Nat) (watch : Watch) (client : Client) (event : Event) (next : Client) :
    Prop extends InOrder watch client event next where
  short : event.finished ≤ event.now + pause
  soon : client.sender.connected = true → event.now ≤ watch.polled + pause
  ended : next.sender.connected = true →
    event.finished ≤ (watch.note client event next).polled + pause

section Settled

variable {limit : Nat} {permitted : Round → Prop} {answers begun : Prop}
  {client middle next : Client} {event : Event} {watch : Watch}

/-- What holds between any two steps, where the answer to the connection request may begin
in the event, and may have begun on the connection. -/
structure Settled (limit : Nat) (answers begun : Prop) (client : Client) : Prop where
  keepAlive : client.keepAlive = limit
  seated : Seated client.sender
  alive : client.sender.connected = true → client.session.state ≠ .DISCONNECTED
  timeout : client.tcp.rxSinceTimeout = 0 ∨ client.tcp.rxSinceTimeout = limit
  armed : client.session.state = .CONNECTING → client.sender.connected = false →
    client.tcp.rxSinceTimeout = limit ∧ ¬ answers
  waiting : client.sender.connected = true → ¬ begun → client.tcp.rxSinceTimeout = limit
  up : client.session.state = .CONNECTED → client.tcp.rxSinceTimeout = 0

/-- What bytes do to the members that timers use. -/
theorem write_spec (head : OutPacket) (round : Round)
    (more : client.sender.sent < head.data.length) :
    let willSend := min (head.data.length - client.sender.sent) round.answer.space
    client.write head round =
      { client with
        tcp := client.tcp.write willSend round
        sender := client.sender.write head round.answer
        lastClientActivity := millis round.now
        lastPingRequestTime := 0 } := by
  rw [Client.write, if_pos more]

/-- Writing does not touch the receiving timeout. -/
@[simp]
theorem tcpWrite_rxSinceTimeout (tcp : AsyncClient) (willSend : Nat) (round : Round) :
    (tcp.write willSend round).rxSinceTimeout = tcp.rxSinceTimeout := by
  unfold AsyncClient.write
  cases round.output with
  | true => rfl
  | false => rfl

/-- Writing does not touch the time of the last packet. -/
@[simp]
theorem tcpWrite_rxLastPacket (tcp : AsyncClient) (willSend : Nat) (round : Round) :
    (tcp.write willSend round).rxLastPacket = tcp.rxLastPacket := by
  unfold AsyncClient.write
  cases round.output with
  | true => rfl
  | false => rfl

/-- Writing sends a further part of the head. -/
theorem write_seated (head : OutPacket) (rest : List OutPacket) (answer : Answer) (sender : Sender)
    (packets : sender.packets = head :: rest) (connected : sender.connected = true)
    (seated : Seated sender) : Seated (sender.write head answer) := by
  unfold Sender.write
  split
  · refine ⟨?_, fun apart => Bool.noConfusion (connected.symm.trans apart)⟩
    simp only [packets, List.head?_cons, Option.elim_some]
    omega
  · exact seated

/-- Small steps keep it. -/
theorem Small.settled (small : Small permitted answers client next) (since : answers → begun)
    (settled : Settled limit answers begun client) :
    Settled limit answers begun next := by
  obtain ⟨same, seated, alive, timeout, armed, waiting, up⟩ := settled
  cases small with
  | write head rest round packets more room connected met =>
    have still : (client.sender.write head round.answer).connected = client.sender.connected := by
      simp [Sender.write, more]
    rw [write_spec head round more]
    refine ⟨same, write_seated head rest round.answer client.sender packets connected seated, ?_,
      ?_, ?_, ?_, ?_⟩
    · exact fun open' => alive (still ▸ open')
    · simpa using timeout
    · exact fun asked apart => absurd (still.symm.trans apart) (by simp [connected])
    · simpa [still] using waiting
    · simpa using up
  | queue sender requeued =>
    refine ⟨same, requeued.seated seated, fun open' => alive (requeued.connected ▸ open'), timeout,
      fun asked apart => armed asked (requeued.connected ▸ apart),
      fun open' => waiting (requeued.connected ▸ open'), up⟩
  | begins answer =>
    refine ⟨same, seated, alive, .inl rfl, fun asked apart => absurd answer (armed asked apart).2,
      fun _ unbegun => absurd (since answer) unbegun, fun _ => rfl⟩
  | session session kept =>
    rcases kept with kept | ⟨connected, begun'⟩
    · exact ⟨same, seated, fun open' => kept ▸ alive open', timeout,
        fun asked => armed (kept ▸ asked), waiting, fun established => up (kept ▸ established)⟩
    · refine ⟨same, seated, fun _ => ?_, timeout, fun asked => ?_, waiting, fun _ => begun'⟩
      · rw [connected]
        exact ConnectionState.noConfusion
      · rw [connected] at asked
        cases asked
  | answered => exact ⟨same, seated, alive, timeout, armed, waiting, up⟩
  | close connected =>
    exact ⟨same, ⟨Nat.zero_le _, fun _ => rfl⟩, Bool.noConfusion, .inl rfl,
      ConnectionState.noConfusion, Bool.noConfusion, ConnectionState.noConfusion⟩
  | apart connected =>
    exact ⟨same, seated, fun open' => absurd open' (by simp [connected]), timeout,
      ConnectionState.noConfusion, waiting, ConnectionState.noConfusion⟩

/-- So does a whole reaction. -/
theorem Reaction.settled (reaction : Reaction permitted answers client next)
    (since : answers → begun) (settled : Settled limit answers begun client) :
    Settled limit answers begun next := by
  induction reaction with
  | refl => exact settled
  | tail _ small ih => exact small.settled since ih

/-- A closed connection. -/
theorem close_settled (settled : Settled limit False begun client) (answered : Prop) :
    Settled limit answered begun client.close where
  keepAlive := settled.keepAlive
  seated := ⟨Nat.zero_le _, fun _ => rfl⟩
  alive := Bool.noConfusion
  timeout := .inl rfl
  armed := ConnectionState.noConfusion
  waiting := Bool.noConfusion
  up := ConnectionState.noConfusion

/-- In an event that is no data, the answer does not begin. -/
theorem begins_eq_false (other : ∀ reading, event.kind ≠ .data reading) :
    event.begins = false := by
  unfold Event.begins
  split
  · next reading kind => exact absurd kind (other reading)
  · rfl

/-- What the beginning of an event keeps. -/
theorem Opens.settled (opens : Opens event client middle)
    (settled : Settled limit False (watch.begun = true) client) :
    Settled limit (event.begins = true) ((watch.note client event next).begun = true) middle := by
  have kept (other : ∀ reading, event.kind ≠ .data reading)
      (old : ∀ request first second, event.kind ≠ .connected request first second)
      (after : Client) (same : Settled limit False (watch.begun = true) after) :
      Settled limit (event.begins = true) ((watch.note client event next).begun = true) after := by
    have quiet := begins_eq_false other
    have noted : (watch.note client event next).begun = watch.begun := by
      unfold Watch.note
      dsimp only
      split
      · next request first second kind => exact absurd kind (old request first second)
      · simp [quiet]
    rw [quiet, noted]
    exact { same with
      armed := fun asked apart => ⟨(same.armed asked apart).1, Bool.noConfusion⟩ }
  obtain ⟨same, seated, alive, timeout, armed, waiting, up⟩ := settled
  cases opens with
  | connect kind =>
    refine kept (by simp [kind]) (by simp [kind]) _ ?_
    unfold Client.connect
    by_cases busy : client.session.state ≠ .DISCONNECTED
    · rw [if_pos busy]
      exact ⟨same, seated, alive, timeout, armed, waiting, up⟩
    · rw [if_neg busy]
      have apart (open' : client.sender.connected = true) : False := busy (alive open')
      exact ⟨same, seated, fun open' => (apart open').elim, .inr same,
        fun _ _ => ⟨same, id⟩, fun open' => (apart open').elim, ConnectionState.noConfusion⟩
  | connected request first second kind asked apart =>
    have fresh : (watch.note client event next).begun = false := by simp [Watch.note, kind]
    have quiet : event.begins = false := begins_eq_false (by simp [kind])
    obtain ⟨armed, _⟩ := armed asked apart
    have nothing := seated.apart apart
    rw [fresh, quiet]
    exact ⟨same, ⟨nothing.trans_le (Nat.zero_le _), Bool.noConfusion⟩,
      fun _ gone => ConnectionState.noConfusion (asked.symm.trans gone), .inr armed,
      fun _ => Bool.noConfusion, fun _ _ => armed, up⟩
  | data reading kind connected =>
    refine ⟨same, seated, alive, timeout, fun _ apart => ?_, fun open' unbegun => ?_, up⟩
    · exact Bool.noConfusion (connected.symm.trans apart)
    · refine waiting open' fun begun => unbegun ?_
      simp [Watch.note, kind, begun]
  | sent len rounds kind connected =>
    exact kept (by simp [kind]) (by simp [kind]) _
      ⟨same, seated, alive, timeout, armed, waiting, up⟩
  | missed asked first second kind connected late =>
    exact kept (by simp [kind]) (by simp [kind]) _
      ⟨same, seated, alive, timeout, armed, waiting, up⟩
  | closed asked first second closing kind connected =>
    have still : Settled limit False (watch.begun = true)
        ({ client with sender := { client.sender with closing } } : Client) :=
      ⟨same, ⟨seated.inside, seated.apart⟩, alive, timeout, armed, waiting, up⟩
    exact kept (by simp [kind]) (by simp [kind]) _ (close_settled still False)
  | pinged asked first second kind polled due =>
    exact kept (by simp [kind]) (by simp [kind]) _
      ⟨same, seated, alive, timeout, armed, waiting, up⟩
  | polled asked first second kind polled early =>
    exact kept (by simp [kind]) (by simp [kind]) _
      ⟨same, seated, alive, timeout, armed, waiting, up⟩
  | send packet rounds kind =>
    exact kept (by simp [kind]) (by simp [kind]) _
      ⟨same, seated, alive, timeout, armed, waiting, up⟩
  | lost kind =>
    exact kept (by simp [kind]) (by simp [kind]) _ (close_settled
      ⟨same, seated, alive, timeout, armed, waiting, up⟩ False)

/-- What holds whenever no event is under way. -/
theorem reaches_settled {allowed : Environment Client Event Watch}
    (reached : Reaches watched allowed (.construct limit) .clean client watch) :
    Settled limit False (watch.begun = true) client := by
  refine reached.invariant (fun client watch => Settled limit False (watch.begun = true) client)
    ?_ ?_
  · exact ⟨rfl, ⟨Nat.zero_le _, fun _ => rfl⟩, Bool.noConfusion, .inl rfl,
      ConnectionState.noConfusion, Bool.noConfusion, ConnectionState.noConfusion⟩
  · intro client next watch event _ settled stepped promised
    have met : ∀ round ∈ event.rounds, (fun _ : Round => True) round := fun _ _ => trivial
    obtain ⟨middle, opens, reaction⟩ := step_opens event met stepped
    have since : event.begins = true → (watch.note client event next).begun = true := by
      intro begins
      cases kind : event.kind with
      | data reading => simp [Watch.note, kind, begins]
      | connect | connected | sent | poll | send | lost => simp [Event.begins, kind] at begins
    have final := reaction.settled since (opens.settled settled)
    exact { final with armed := fun asked apart => ⟨(final.armed asked apart).1, id⟩ }

end Settled

section Attempts

variable {limit pause heard polled finished : Nat} {permitted : Round → Prop} {answers : Prop}
  {client middle next : Client} {event : Event} {watch : Watch}

/-- The next poll will not be missed: what waits for its acknowledgement has been written
since the last poll. -/
def Awake (polled finished : Nat) (client : Client) : Prop :=
  client.tcp.pcbBusy = true →
    ∃ time, polled ≤ time ∧ time ≤ finished ∧ client.tcp.pcbSentAt = millis time

/-- The TCP client knows when the server was heard. As long as it limits the silence, the
silence is within its limit. -/
structure Guarded (limit pause heard polled finished : Nat) (client : Client) : Prop where
  stamp : client.sender.connected = true → client.tcp.rxLastPacket = millis heard
  within : client.sender.connected = true → client.tcp.rxSinceTimeout ≠ 0 →
    Within (limit * 1000) pause heard polled (Awake polled finished client)

/-- A client that is awake stays so until a later time. -/
theorem Awake.later {later : Nat} (awake : Awake polled finished client) (soon : finished ≤ later) :
    Awake polled later client := by
  intro busy
  obtain ⟨time, after, before, sent⟩ := awake busy
  exact ⟨time, after, before.trans soon, sent⟩

/-- Bytes are written since the last poll. -/
theorem write_awake (head : OutPacket) (round : Round)
    (more : client.sender.sent < head.data.length) (since : polled ≤ round.now)
    (before : round.now ≤ finished) (awake : Awake polled finished client) :
    Awake polled finished (client.write head round) := by
  rw [write_spec head round more]
  unfold Awake AsyncClient.write
  cases output : round.output with
  | true => exact fun _ => ⟨round.now, since, before, rfl⟩
  | false => exact awake

/-- A small step keeps the guard. -/
theorem Small.guarded (small : Small permitted answers client next)
    (window : ∀ round, permitted round → polled ≤ round.now ∧ round.now ≤ finished)
    (guarded : Guarded limit pause heard polled finished client) :
    Guarded limit pause heard polled finished next := by
  obtain ⟨stamp, within⟩ := guarded
  cases small with
  | write head rest round packets more room connected met =>
    have spec := write_spec head round more
    refine ⟨fun _ => ?_, fun _ limited => ?_⟩
    · rw [spec]
      simpa using stamp connected
    · have old : client.tcp.rxSinceTimeout ≠ 0 := by
        rw [spec] at limited
        simpa using limited
      exact (within connected old).keep (Nat.le_refl _)
        (write_awake head round more (window round met).1 (window round met).2)
  | queue sender requeued =>
    exact ⟨fun open' => stamp (requeued.connected ▸ open'),
      fun open' => within (requeued.connected ▸ open')⟩
  | begins answer => exact ⟨stamp, fun _ limited => absurd rfl limited⟩
  | session session kept => exact ⟨stamp, within⟩
  | answered => exact ⟨stamp, within⟩
  | close connected => exact ⟨Bool.noConfusion, Bool.noConfusion⟩
  | apart connected => exact ⟨stamp, within⟩

/-- So does a reaction. Induction on its steps. -/
theorem Reaction.guarded (reaction : Reaction permitted answers client next)
    (window : ∀ round, permitted round → polled ≤ round.now ∧ round.now ≤ finished)
    (guarded : Guarded limit pause heard polled finished client) :
    Guarded limit pause heard polled finished next := by
  induction reaction with
  | refl => exact guarded
  | tail _ small ih => exact small.guarded window ih

/-- What holds between two events. -/
structure Attended (limit pause : Nat) (client : Client) (watch : Watch) : Prop where
  polled : watch.polled ≤ watch.now
  heard : watch.heard ≤ watch.now
  recent : client.sender.connected = true → watch.now ≤ watch.polled + pause
  guarded : Guarded limit pause watch.heard watch.polled watch.now client

/-- A missed poll was preceded by one that was not. -/
theorem not_awake (ordered : watch.now ≤ event.now)
    (soon : event.now ≤ watch.polled + pause) (short : pause < ASYNC_MAX_ACK_TIME)
    (late : client.AckTimesOut event.now) : ¬ Awake watch.polled watch.now client := by
  intro awake
  obtain ⟨busy, elapsed⟩ := late
  obtain ⟨time, after, before, sent⟩ := awake busy
  have bound : (millis event.now - client.tcp.pcbSentAt).toNat ≤ event.now - time := by
    rw [sent]
    exact elapsed_le time event.now (by omega)
  omega

/-- A poll that reaches the MQTT client finds the silence within its limit. -/
theorem polled_within (settled : Settled limit False (watch.begun = true) client)
    (attended : Attended limit pause client watch) (ordered : watch.now ≤ event.now)
    (soon : event.now ≤ watch.polled + pause) (narrow : limit * 1000 + 2 * pause < 2 ^ 32)
    (polled : client.Polled event.now) (limited : client.tcp.rxSinceTimeout ≠ 0)
    (sharp : Prop) : Within (limit * 1000) pause watch.heard event.now sharp := by
  have bound := (attended.guarded.within polled.connected limited).bound soon
  have since := attended.heard
  have spent : (millis event.now - client.tcp.rxLastPacket).toNat = event.now - watch.heard := by
    rw [attended.guarded.stamp polled.connected]
    exact PolledLine.elapsed_eq watch.heard event.now (by omega) (by omega)
  have inside : ¬ client.tcp.rxSinceTimeout * 1000 ≤
      (millis event.now - client.tcp.rxLastPacket).toNat :=
    fun elapsed => polled.heard ⟨limited, elapsed⟩
  rw [settled.timeout.resolve_left limited, spent] at inside
  exact .inl (by omega)

variable (next) in
/-- The beginning of an event keeps the watchdog on its guard. -/
theorem Opens.guarded (opens : Opens event client middle) (timed : event.now ≤ event.finished)
    (settled : Settled limit False (watch.begun = true) client)
    (attended : Attended limit pause client watch) (ordered : watch.now ≤ event.now)
    (soon : client.sender.connected = true → event.now ≤ watch.polled + pause)
    (positive : 0 < limit) (narrow : limit * 1000 + 2 * pause < 2 ^ 32)
    (short : pause < ASYNC_MAX_ACK_TIME) :
    Guarded limit pause (watch.note client event next).heard
      (watch.note client event next).polled event.finished middle := by
  have later := ordered.trans timed
  have heard := attended.heard.trans ordered
  obtain ⟨stamp, within⟩ := attended.guarded
  have still (open' : client.sender.connected = true) (limited : client.tcp.rxSinceTimeout ≠ 0) :=
    (within open' limited).keep (Nat.le_refl _) fun awake => awake.later later
  cases opens with
  | connect kind =>
    simp only [Watch.note, kind]
    unfold Client.connect
    by_cases busy : client.session.state ≠ .DISCONNECTED
    · rw [if_pos busy]
      exact ⟨stamp, still⟩
    · rw [if_neg busy]
      exact ⟨stamp, fun open' => absurd (settled.alive open') busy⟩
  | connected request first second kind asked apart =>
    simp only [Watch.note, kind]
    exact ⟨fun _ => rfl, fun _ _ => .inl (by omega)⟩
  | data reading kind connected =>
    simp only [Watch.note, kind]
    exact ⟨fun _ => rfl, fun open' limited => (still open' limited).keep heard id⟩
  | sent len rounds kind connected =>
    simp only [Watch.note, kind]
    refine ⟨fun _ => rfl, fun open' limited => (still open' limited).keep heard ?_⟩
    intro awake busy
    refine awake ?_
    unfold Client.acknowledged at busy
    dsimp only at busy
    split at busy
    · cases busy
    · exact busy
  | missed asked first second kind connected late =>
    simp only [Watch.note, kind]
    refine ⟨stamp, fun open' limited => ?_⟩
    have asleep := not_awake ordered (soon open') short late
    exact (within open' limited).miss asleep (soon open') Bool.noConfusion
  | closed asked first second closing kind connected => exact ⟨Bool.noConfusion, Bool.noConfusion⟩
  | pinged asked first second kind polled due =>
    simp only [Watch.note, kind]
    exact ⟨stamp, fun open' limited =>
      polled_within settled attended ordered (soon open') narrow polled limited _⟩
  | polled asked first second kind polled early =>
    simp only [Watch.note, kind]
    exact ⟨stamp, fun open' limited =>
      polled_within settled attended ordered (soon open') narrow polled limited _⟩
  | send packet rounds kind =>
    simp only [Watch.note, kind]
    exact ⟨stamp, still⟩
  | lost kind => exact ⟨Bool.noConfusion, Bool.noConfusion⟩

section Notes

variable (client next)

/-- A connection counts as polled at the beginning of an event. -/
theorem note_polled (past : watch.polled ≤ event.now) :
    (watch.note client event next).polled ≤ event.now := by
  unfold Watch.note
  dsimp only
  split
  · exact Nat.le_refl _
  · exact Nat.le_refl _
  · exact past

/-- So does the server as heard. -/
theorem note_heard (past : watch.heard ≤ event.now) :
    (watch.note client event next).heard ≤ event.now := by
  unfold Watch.note
  dsimp only
  split
  · exact Nat.le_refl _
  · exact Nat.le_refl _
  · exact Nat.le_refl _
  · exact past

/-- And bytes that are written in it as written. -/
theorem note_wrote (past : watch.wrote ≤ event.now) :
    watch.wrote ≤ (watch.note client event next).wrote ∧
      (watch.note client event next).wrote ≤ event.now := by
  simp only [Watch.note]
  split
  · exact ⟨Nat.le_refl _, past⟩
  · exact ⟨past, Nat.le_refl _⟩

end Notes

/-- What holds between two events of a connection that is polled densely. -/
theorem reaches_attended (positive : 0 < limit) (narrow : limit * 1000 + 2 * pause < 2 ^ 32)
    (short : pause < ASYNC_MAX_ACK_TIME)
    (reached : Reaches watched (Dense pause) (.construct limit) .clean client watch) :
    Attended limit pause client watch := by
  refine reached.invariant (fun client watch => Attended limit pause client watch) ?_ ?_
  · exact ⟨Nat.le_refl _, Nat.le_refl _, Bool.noConfusion, Bool.noConfusion, Bool.noConfusion⟩
  · intro client next watch event before attended stepped promised
    have settled := reaches_settled before
    obtain ⟨middle, opens, reaction⟩ := step_opens event promised.rounds stepped
    have polled := note_polled client next (attended.polled.trans promised.ordered)
    have heard := note_heard client next (attended.heard.trans promised.ordered)
    have opened := opens.guarded next promised.lasting settled attended promised.ordered
      promised.soon positive narrow short
    have window (round : Round) (met : event.Meets round) :
        (watch.note client event next).polled ≤ round.now ∧ round.now ≤ event.finished :=
      ⟨polled.trans met.1, met.2⟩
    exact ⟨polled.trans promised.lasting, heard.trans promised.lasting, promised.ended,
      reaction.guarded window opened⟩

/-- A server that is asked for a connection and says nothing is dropped: in every run of a
client whose connections are polled, as long as the answer to the connection request has not
begun, something was heard from the server, or the connection was made, within the keep-alive
time and two pauses between polls. -/
theorem attempts_end (limit pause : Nat) (client : Client) (watch : Watch) (positive : 0 < limit)
    (narrow : limit * 1000 + 2 * pause < 2 ^ 32) (short : pause < ASYNC_MAX_ACK_TIME)
    (reached : Reaches watched (Dense pause) (.construct limit) .clean client watch)
    (connected : client.sender.connected = true) (unanswered : watch.begun = false) :
    watch.now < watch.heard + limit * 1000 + 2 * pause := by
  have settled := reaches_settled reached
  obtain ⟨_, _, recent, guarded⟩ := reaches_attended positive narrow short reached
  have armed : client.tcp.rxSinceTimeout = limit :=
    settled.waiting connected (by simp [unanswered])
  exact (guarded.within connected (by omega)).bound (recent connected)

/-- A connection whose request finds no room, so that the server has nothing to answer. -/
theorem attempts_end_silent :
    let request := ConnectOutPacket true none none 15 ⟨[0x61], by decide⟩
    let client := (Client.construct 15).connect.opening 10 request
    let watch : Watch := ⟨510, 510, 10, false, 0, 0⟩
    Reaches watched (Dense 600) (.construct 15) .clean client watch ∧
      watch.now < watch.heard + 15 * 1000 + 2 * 600 := by
  intro request client watch
  have asked : Reaches watched (Dense 600) (.construct 15) .clean (Client.construct 15).connect
      ⟨0, 0, 0, false, 0, 0⟩ :=
    .step (Client.construct 15) _ Watch.clean (Event.mk 0 0 .connect) .start rfl
      ⟨⟨by decide, by decide, by simp [Event.rounds], trivial⟩, by decide, by decide, by decide⟩
  have made : Reaches watched (Dense 600) (.construct 15) .clean client
      ⟨10, 10, 10, false, 0, 0⟩ :=
    .step (Client.construct 15).connect client (Watch.mk 0 0 0 false 0 0)
      (Event.mk 10 10 (.connected request [] [])) asked rfl
      ⟨⟨by decide, by decide, by simp [Event.rounds], trivial⟩, by decide, by decide, by decide⟩
  have polled : Reaches watched (Dense 600) (.construct 15) .clean client watch :=
    .step client client (Watch.mk 10 10 10 false 0 0) (Event.mk 510 510 (.poll 510 [] [])) made
      (by decide +kernel)
      ⟨⟨by decide, by decide, by simp [Event.rounds], by simp [Event.Asks]⟩, by decide, by decide,
        by decide⟩
  exact ⟨polled,
    attempts_end 15 600 client watch (by decide) (by decide) (by decide) polled rfl rfl⟩

end Attempts

section Pings

variable {limit wrote finished : Nat} {wire : Bytes} {permitted : Round → Prop} {answers : Prop}
  {client middle next : Client} {event : Event} {watch : Watch}

/-- While a ping has been asked for, nothing has been written since. -/
def Asking (wrote finished : Nat) (wire : Bytes) (client : Client) : Prop :=
  client.lastPingRequestTime ≠ 0 → client.sender.wire = wire ∧
    ∃ asked, wrote ≤ asked ∧ asked ≤ finished ∧ client.lastPingRequestTime = millis asked

/-- A small step clears the stamp of the ping or leaves it. -/
theorem Small.asking (small : Small permitted answers client next)
    (asking : Asking wrote finished wire client) : Asking wrote finished wire next := by
  cases small with
  | write head rest round packets more room connected met =>
    intro asked
    rw [write_spec head round more] at asked
    exact absurd rfl asked
  | queue sender requeued =>
    intro asked
    obtain ⟨same, since⟩ := asking asked
    exact ⟨requeued.wire.trans same, since⟩
  | begins answer => exact asking
  | session session kept => exact asking
  | answered => exact fun asked => absurd rfl asked
  | close connected => exact fun asked => absurd rfl asked
  | apart connected => exact asking

/-- So does a reaction. Induction on its steps. -/
theorem Reaction.asking (reaction : Reaction permitted answers client next)
    (asking : Asking wrote finished wire client) : Asking wrote finished wire next := by
  induction reaction with
  | refl => exact asking
  | tail _ small ih => exact small.asking ih

/-- The beginning of an event writes nothing. -/
theorem Opens.unwritten (opens : Opens event client middle) :
    middle.lastClientActivity = client.lastClientActivity ∧
      middle.sender.wire = event.written client := by
  unfold Event.written
  cases opens with
  | connect kind =>
    rw [kind, Client.connect]
    by_cases busy : client.session.state ≠ .DISCONNECTED
    · rw [if_pos busy]
      exact ⟨rfl, rfl⟩
    · rw [if_neg busy]
      exact ⟨rfl, rfl⟩
  | connected request first second kind asked apart => exact ⟨rfl, by rw [kind]; rfl⟩
  | data reading kind connected => exact ⟨rfl, by rw [kind]; rfl⟩
  | sent len rounds kind connected => exact ⟨rfl, by rw [kind]; rfl⟩
  | missed asked first second kind connected late => exact ⟨rfl, by rw [kind]; rfl⟩
  | closed asked first second closing kind connected => exact ⟨rfl, by rw [kind]; rfl⟩
  | pinged asked first second kind polled due => exact ⟨rfl, by rw [kind]⟩
  | polled asked first second kind polled early => exact ⟨rfl, by rw [kind]⟩
  | send packet rounds kind => exact ⟨rfl, by rw [kind]⟩
  | lost kind => exact ⟨rfl, by rw [kind]; rfl⟩

/-- The beginning of an event, which may ask. -/
theorem Opens.asking (opens : Opens event client middle) (asks : event.Asks)
    (lasting : event.now ≤ event.finished) (past : wrote ≤ event.now)
    (asking : Asking wrote event.now client.sender.wire client) :
    Asking wrote event.finished (event.written client) middle := by
  intro waiting
  have still (old : client.lastPingRequestTime ≠ 0) : ∃ asked, wrote ≤ asked ∧
      asked ≤ event.finished ∧ client.lastPingRequestTime = millis asked := by
    obtain ⟨_, time, since, before, stamp⟩ := asking old
    exact ⟨time, since, before.trans lasting, stamp⟩
  refine ⟨opens.unwritten.2, ?_⟩
  cases opens with
  | connect kind =>
    have kept : client.connect.lastPingRequestTime = client.lastPingRequestTime := by
      unfold Client.connect
      split
      · rfl
      · rfl
    rw [kept] at waiting ⊢
    exact still waiting
  | connected request first second kind asked apart => exact still waiting
  | data reading kind connected => exact still waiting
  | sent len rounds kind connected => exact still waiting
  | missed asked first second kind connected late => exact still waiting
  | closed asked first second closing kind connected => exact absurd rfl waiting
  | pinged asked first second kind polled due =>
    rw [Event.Asks, kind] at asks
    exact ⟨asked, past.trans asks.1, asks.2, rfl⟩
  | polled asked first second kind polled early => exact still waiting
  | send packet rounds kind => exact still waiting
  | lost kind => exact absurd rfl waiting

/-- While a ping has been asked for between two events, nothing has been written since. -/
theorem reaches_asking (reached : Reaches watched InOrder (.construct limit) .clean client watch) :
    watch.wrote ≤ watch.now ∧ Asking watch.wrote watch.now client.sender.wire client := by
  refine reached.invariant (fun client watch =>
    watch.wrote ≤ watch.now ∧ Asking watch.wrote watch.now client.sender.wire client) ?_ ?_
  · exact ⟨Nat.le_refl _, fun asked => absurd rfl asked⟩
  · intro client next watch event _ ⟨past, asking⟩ stepped promised
    have ordered := promised.ordered
    have lasting := promised.lasting
    obtain ⟨middle, opens, reaction⟩ := step_opens event promised.rounds stepped
    have since : Asking watch.wrote event.now client.sender.wire client := by
      intro asked
      obtain ⟨same, time, after, before, stamp⟩ := asking asked
      exact ⟨same, time, after, before.trans ordered, stamp⟩
    have final := reaction.asking
      (opens.asking promised.asks lasting (past.trans ordered) since)
    refine ⟨?_, fun asked => ⟨rfl, ?_⟩⟩
    · exact (note_wrote client next (past.trans ordered)).2.trans lasting
    · obtain ⟨same, time, after, before, stamp⟩ := final asked
      have kept : (watch.note client event next).wrote = watch.wrote := if_pos same
      exact ⟨time, kept.trans_le after, before, stamp⟩

/-- The time for the answer to a ping runs only while nothing can be written: in every run of
a client, when a poll finds that the client has waited too long for the answer, nothing has
been written for twice the keep-alive time. Whether the server is silent does not matter. -/
theorem ping_timer_measures_writing (limit now : Nat) (client : Client) (watch : Watch)
    (reached : Reaches watched InOrder (.construct limit) .clean client watch)
    (later : watch.now ≤ now) (late : client.PingTimesOut now) :
    watch.wrote + limit * 2000 ≤ now := by
  have settled := reaches_settled reached
  obtain ⟨_, asking⟩ := reaches_asking reached
  obtain ⟨asked, elapsed⟩ := late
  obtain ⟨_, time, since, before, stamp⟩ := asking asked
  have bound : (millis now - client.lastPingRequestTime).toNat ≤ now - time := by
    rw [stamp]
    exact elapsed_le time now (by omega)
  rw [settled.keepAlive] at elapsed
  omega

/-- The request of a client that is called a. -/
def plainRequest : OutPacket := ConnectOutPacket true none none 15 ⟨[0x61], by decide⟩

/-- A client that has been let in. -/
def letIn : Client where
  tcp := ⟨false, millis 10, 0, 0, millis 20, 0⟩
  sender := ⟨[], 0, true, false, plainRequest.data, [plainRequest]⟩
  session := ⟨.CONNECTED, []⟩
  keepAlive := 15
  lastClientActivity := millis 10
  lastServerActivity := millis 20
  lastPingRequestTime := 0

/-- It is reached without a poll, by short events that find room. -/
theorem letIn_reached {allowed : Environment Client Event Watch}
    (promised : ∀ watch client event next, Dense 600 watch client event next →
      (∀ round ∈ event.rounds, round.answer.accepted = true) → event.finished ≤ 20 →
      (∀ asked first second, event.kind ≠ .poll asked first second) →
      allowed watch client event next) :
    Reaches watched allowed (.construct 15) .clean letIn ⟨20, 10, 20, true, 10, 20⟩ := by
  let asked : Event := ⟨0, 0, .connect⟩
  let made : Event := ⟨10, 10, .connected plainRequest [⟨⟨100, true⟩, true, 10⟩] []⟩
  let taken : Event := ⟨15, 15, .sent 15 []⟩
  let answered : Event := ⟨20, 20, .data [.connAckPacket, .call (.onConnAck true 0) []]⟩
  let waiting : Client :=
    { letIn with
      tcp := ⟨true, millis 10, 15, 0, millis 10, 15⟩
      session := ⟨.CONNECTING, []⟩
      lastServerActivity := 0 }
  have first : Reaches watched allowed (.construct 15) .clean (Client.construct 15).connect
      ⟨0, 0, 0, false, 0, 0⟩ :=
    .step (Client.construct 15) _ Watch.clean asked .start rfl (promised _ _ _ _
      ⟨⟨by decide, by decide, by simp [asked, Event.rounds], trivial⟩, by decide, by decide,
        by decide⟩
      (by simp [asked, Event.rounds]) (by decide) (by simp [asked]))
  have second : Reaches watched allowed (.construct 15) .clean waiting
      ⟨10, 10, 10, false, 10, 0⟩ :=
    .step (Client.construct 15).connect waiting (Watch.mk 0 0 0 false 0 0) made first
      (by decide +kernel) (promised _ _ _ _
        ⟨⟨by decide, by decide, by simp [made, Event.rounds, Event.Meets], trivial⟩, by decide,
          by decide, by decide⟩
        (by simp [made, Event.rounds]) (by decide) (by simp [made]))
  have third : Reaches watched allowed (.construct 15) .clean (waiting.acknowledged 15 15)
      ⟨15, 10, 15, false, 10, 0⟩ :=
    .step waiting _ (Watch.mk 10 10 10 false 10 0) taken second (by decide +kernel)
      (promised _ _ _ _
        ⟨⟨by decide, by decide, by simp [taken, Event.rounds], trivial⟩, by decide, by decide,
          by decide⟩
        (by simp [taken, Event.rounds]) (by decide) (by simp [taken]))
  exact .step (waiting.acknowledged 15 15) letIn (Watch.mk 15 10 15 false 10 0) answered third
    (by decide +kernel) (promised _ _ _ _
      ⟨⟨by decide, by decide, by simp [answered, Event.rounds, Turn.rounds], trivial⟩, by decide,
        by decide, by decide⟩
      (by simp [answered, Event.rounds, Turn.rounds]) (by decide) (by simp [answered]))

/-- A poll that finds no room, and the time at which the client gives up. -/
theorem ping_timer_measures_writing_full :
    let poll : Event := ⟨10600, 10600, .poll 10600 [] []⟩
    ∃ client watch, Reaches watched InOrder (.construct 15) .clean client watch ∧
      letIn.step poll = some client ∧ watch.wrote = 10 ∧ client.PingTimesOut 40600 ∧
      watch.wrote + 15 * 2000 ≤ 40600 := by
  intro poll
  let client : Client :=
    { letIn with
      sender := letIn.sender.addBack PingReqOutPacket
      lastPingRequestTime := millis 10600 }
  have asked : letIn.step poll = some client := by decide +kernel
  have reached : Reaches watched InOrder (.construct 15) .clean client
      ⟨10600, 10600, 20, true, 10, 20⟩ :=
    .step letIn client (Watch.mk 20 10 20 true 10 20) poll
      (letIn_reached fun _ _ _ _ promised _ _ _ => promised.toInOrder) asked
      ⟨by decide, by decide, by simp [poll, Event.rounds], by simp [poll, Event.Asks]⟩
  have late : client.PingTimesOut 40600 := by decide +kernel
  exact ⟨client, _, reached, asked, rfl, late,
    ping_timer_measures_writing 15 40600 client ⟨10600, 10600, 20, true, 10, 20⟩ reached
      (by decide) late⟩

end Pings

end WhirlpoolAc.MqttTimers
