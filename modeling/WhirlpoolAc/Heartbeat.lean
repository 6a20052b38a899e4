import WhirlpoolAc.SilentServer

/-!
# A client that keeps its word

The request for a connection promises the server to send something within the keep-alive
time. Where polls find room, the client keeps that: bytes are written within seven tenths of
the keep-alive time and three pauses between polls, counted from its admission or from the
beginning of the last event in which bytes were written.

The stamp of the last bytes shows a true time that the observer knows up to the length of a
callback. It may be read only as long as it has not become older than the counter counts, so
the answer to the connection request has to come within half of that.
-/

namespace WhirlpoolAc.MqttTimers

open ByteStrings Relation WatchedRuns WrappingClock HumiditySensor MqttReceiver MqttPackets
  MqttQueue

/-- Polls come densely and find room, the stack takes what is written, and the server does
not take weeks to answer a connection request. -/
structure Steady (pause : Nat) (watch : Watch) (client : Client) (event : Event) (next : Client) :
    Prop extends Dense pause watch client event next, Flowing watch client event next where
  accepted : ∀ round ∈ event.rounds, round.answer.accepted = true
  prompt : client.session.state ≠ .CONNECTED → next.session.state = .CONNECTED →
    event.finished ≤ watch.wrote + 2 ^ 31

section Steps

variable {limit pause wrote opened finished polled : Nat} {wire : Bytes}
  {permitted : Round → Prop} {answers : Prop} {client middle next : Client} {event : Event}
  {watch : Watch}

/-- The stamp of the last bytes is an old one, or bytes have been written since. -/
def Stamped (wrote pause opened finished : Nat) (wire : Bytes) (client : Client) : Prop :=
  ∃ time, client.lastClientActivity = millis time ∧
    (client.sender.wire = wire ∧ wrote ≤ time ∧ time ≤ wrote + pause ∨
      wire.length < client.sender.wire.length ∧ opened ≤ time ∧ time ≤ finished)

/-- Bytes that the stack takes lengthen the wire. -/
theorem write_longer (head : OutPacket) (round : Round)
    (more : client.sender.sent < head.data.length) (room : 10 < round.answer.space)
    (accepted : round.answer.accepted = true) :
    client.sender.wire.length < (client.write head round).sender.wire.length := by
  rw [write_spec head round more]
  simp only [Sender.write, more, if_true, accepted, List.length_append, List.length_take,
    List.length_drop]
  omega

/-- A small step keeps the stamp. -/
theorem Small.stamped (small : Small permitted answers client next)
    (window : ∀ round, permitted round →
      opened ≤ round.now ∧ round.now ≤ finished ∧ round.answer.accepted = true)
    (stamped : Stamped wrote pause opened finished wire client) :
    Stamped wrote pause opened finished wire next := by
  cases small with
  | write head rest round packets more room connected met =>
    obtain ⟨after, before, accepted⟩ := window round met
    have longer := write_longer head round more room accepted
    have activity : (client.write head round).lastClientActivity = millis round.now := by
      rw [write_spec head round more]
    obtain ⟨_, _, ⟨same, _⟩ | ⟨grown, _⟩⟩ := stamped
    · exact ⟨round.now, activity, .inr ⟨same ▸ longer, after, before⟩⟩
    · exact ⟨round.now, activity, .inr ⟨grown.trans longer, after, before⟩⟩
  | queue sender requeued =>
    obtain ⟨time, stamp, old⟩ := stamped
    have kept : (client.withSender sender).sender.wire = client.sender.wire := requeued.wire
    rw [← kept] at old
    exact ⟨time, stamp, old⟩
  | begins answer => exact stamped
  | session session kept => exact stamped
  | answered => exact stamped
  | close connected => exact stamped
  | apart connected => exact stamped

/-- So does a reaction. Induction on its steps. -/
theorem Reaction.stamped (reaction : Reaction permitted answers client next)
    (window : ∀ round, permitted round →
      opened ≤ round.now ∧ round.now ≤ finished ∧ round.answer.accepted = true)
    (stamped : Stamped wrote pause opened finished wire client) :
    Stamped wrote pause opened finished wire next := by
  induction reaction with
  | refl => exact stamped
  | tail _ small ih => exact small.stamped window ih

/-- A reaction does not let the next poll be missed. -/
theorem Reaction.awake (reaction : Reaction permitted answers client next)
    (window : ∀ round, permitted round → polled ≤ round.now ∧ round.now ≤ finished)
    (awake : Awake polled finished client) : Awake polled finished next := by
  induction reaction with
  | refl => exact awake
  | tail _ small ih =>
    cases small with
    | write head rest round packets more room connected met =>
      obtain ⟨after, before⟩ := window round met
      exact write_awake head round more after before ih
    | queue sender requeued => exact ih
    | begins answer => exact ih
    | session session kept => exact ih
    | answered => exact ih
    | close connected => exact ih
    | apart connected => exact ih

/-- A reaction does not make a connection. -/
theorem Reaction.connected (reaction : Reaction permitted answers client next)
    (connected : next.sender.connected = true) : client.sender.connected = true := by
  induction reaction with
  | refl => exact connected
  | tail _ small ih =>
    cases small with
    | write head rest round packets more room open' met => exact ih open'
    | queue sender requeued => exact ih (requeued.connected ▸ connected)
    | begins answer => exact ih connected
    | session session kept => exact ih connected
    | answered => exact ih connected
    | close open' => exact ih open'
    | apart open' => exact ih connected

/-- The time from which the client's silence counts. -/
def Watch.since (watch : Watch) : Nat := max watch.wrote watch.admitted

variable (client next) in
/-- An admission counts from the end of its event. -/
theorem note_admitted (past : watch.admitted ≤ event.finished) :
    watch.admitted ≤ (watch.note client event next).admitted ∧
      (watch.note client event next).admitted ≤ event.finished := by
  simp only [Watch.note]
  split
  · exact ⟨past, Nat.le_refl _⟩
  · exact ⟨Nat.le_refl _, past⟩

variable (client next) in
/-- The silence may begin again in an event, and not later. -/
theorem note_since (past : watch.since ≤ event.now) (lasting : event.now ≤ event.finished) :
    watch.since ≤ (watch.note client event next).since ∧
      (watch.note client event next).since ≤ event.finished := by
  obtain ⟨written, admitted⟩ := Nat.max_le.mp past
  obtain ⟨grown, began⟩ := note_wrote client next written
  obtain ⟨later, ended⟩ := note_admitted client next (admitted.trans lasting)
  exact ⟨max_le_max grown later, Nat.max_le.mpr ⟨began.trans lasting, ended⟩⟩

/-- What holds between two events. The stamp of the last bytes is known up to a pause, and
while the client is connected its silence is within the limit. -/
structure Beating (limit pause : Nat) (client : Client) (watch : Watch) : Prop where
  past : watch.since ≤ watch.now
  stamp : ∃ time, client.lastClientActivity = millis time ∧ watch.wrote ≤ time ∧
    time ≤ watch.wrote + pause
  prompt : client.session.state = .CONNECTED → watch.admitted ≤ watch.wrote + 2 ^ 31
  within : client.sender.connected = true → client.session.state = .CONNECTED →
    Within (limit * 700 + pause) pause watch.since watch.polled
      (Awake watch.polled watch.now client)

variable (next) in
/-- Nor does the beginning of an event that is no poll. -/
theorem Opens.awake (opens : Opens event client middle) (lasting : event.now ≤ event.finished)
    (ordered : watch.now ≤ event.now) (awake : Awake watch.polled watch.now client)
    (other : ∀ asked first second, event.kind ≠ .poll asked first second) :
    Awake (watch.note client event next).polled event.finished middle := by
  have later : Awake watch.polled event.finished client := awake.later (ordered.trans lasting)
  unfold Watch.note
  dsimp only
  cases opens with
  | connect kind =>
    rw [kind, Client.connect]
    by_cases busy : client.session.state ≠ .DISCONNECTED
    · rw [if_pos busy]
      exact later
    · rw [if_neg busy]
      exact later
  | connected request first second kind asked apart => exact fun busy => Bool.noConfusion busy
  | data reading kind connected =>
    rw [kind]
    exact later
  | sent len rounds kind connected =>
    rw [kind]
    intro busy
    refine later ?_
    unfold Client.acknowledged at busy
    dsimp only at busy
    split at busy
    · cases busy
    · exact busy
  | missed asked first second kind connected late => exact absurd kind (other asked first second)
  | closed asked first second closing kind connected =>
    exact absurd kind (other asked first second)
  | pinged asked first second kind polled due => exact absurd kind (other asked first second)
  | polled asked first second kind polled early => exact absurd kind (other asked first second)
  | send packet rounds kind =>
    rw [kind]
    exact later
  | lost kind =>
    rw [kind]
    exact later

/-- The stamp of the last bytes behind an event. -/
theorem stamp_after (opens : Opens event client middle)
    (reaction : Reaction (fun round => event.Meets round ∧ round.answer.accepted = true) answers
      middle next) (short : event.finished ≤ event.now + pause)
    (stamp : ∃ time, client.lastClientActivity = millis time ∧ watch.wrote ≤ time ∧
      time ≤ watch.wrote + pause) :
    ∃ time, next.lastClientActivity = millis time ∧
      (watch.note client event next).wrote ≤ time ∧
      time ≤ (watch.note client event next).wrote + pause := by
  obtain ⟨time, stamp, after, before⟩ := stamp
  obtain ⟨activity, wire⟩ := opens.unwritten
  have begun : Stamped watch.wrote pause event.now event.finished (event.written client) middle :=
    ⟨time, activity.trans stamp, .inl ⟨wire, after, before⟩⟩
  obtain ⟨time, stamp, ⟨same, after, before⟩ | ⟨longer, after, before⟩⟩ :=
    reaction.stamped (fun round met => ⟨met.1.1, met.1.2, met.2⟩) begun
  · refine ⟨time, stamp, ?_⟩
    simp only [Watch.note, if_pos same]
    exact ⟨after, before⟩
  · have other : next.sender.wire ≠ event.written client := by
      intro same
      rw [same] at longer
      exact absurd longer (Nat.lt_irrefl _)
    refine ⟨time, stamp, ?_⟩
    simp only [Watch.note, if_neg other]
    exact ⟨after, before.trans short⟩

/-- A poll that finds the last bytes recent. The stamp is not older than the counter counts. -/
theorem recent_within (narrow : limit * 700 + 3 * pause < 2 ^ 31)
    (beating : Beating limit pause client watch)
    (soon : event.now ≤ watch.polled + pause) (keepAlive : client.keepAlive = limit)
    (connected : client.sender.connected = true) (up : client.session.state = .CONNECTED)
    (recent : ¬ client.Quiet event.now client.lastClientActivity) :
    event.now < watch.wrote + (limit * 700 + pause) := by
  obtain ⟨past, ⟨time, stamp, after, before⟩, prompt, within⟩ := beating
  have bound := (within connected up).bound soon
  have admitted := prompt up
  have since : watch.since ≤ watch.wrote + 2 ^ 31 := by
    unfold Watch.since
    omega
  have begun : watch.wrote ≤ watch.since := Nat.le_max_left _ _
  rw [Client.Quiet, keepAlive, stamp] at recent
  by_cases early : event.now < time
  · omega
  · have spent : (millis event.now - millis time).toNat = event.now - time :=
      PolledLine.elapsed_eq time event.now (by omega) (by omega)
    omega

/-- Between two polls the next one is not missed if it would not have been. -/
theorem Beating.between (beating : Beating limit pause client watch)
    (connected : client.sender.connected = true) (up : client.session.state = .CONNECTED)
    (polled : watch.polled ≤ watch.now) (promised : Steady pause watch client event next)
    (opens : Opens event client middle)
    (reaction : Reaction (fun round => event.Meets round ∧ round.answer.accepted = true) answers
      middle next)
    (other : ∀ asked first second, event.kind ≠ .poll asked first second)
    (same : (watch.note client event next).polled = watch.polled) :
    Within (limit * 700 + pause) pause (watch.note client event next).since
      (watch.note client event next).polled
      (Awake (watch.note client event next).polled event.finished next) := by
  have ordered := promised.ordered
  have before : (watch.note client event next).polled ≤ event.now :=
    same.trans_le (polled.trans ordered)
  have since := (note_since client next (beating.past.trans ordered) promised.lasting).1
  have still := (beating.within connected up).keep since fun awake =>
    reaction.awake (fun _ inside => ⟨before.trans inside.1.1, inside.1.2⟩)
      (opens.awake next promised.lasting ordered awake other)
  rw [same] at still ⊢
  exact still

/-- A ping is written, so that the silence begins again. -/
theorem ping_noted (asked : Nat) (first second : List Round)
    (kind : event.kind = .poll asked first second) (seated : Seated client.sender)
    (reached : client.Polled event.now) (due : client.PingDue event.now)
    (promised : Steady pause watch client event next) (stepped : client.step event = some next) :
    (watch.note client event next).wrote = event.now := by
  obtain ⟨roomy, _⟩ := promised.roomy asked first second kind due.up
  obtain ⟨sent, result, _, _, _, wire, _⟩ :=
    poll_pings event.now asked first second seated reached due roomy
  have step := (step_poll asked first second kind reached.connected).trans result
  cases stepped.symm.trans step
  have written : event.written client = client.sender.wire := by rw [Event.written, kind]
  have other : next.sender.wire ≠ event.written client := by
    intro same
    have lengths := congrArg List.length (wire.symm.trans (same.trans written))
    simp [PingReqOutPacket] at lengths
  exact if_neg other

/-- Every event of a client that has been admitted keeps its silence within the limit. -/
theorem Beating.established (positive : 0 < limit) (narrow : limit * 700 + 3 * pause < 2 ^ 31)
    (short : pause < ASYNC_MAX_ACK_TIME) (settled : Settled limit False (watch.begun = true) client)
    (free : client.lastPingRequestTime = 0) (polled : watch.polled ≤ watch.now)
    (beating : Beating limit pause client watch) (stepped : client.step event = some next)
    (promised : Steady pause watch client event next) (opens : Opens event client middle)
    (reaction : Reaction (fun round => event.Meets round ∧ round.answer.accepted = true) answers
      middle next)
    (already : client.session.state = .CONNECTED) (connected : middle.sender.connected = true) :
    Within (limit * 700 + pause) pause (watch.note client event next).since
      (watch.note client event next).polled
      (Awake (watch.note client event next).polled event.finished next) := by
  have ordered := promised.ordered
  have since := (note_since client next (beating.past.trans ordered) promised.lasting).1
  have ordinary (before : client.sender.connected = true) :=
    beating.between before already polled promised opens reaction
  cases opens with
  | connect kind =>
    have kept : client.connect = client := by
      rw [Client.connect, if_pos (by simp [already])]
    rw [kept] at connected
    exact ordinary connected (by simp [kind]) (by simp [Watch.note, kind])
  | connected request first second kind asked apart =>
    rw [asked] at already
    cases already
  | data reading kind before =>
    exact ordinary before (by simp [kind]) (by simp [Watch.note, kind])
  | sent len rounds kind before =>
    exact ordinary before (by simp [kind]) (by simp [Watch.note, kind])
  | missed asked first second kind before late =>
    have asleep := not_awake ordered (promised.soon before) short late
    have looked : (watch.note client event next).polled = event.now := by
      simp [Watch.note, kind]
    have alert : Awake event.now event.finished next :=
      reaction.awake (fun _ inside => inside.1) fun busy => Bool.noConfusion busy
    rw [looked]
    exact ((beating.within before already).miss asleep (promised.soon before) alert).keep since id
  | closed asked first second closing kind before => exact Bool.noConfusion connected
  | pinged asked first second kind reached due =>
    have wrote : (watch.note client event next).wrote = event.now :=
      ping_noted asked first second kind settled.seated reached due promised stepped
    have begun : event.now ≤ (watch.note client event next).since :=
      wrote.symm.trans_le (Nat.le_max_left _ _)
    have looked : (watch.note client event next).polled = event.now := by
      simp [Watch.note, kind]
    rw [looked]
    exact .inl (by omega)
  | polled asked first second kind reached early =>
    -- The ping was not due because the last bytes are recent.
    have recent : ¬ client.Quiet event.now client.lastClientActivity := fun quiet =>
      early ⟨fun late => late.1 free, already, free, .inl quiet⟩
    have inside := recent_within narrow beating (promised.soon reached.connected)
      settled.keepAlive reached.connected already recent
    have begun : watch.wrote ≤ watch.since := Nat.le_max_left _ _
    have looked : (watch.note client event next).polled = event.now := by
      simp [Watch.note, kind]
    rw [looked]
    exact .inl (by omega)
  | send packet rounds kind =>
    exact ordinary connected (by simp [kind]) (by simp [Watch.note, kind])
  | lost kind => exact Bool.noConfusion connected

/-- Every event of a steady run keeps the heart beating. -/
theorem Beating.step (positive : 0 < limit) (narrow : limit * 700 + 3 * pause < 2 ^ 31)
    (short : pause < ASYNC_MAX_ACK_TIME) (settled : Settled limit False (watch.begun = true) client)
    (free : client.lastPingRequestTime = 0) (polled : watch.polled ≤ watch.now)
    (beating : Beating limit pause client watch) (stepped : client.step event = some next)
    (promised : Steady pause watch client event next) :
    Beating limit pause next (watch.note client event next) := by
  have lasting := promised.lasting
  have past : watch.since ≤ event.now := beating.past.trans promised.ordered
  have met : ∀ round ∈ event.rounds, event.Meets round ∧ round.answer.accepted = true :=
    fun round member => ⟨promised.rounds round member, promised.accepted round member⟩
  obtain ⟨middle, opens, reaction⟩ := step_opens event met stepped
  have grown := (note_wrote client next (Nat.max_le.mp past).1).1
  refine ⟨(note_since client next past lasting).2,
    stamp_after opens reaction promised.short beating.stamp, fun up => ?_,
    fun connected up => ?_⟩
  · by_cases already : client.session.state = .CONNECTED
    · have same : (watch.note client event next).admitted = watch.admitted :=
        if_neg fun admits => admits.1 already
      rw [same]
      exact (beating.prompt already).trans (Nat.add_le_add_right grown _)
    · have admitted : (watch.note client event next).admitted = event.finished :=
        if_pos ⟨already, up⟩
      rw [admitted]
      exact (promised.prompt already up).trans (Nat.add_le_add_right grown _)
  · by_cases already : client.session.state = .CONNECTED
    · exact beating.established positive narrow short settled free polled stepped promised opens
        reaction already (reaction.connected connected)
    · have admitted : (watch.note client event next).admitted = event.finished :=
        if_pos ⟨already, up⟩
      have begun : event.finished ≤ (watch.note client event next).since :=
        admitted.symm.trans_le (Nat.le_max_right _ _)
      have looked := note_polled client next (polled.trans promised.ordered)
      exact .inl (by omega)

/-- A client keeps its promise to the server: in every steady run, while it is connected,
bytes were written less than seven tenths of the keep-alive time and three pauses ago, counted
from the beginning of the event in which they were, or the client was admitted since. -/
theorem keeps_alive (limit pause : Nat) (client : Client) (watch : Watch) (positive : 0 < limit)
    (narrow : limit * 1000 + 3 * pause < 2 ^ 31) (short : pause < ASYNC_MAX_ACK_TIME)
    (reached : Reaches watched (Steady pause) (.construct limit) .clean client watch)
    (connected : client.sender.connected = true) (up : client.session.state = .CONNECTED) :
    watch.now < max watch.wrote watch.admitted + limit * 700 + 3 * pause := by
  have wide : limit * 1000 + 2 * pause < 2 ^ 32 := by
    have double : 2 ^ 31 < 2 ^ 32 := Nat.pow_lt_pow_right (by decide) (by decide)
    exact Nat.lt_trans (Nat.lt_of_le_of_lt (by omega) narrow) double
  have tight : limit * 700 + 3 * pause < 2 ^ 31 := Nat.lt_of_le_of_lt (by omega) narrow
  have dense : Reaches watched (Dense pause) (.construct limit) .clean client watch :=
    reached.mono fun _ _ _ _ promised => promised.toDense
  have recent := (reaches_attended positive wide short dense).recent connected
  have beating : Beating limit pause client watch := by
    refine reached.invariant (fun client watch => Beating limit pause client watch) ?_ ?_
    · exact ⟨Nat.le_refl _, ⟨0, rfl, Nat.le_refl _, Nat.zero_le _⟩, ConnectionState.noConfusion,
        Bool.noConfusion⟩
    · intro client next watch event before beating stepped promised
      have flowing := reaches_unasked (before.mono fun _ _ _ _ promised => promised.toFlowing)
      have attended := reaches_attended positive wide short
        (before.mono fun _ _ _ _ promised => promised.toDense)
      exact beating.step positive tight short (reaches_settled before) flowing
        attended.polled stepped promised
  have bound := (beating.within connected up).bound recent
  calc watch.now < watch.since + (limit * 700 + pause) + 2 * pause := bound
    _ = max watch.wrote watch.admitted + limit * 700 + 3 * pause := by
      unfold Watch.since
      ring

/-- A poll that finds room in every round. -/
def easyPoll (now : Nat) : Event :=
  ⟨now, now, .poll now (List.replicate 3 ⟨⟨100, true⟩, true, now⟩) []⟩

/-- Such polls of a client with an empty queue go on with a steady run. -/
theorem easyPoll_reached (now : Nat)
    (reached : Reaches watched (Steady 4900) (.construct 15) .clean client watch)
    (up : client.session.state = .CONNECTED) (empty : client.sender.packets = [])
    (ordered : watch.now ≤ now) (soon : now ≤ watch.polled + 4900)
    (stepped : client.step (easyPoll now) = some next) :
    Reaches watched (Steady 4900) (.construct 15) .clean next
      (watch.note client (easyPoll now) next) := by
  have rounds : ∀ round ∈ (easyPoll now).rounds, round = ⟨⟨100, true⟩, true, now⟩ := by
    simp [easyPoll, Event.rounds]
  refine .step client next watch (easyPoll now) reached stepped ?_
  exact {
    ordered
    lasting := Nat.le_refl _
    rounds := fun round member => by
      rw [rounds round member]
      exact ⟨Nat.le_refl _, Nat.le_refl _⟩
    asks := ⟨Nat.le_refl _, Nat.le_refl _⟩
    short := Nat.le_add_right _ _
    soon := fun _ => soon
    ended := fun _ => Nat.le_add_right _ _
    roomy := fun asked first second kind _ => by
      cases kind
      rw [empty]
      have enough : ([PingReqOutPacket].map fun packet => packet.data.length + 1).sum ≤ 3 := by
        decide
      exact ⟨⟨by decide, by simp, enough.trans_eq List.length_replicate.symm⟩,
        ⟨by decide, by simp, by decide⟩⟩
    accepted := fun round member => by rw [rounds round member]
    prompt := fun down => absurd up down }

/-- A client that has been let in and is polled three times, the last time late enough for a
ping. -/
theorem keeps_alive_pinged :
    ∃ client watch, Reaches watched (Steady 4900) (.construct 15) .clean client watch ∧
      client.sender.wire = plainRequest.data ++ [0xC0, 0] ∧ watch.wrote = 10600 ∧
      watch.now < max watch.wrote watch.admitted + 15 * 700 + 3 * 4900 := by
  let pinged : Client :=
    { letIn with
      tcp := ⟨true, millis 10600, 2, 0, millis 20, 0⟩
      sender := ⟨[], 0, true, false, plainRequest.data ++ [0xC0, 0],
        [plainRequest, PingReqOutPacket]⟩
      lastClientActivity := millis 10600 }
  have admitted : Reaches watched (Steady 4900) (.construct 15) .clean letIn
      ⟨20, 10, 20, true, 10, 20⟩ :=
    letIn_reached fun _ _ _ _ promised accepted early other =>
      { promised with
        short := promised.short.trans (Nat.add_le_add_left (by decide) _)
        soon := fun connected =>
          (promised.soon connected).trans (Nat.add_le_add_left (by decide) _)
        ended := fun connected =>
          (promised.ended connected).trans (Nat.add_le_add_left (by decide) _)
        roomy := fun asked first second kind => absurd kind (other asked first second)
        accepted
        prompt := fun _ _ => early.trans (Nat.le_add_left_of_le (by decide)) }
  have first : Reaches watched (Steady 4900) (.construct 15) .clean letIn
      ⟨4900, 4900, 20, true, 10, 20⟩ :=
    easyPoll_reached 4900 admitted rfl rfl (by decide) (by decide) (by decide +kernel)
  have second : Reaches watched (Steady 4900) (.construct 15) .clean letIn
      ⟨9800, 9800, 20, true, 10, 20⟩ :=
    easyPoll_reached 9800 first rfl rfl (by decide) (by decide) (by decide +kernel)
  have third : Reaches watched (Steady 4900) (.construct 15) .clean pinged
      ⟨10600, 10600, 20, true, 10600, 20⟩ :=
    easyPoll_reached 10600 second rfl rfl (by decide) (by decide) (by decide +kernel)
  exact ⟨pinged, _, third, rfl, rfl,
    keeps_alive 15 4900 pinged _ (by decide) (by decide) (by decide) third rfl rfl⟩

end Steps

end WhirlpoolAc.MqttTimers
