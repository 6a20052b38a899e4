import Mathlib.Algebra.Group.Nat.Defs
import WhirlpoolAc.MqttKeepAlive

/-!
# Bytes that are never acknowledged

The TCP client counts the bytes it has put out and not seen acknowledged, and calls the MQTT
client when an acknowledgement brings the count to zero. The count belongs to the object, not
to the connection: bytes that are in flight when a connection ends stay in it for good. From
then on no acknowledgement on a later connection brings it to zero, and the queue moves only
when the client is polled, hears something or is given another packet.
-/

namespace WhirlpoolAc.MqttTimers

open Relation WatchedRuns HumiditySensor MqttReceiver MqttPackets MqttQueue

/-- How many bytes of the connection are settled, because they have been acknowledged or the
connection has ended, and how many were in flight when a connection ended. -/
structure Account where
  settled : Nat
  lost : Nat
deriving DecidableEq

/-- Nothing is settled and nothing is lost yet. -/
def Account.clean : Account := ⟨0, 0⟩

/-- What has been acknowledged on the connection of an event. -/
def Account.ackedIn (account : Account) (event : Event) : Nat :=
  match event.kind with
  | .connected _ _ _ => 0
  | .sent len _ => account.settled + len
  | _ => account.settled

/-- What is noted of an event. Nothing stays in flight without a connection. -/
def Account.note (account : Account) (_client : Client) (event : Event) (next : Client) :
    Account :=
  if next.sender.connected then ⟨account.ackedIn event, account.lost⟩
  else
    ⟨next.sender.wire.length,
      account.lost + (next.sender.wire.length - account.ackedIn event)⟩

/-- The client, with its bytes accounted for. -/
def accounted : Watched Client Event Account := ⟨Client.step, Account.note⟩

/-- The stack puts out what it takes, and acknowledges what has been written. -/
structure Delivering (account : Account) (client : Client) (event : Event) (_next : Client) :
    Prop where
  output : ∀ round ∈ event.rounds, round.output = true
  acked : ∀ len rounds, event.kind = .sent len rounds →
    account.settled + len ≤ client.sender.wire.length

section Steps

variable {permitted : Round → Prop} {answers : Prop} {client middle next : Client}
  {event : Event} {account : Account}

/-- Bytes that have been put out since are counted, and none is left to be put out. -/
structure Counted (client next : Client) : Prop where
  unsent : next.tcp.txUnsentLen = 0
  longer : client.sender.wire.length ≤ next.sender.wire.length
  unacked : next.tcp.txUnackedLen = client.tcp.txUnackedLen +
    BitVec.ofNat 32 (next.sender.wire.length - client.sender.wire.length)

/-- Bytes that are put out are counted as they are written. -/
theorem write_counted (head : OutPacket) (round : Round)
    (more : client.sender.sent < head.data.length) (output : round.output = true)
    (unsent : client.tcp.txUnsentLen = 0) : Counted client (client.write head round) := by
  rw [write_spec head round more]
  cases accepted : round.answer.accepted with
  | true =>
    refine ⟨?_, ?_, ?_⟩
    · simp [AsyncClient.write, output]
    · simp [Sender.write, more, accepted]
    · simp [AsyncClient.write, output, accepted, Sender.write, more, unsent, Nat.min_comm]
  | false =>
    refine ⟨?_, ?_, ?_⟩
    · simp [AsyncClient.write, output]
    · simp [Sender.write, more, accepted]
    · simp [AsyncClient.write, output, accepted, Sender.write, more, unsent]

/-- Counts add up. -/
theorem Counted.trans {last : Client} (first : Counted client next) (second : Counted next last) :
    Counted client last where
  unsent := second.unsent
  longer := first.longer.trans second.longer
  unacked := by
    have before := first.longer
    have after := second.longer
    have total : last.sender.wire.length - client.sender.wire.length =
        (next.sender.wire.length - client.sender.wire.length) +
          (last.sender.wire.length - next.sender.wire.length) := by omega
    rw [second.unacked, first.unacked, total, BitVec.ofNat_add, BitVec.add_assoc]

/-- Nothing is written. -/
theorem Counted.still (unsent : next.tcp.txUnsentLen = 0)
    (wire : next.sender.wire = client.sender.wire)
    (unacked : next.tcp.txUnackedLen = client.tcp.txUnackedLen) : Counted client next where
  unsent := unsent
  longer := by rw [wire]
  unacked := by
    rw [unacked, wire, Nat.sub_self]
    exact (BitVec.add_zero _).symm

/-- A small step keeps the count where the stack puts out what it takes. -/
theorem Small.counted (small : Small permitted answers client next)
    (output : ∀ round, permitted round → round.output = true)
    (unsent : client.tcp.txUnsentLen = 0) : Counted client next := by
  cases small with
  | write head rest round packets more room connected met =>
    exact write_counted head round more (output round met) unsent
  | queue sender requeued => exact .still unsent requeued.wire rfl
  | begins answer => exact .still unsent rfl rfl
  | session session kept => exact .still unsent rfl rfl
  | answered => exact .still unsent rfl rfl
  | close connected => exact .still unsent rfl rfl
  | apart connected => exact .still unsent rfl rfl

/-- A reaction counts what it writes. -/
theorem Reaction.counted (reaction : Reaction permitted answers client next)
    (output : ∀ round, permitted round → round.output = true)
    (unsent : client.tcp.txUnsentLen = 0) : Counted client next := by
  induction reaction with
  | refl => exact .still unsent rfl rfl
  | tail _ small ih => exact ih.trans (small.counted output ih.unsent)

/-- The count is of what is in flight and of what has been lost. -/
structure Balanced (settled lost : Nat) (client : Client) : Prop where
  unsent : client.tcp.txUnsentLen = 0
  within : settled ≤ client.sender.wire.length
  unacked : client.tcp.txUnackedLen =
    BitVec.ofNat 32 (lost + (client.sender.wire.length - settled))

variable {settled lost : Nat}

/-- Counting keeps the balance. -/
theorem Counted.balanced (counted : Counted middle next) (balanced : Balanced settled lost middle) :
    Balanced settled lost next where
  unsent := counted.unsent
  within := balanced.within.trans counted.longer
  unacked := by
    have before := balanced.within
    have after := counted.longer
    have total : lost + (next.sender.wire.length - settled) =
        lost + (middle.sender.wire.length - settled) +
          (next.sender.wire.length - middle.sender.wire.length) := by omega
    rw [counted.unacked, balanced.unacked, total, ← BitVec.ofNat_add]

/-- An acknowledgement takes bytes out of the flight and out of the count. -/
theorem Balanced.acknowledged (balanced : Balanced settled lost client) (now len : Nat)
    (possible : settled + len ≤ client.sender.wire.length) :
    Balanced (settled + len) lost (client.acknowledged now len) where
  unsent := balanced.unsent
  within := possible
  unacked := by
    have inFlight : lost + (client.sender.wire.length - settled) =
        lost + (client.sender.wire.length - (settled + len)) + len := by omega
    calc (client.acknowledged now len).tcp.txUnackedLen
        = BitVec.ofNat 32 (lost + (client.sender.wire.length - settled)) -
            BitVec.ofNat 32 len := by rw [← balanced.unacked]; rfl
      _ = BitVec.ofNat 32 (lost + (client.sender.wire.length - (settled + len))) := by
          rw [inFlight, BitVec.ofNat_add, BitVec.add_sub_cancel]

/-- Without a connection nothing is in flight. -/
def Grounded (account : Account) (client : Client) : Prop :=
  client.sender.connected = false → account.settled = client.sender.wire.length

/-- The beginning of an event keeps the balance, with what it acknowledges. -/
theorem Opens.balanced (opens : Opens event client middle)
    (possible : ∀ len rounds, event.kind = .sent len rounds →
      account.settled + len ≤ client.sender.wire.length)
    (balanced : Balanced account.settled account.lost client) (grounded : Grounded account client) :
    Balanced (account.ackedIn event) account.lost middle := by
  have same : ∀ {other : Client}, account.ackedIn event = account.settled →
      other.tcp.txUnsentLen = client.tcp.txUnsentLen →
      other.tcp.txUnackedLen = client.tcp.txUnackedLen →
      other.sender.wire = client.sender.wire →
      Balanced (account.ackedIn event) account.lost other := by
    intro other still unsent unacked wire
    rw [still]
    exact ⟨unsent.trans balanced.unsent, wire ▸ balanced.within,
      unacked.trans (wire ▸ balanced.unacked)⟩
  have still : (∀ request first second, event.kind ≠ .connected request first second) →
      (∀ len rounds, event.kind ≠ .sent len rounds) →
      account.ackedIn event = account.settled := by
    intro unmade unsent
    unfold Account.ackedIn
    split
    · next kind => exact absurd kind (unmade _ _ _)
    · next kind => exact absurd kind (unsent _ _)
    · rfl
  cases opens with
  | connect kind =>
    have kept := still (by simp [kind]) (by simp [kind])
    unfold Client.connect
    split
    · exact same kept rfl rfl rfl
    · exact same kept rfl rfl rfl
  | connected request first second kind asked apart =>
    -- The connection before this one has ended, so that the count is of lost bytes only.
    have none : account.ackedIn event = 0 := by rw [Account.ackedIn, kind]
    have lost := balanced.unacked
    rw [grounded apart, Nat.sub_self] at lost
    rw [none]
    exact ⟨balanced.unsent, Nat.zero_le _, lost⟩
  | data reading kind connected => exact same (still (by simp [kind]) (by simp [kind])) rfl rfl rfl
  | sent len rounds kind connected =>
    have acked : account.ackedIn event = account.settled + len := by rw [Account.ackedIn, kind]
    rw [acked]
    exact balanced.acknowledged event.now len (possible len rounds kind)
  | missed asked first second kind connected late =>
    exact same (still (by simp [kind]) (by simp [kind])) rfl rfl rfl
  | closed asked first second closing kind connected =>
    exact same (still (by simp [kind]) (by simp [kind])) rfl rfl rfl
  | pinged asked first second kind polled due =>
    exact same (still (by simp [kind]) (by simp [kind])) rfl rfl rfl
  | polled asked first second kind polled early =>
    exact same (still (by simp [kind]) (by simp [kind])) rfl rfl rfl
  | send packet rounds kind => exact same (still (by simp [kind]) (by simp [kind])) rfl rfl rfl
  | lost kind => exact same (still (by simp [kind]) (by simp [kind])) rfl rfl rfl

end Steps

section Runs

variable {start client : Client} {opened account : Account}

/-- One event keeps the balance, and nothing that was lost is found again. -/
theorem step_balanced (event : Event) (next : Client)
    (balanced : Balanced account.settled account.lost client) (grounded : Grounded account client)
    (stepped : client.step event = some next)
    (delivering : Delivering account client event next) :
    let noted := account.note client event next
    Balanced noted.settled noted.lost next ∧ Grounded noted next ∧ account.lost ≤ noted.lost := by
  obtain ⟨middle, opens, reaction⟩ := step_opens event delivering.output stepped
  have begun := opens.balanced delivering.acked balanced grounded
  have kept := (reaction.counted (fun _ output => output) begun.unsent).balanced begun
  unfold Account.note
  cases connected : next.sender.connected with
  | true => exact ⟨kept, fun apart => Bool.noConfusion (connected.symm.trans apart), Nat.le_refl _⟩
  | false =>
    -- What was in flight is lost now, and the count is the same.
    refine ⟨⟨kept.unsent, Nat.le_refl _, ?_⟩, fun _ => rfl, Nat.le_add_right _ _⟩
    simpa using kept.unacked

/-- The counts agree in every state reached. -/
theorem reaches_balanced (balanced : Balanced opened.settled opened.lost start)
    (grounded : Grounded opened start)
    (reached : Reaches accounted Delivering start opened client account) :
    Balanced account.settled account.lost client ∧ Grounded account client ∧
      opened.lost ≤ account.lost :=
  reached.invariant
    (fun client account => Balanced account.settled account.lost client ∧
      Grounded account client ∧ opened.lost ≤ account.lost)
    ⟨balanced, grounded, Nat.le_refl _⟩
    fun _ next _ event _ before stepped delivering =>
      have after := step_balanced event next before.1 before.2.1 stepped delivering
      ⟨after.1, after.2.1, before.2.2.trans after.2.2⟩

/-- A new client has written nothing. -/
theorem construct_balanced (keepAlive : Nat) : Balanced 0 0 (.construct keepAlive) :=
  ⟨rfl, Nat.le_refl _, rfl⟩

/-- An acknowledgement, when the count is a balance. -/
theorem Balanced.sent (now finished len : Nat) (rounds : List Round)
    (balanced : Balanced account.settled account.lost client)
    (connected : client.sender.connected = true)
    (possible : account.settled + len ≤ client.sender.wire.length) :
    client.step ⟨now, finished, .sent len rounds⟩ =
      if 2 ^ 32 ∣ account.lost + (client.sender.wire.length - (account.settled + len)) then
        (client.acknowledged now len).handleQueue rounds
      else some (client.acknowledged now len) := by
  have counted := (balanced.acknowledged now len possible).unacked
  have zero : (client.acknowledged now len).tcp.txUnackedLen = 0 ↔
      2 ^ 32 ∣ account.lost + (client.sender.wire.length - (account.settled + len)) := by
    rw [counted, ← BitVec.toNat_inj, BitVec.toNat_ofNat]
    exact Nat.dvd_iff_mod_eq_zero.symm
  simp only [← zero]
  unfold Client.step Client.sent Client.acknowledged
  dsimp only
  rw [if_pos connected]
  split
  · rfl
  · rfl

/-- The queue moves on an acknowledgement when everything written on the connection has been
acknowledged and nothing was ever in flight when a connection ended, and otherwise only if
the counter has come round. -/
theorem acknowledgement_resumes (keepAlive now finished len : Nat) (rounds : List Round)
    (client : Client) (account : Account)
    (reached : Reaches accounted Delivering (.construct keepAlive) .clean client account)
    (connected : client.sender.connected = true)
    (possible : account.settled + len ≤ client.sender.wire.length) :
    client.step ⟨now, finished, .sent len rounds⟩ =
      if 2 ^ 32 ∣ account.lost + (client.sender.wire.length - (account.settled + len)) then
        (client.acknowledged now len).handleQueue rounds
      else some (client.acknowledged now len) :=
  have balanced := reaches_balanced (construct_balanced keepAlive) (fun _ => rfl) reached
  balanced.1.sent now finished len rounds connected possible

/-- A client whose request is in flight. -/
def asking (lost : BitVec 32) : Client where
  tcp := ⟨true, millis 10, lost + 15, 0, millis 10, 15⟩
  sender := ⟨[], 0, true, false, plainRequest.data, [plainRequest]⟩
  session := ⟨.CONNECTING, []⟩
  keepAlive := 15
  lastClientActivity := millis 10
  lastServerActivity := 0
  lastPingRequestTime := 0

/-- The stack takes and puts out everything. -/
def eager (now : Nat) : Round := ⟨⟨100, true⟩, true, now⟩

/-- The run up to the connection request: all of it is written at once. -/
theorem asking_reached :
    Reaches accounted Delivering (.construct 15) .clean (asking 0) ⟨0, 0⟩ := by
  let made : Event := ⟨10, 10, .connected plainRequest [eager 10] []⟩
  have first : Reaches accounted Delivering (.construct 15) .clean (Client.construct 15).connect
      ⟨0, 0⟩ :=
    .step (Client.construct 15) _ Account.clean (Event.mk 0 0 .connect) .start rfl
      ⟨by simp [Event.rounds], by simp⟩
  exact .step (Client.construct 15).connect (asking 0) (Account.mk 0 0) made first
    (by decide +kernel)
    ⟨by simp [made, Event.rounds, eager], by simp [made]⟩

/-- The request is acknowledged at once, in whole. -/
theorem acknowledgement_resumes_asking :
    (asking 0).step ⟨15, 15, .sent 15 [eager 15]⟩ =
      ((asking 0).acknowledged 15 15).handleQueue [eager 15] :=
  (acknowledgement_resumes 15 15 15 15 [eager 15] (asking 0) ⟨0, 0⟩ asking_reached rfl
    (by decide)).trans (if_pos (by decide))

/-- Once bytes have been lost with a connection, no acknowledgement moves the queue again, on
whatever connection, unless the bytes that are lost or written fill the counter. -/
theorem acknowledgements_stall (keepAlive now finished len : Nat) (rounds : List Round)
    (client later : Client) (account since : Account)
    (reached : Reaches accounted Delivering (.construct keepAlive) .clean client account)
    (lost : 0 < account.lost)
    (after : Reaches accounted Delivering client account later since)
    (connected : later.sender.connected = true)
    (possible : since.settled + len ≤ later.sender.wire.length)
    (few : since.lost + later.sender.wire.length < 2 ^ 32) :
    later.step ⟨now, finished, .sent len rounds⟩ = some (later.acknowledged now len) := by
  obtain ⟨before, grounded, _⟩ :=
    reaches_balanced (construct_balanced keepAlive) (fun _ => rfl) reached
  obtain ⟨balanced, _, more⟩ := reaches_balanced before grounded after
  have open' : ¬ 2 ^ 32 ∣ since.lost + (later.sender.wire.length - (since.settled + len)) :=
    Nat.not_dvd_of_pos_of_lt (by omega) (by omega)
  rw [balanced.sent now finished len rounds connected possible, if_neg open']

/-- The request is lost with its connection. The second one is acknowledged in whole, and the
queue does not move. -/
theorem acknowledgements_stall_asking :
    (asking 15).step ⟨15, 15, .sent 15 [eager 15]⟩ =
      some ((asking 15).acknowledged 15 15) := by
  let made : Event := ⟨10, 10, .connected plainRequest [eager 10] []⟩
  have ended : Reaches accounted Delivering (.construct 15) .clean (asking 0).close ⟨15, 15⟩ :=
    .step (asking 0) _ (Account.mk 0 0) (Event.mk 10 10 .lost) asking_reached (by decide +kernel)
      ⟨by simp [Event.rounds], by simp⟩
  have again : Reaches accounted Delivering (asking 0).close ⟨15, 15⟩ (asking 0).close.connect
      ⟨15, 15⟩ :=
    .step (asking 0).close _ (Account.mk 15 15) (Event.mk 10 10 .connect) .start (by decide +kernel)
      ⟨by simp [Event.rounds], by simp⟩
  have second : Reaches accounted Delivering (asking 0).close ⟨15, 15⟩ (asking 15) ⟨0, 15⟩ :=
    .step (asking 0).close.connect (asking 15) (Account.mk 15 15) made again (by decide +kernel)
      ⟨by simp [made, Event.rounds, eager], by simp [made]⟩
  exact acknowledgements_stall 15 15 15 15 [eager 15] (asking 0).close (asking 15) ⟨15, 15⟩
    ⟨0, 15⟩ ended (by decide) second rfl (by decide) (by decide)

end Runs

end WhirlpoolAc.MqttTimers
