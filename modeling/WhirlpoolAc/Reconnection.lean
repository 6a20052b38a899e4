import WhirlpoolAc.PartialRuns

/-!
# Reconnecting to the broker

The station reports changes of the link to two handlers, which run later, in the
order of the reports. One starts a connection attempt, the other cancels the
reconnect timer. The MQTT library reports the end of every attempt and of every
connection; the reaction arms the timer, but only while the link is up.

No single routine keeps the device online. A cancelled timer is made good by a
handler that still waits, a report that arrives while the link is down by the
handler of the next link. The invariant says which of them is responsible: while
the link is up, either the handler for it waits at the end of the queue, or the
queue is empty and the client or the timer is at work.
-/

namespace WhirlpoolAc.Reconnection

open PartialRuns

/-- The states of the library's client. -/
inductive ClientState where
  | CONNECTING | CONNECTED | DISCONNECTING | DISCONNECTED
deriving DecidableEq

/-- `AsyncMqttClient::connect` returns at once unless the client is disconnected. -/
def ClientState.connect : ClientState → ClientState
  | .DISCONNECTED => .CONNECTING
  | other => other

/-- The handlers that `setupWifi` registers with the station. -/
inductive Handler where
  | onWifiConnect | onWifiDisconnect
deriving DecidableEq

/-- What reconnection depends on: the link as `WiFi.isConnected` reports it, the
handlers that still have to run, oldest first, the client, and whether the reconnect
timer is armed. -/
structure Connection where
  isConnected : Bool
  handlers : List Handler
  m_mqttClient : ClientState
  m_mqttReconnectTimer : Bool
deriving DecidableEq

namespace Connection

/-- `MqttClientForIR::detach`. -/
def detach (connection : Connection) : Connection :=
  { connection with m_mqttReconnectTimer := false }

/-- `MqttClientForIR::connect`. -/
def connect (connection : Connection) : Connection :=
  { connection with m_mqttClient := connection.m_mqttClient.connect }

/-- `MqttClientForIR::onDisconnect`. A timer that is armed again starts anew. -/
def onDisconnect (connection : Connection) : Connection :=
  if connection.isConnected then { connection with m_mqttReconnectTimer := true }
  else connection

end Connection

/-- The body of a handler. -/
def Handler.run : Handler → Connection → Connection
  | .onWifiConnect => Connection.connect
  | .onWifiDisconnect => Connection.detach

/-- What can happen once the handlers are registered. -/
inductive Event where
  | linkUp
  | linkDown
  | delivery
  | accepted
  | lost
  | timer
deriving DecidableEq

/-- One event; none when it cannot happen in the state. A link change queues its
handler, and the station may report the same state of the link again. An attempt can
fail and a connection can break at any time, and an armed timer can fire at any time,
which disarms it. -/
def step (connection : Connection) : Event → Option Connection
  | .linkUp =>
      some { connection with
        isConnected := true, handlers := connection.handlers ++ [.onWifiConnect] }
  | .linkDown =>
      some { connection with
        isConnected := false, handlers := connection.handlers ++ [.onWifiDisconnect] }
  | .delivery =>
      match connection.handlers with
      | [] => none
      | handler :: later => some (handler.run { connection with handlers := later })
  | .accepted =>
      if connection.m_mqttClient = .CONNECTING then
        some { connection with m_mqttClient := .CONNECTED }
      else none
  | .lost =>
      if connection.m_mqttClient = .DISCONNECTED then none
      else some ({ connection with m_mqttClient := .DISCONNECTED } : Connection).onDisconnect
  | .timer =>
      if connection.m_mqttReconnectTimer then
        some ({ connection with m_mqttReconnectTimer := false } : Connection).connect
      else none

/-- The state in which `setupWifi` registers the handlers. -/
def registered : Connection where
  isConnected := false
  handlers := []
  m_mqttClient := .DISCONNECTED
  m_mqttReconnectTimer := false

/-- The client is at work, or the timer will put it to work. -/
def Trying (connection : Connection) : Prop :=
  connection.m_mqttClient = .CONNECTING ∨ connection.m_mqttClient = .CONNECTED ∨
    connection.m_mqttReconnectTimer = true

instance (connection : Connection) : Decidable (Trying connection) := by
  unfold Trying
  infer_instance

/-- Who is responsible for the connection. Nothing asks for a graceful disconnection,
in which the client would ignore attempts. While the link is up, the handler that
reports it is the last one in the queue; once the queue is empty, client or timer has
taken over. -/
structure Attended (connection : Connection) : Prop where
  graceless : connection.m_mqttClient ≠ .DISCONNECTING
  reported : connection.isConnected = true → connection.handlers ≠ [] →
    ∃ earlier, connection.handlers = earlier ++ [.onWifiConnect]
  working : connection.isConnected = true → connection.handlers = [] → Trying connection

/-- An attempt never leaves the client in a graceful disconnection it was not in. -/
theorem connect_graceless (client : ClientState) (graceless : client ≠ .DISCONNECTING) :
    client.connect ≠ .DISCONNECTING := by
  cases client with
  | CONNECTING => exact graceless
  | CONNECTED => exact graceless
  | DISCONNECTING => exact graceless
  | DISCONNECTED => exact ClientState.noConfusion

/-- After an attempt the client is at work: it was already, or it was disconnected. -/
theorem connect_trying (connection : Connection)
    (graceless : connection.m_mqttClient ≠ .DISCONNECTING) : Trying connection.connect := by
  unfold Trying Connection.connect
  cases client : connection.m_mqttClient with
  | CONNECTING => exact .inl rfl
  | CONNECTED => exact .inr (.inl rfl)
  | DISCONNECTING => exact absurd client graceless
  | DISCONNECTED => exact .inl rfl

/-- Behind the first handler of the queue, the last one is still the last one. -/
theorem reported_later (handler : Handler) (later earlier : List Handler)
    (queue : handler :: later = earlier ++ [.onWifiConnect]) :
    (later = [] ∧ handler = .onWifiConnect) ∨
      ∃ between, later = between ++ [.onWifiConnect] := by
  cases earlier with
  | nil =>
    obtain ⟨first, rest⟩ := List.cons.inj queue
    exact .inl ⟨rest, first⟩
  | cons first between =>
    obtain ⟨_, rest⟩ := List.cons.inj queue
    exact .inr ⟨between, rest⟩

/-- Running the first handler of the queue hands responsibility on. A cancelled timer
is harmless: while the link is up, the handler that cancels it is not the last one. -/
theorem attended_delivery (connection : Connection) (handler : Handler) (later : List Handler)
    (queue : connection.handlers = handler :: later) (attended : Attended connection) :
    Attended (handler.run { connection with handlers := later }) := by
  have last : connection.isConnected = true →
      (later = [] ∧ handler = .onWifiConnect) ∨
        ∃ between, later = between ++ [.onWifiConnect] := by
    intro up
    have waiting : connection.handlers ≠ [] := by
      rw [queue]
      exact List.cons_ne_nil handler later
    obtain ⟨earlier, ends⟩ := attended.reported up waiting
    exact reported_later handler later earlier (queue.symm.trans ends)
  have reported : connection.isConnected = true → later ≠ [] →
      ∃ earlier, later = earlier ++ [.onWifiConnect] := by
    intro up waiting
    rcases last up with ⟨none, _⟩ | behind
    · exact absurd none waiting
    · exact behind
  cases handler with
  | onWifiConnect =>
    constructor
    · exact connect_graceless _ attended.graceless
    · exact reported
    · intro _ _
      exact connect_trying _ attended.graceless
  | onWifiDisconnect =>
    constructor
    · exact attended.graceless
    · exact reported
    · intro up none
      exfalso
      rcases last up with ⟨_, impossible⟩ | ⟨between, some⟩
      · cases impossible
      · have empty : between ++ [Handler.onWifiConnect] = [] := some.symm.trans none
        simp at empty

/-- Losing the connection while the link is up arms the timer. -/
theorem attended_lost (connection : Connection) (attended : Attended connection) :
    Attended ({ connection with m_mqttClient := .DISCONNECTED } : Connection).onDisconnect := by
  unfold Connection.onDisconnect
  by_cases up : connection.isConnected = true
  · rw [if_pos up]
    constructor
    · exact ClientState.noConfusion
    · exact attended.reported
    · intro _ _
      exact .inr (.inr rfl)
  · rw [if_neg up]
    constructor
    · exact ClientState.noConfusion
    · exact attended.reported
    · intro impossible _
      exact absurd impossible up

/-- Every event keeps somebody responsible. -/
theorem attended_step (connection next : Connection) (event : Event)
    (attended : Attended connection) (stepped : step connection event = some next) :
    Attended next := by
  cases event with
  | linkUp =>
    cases stepped
    constructor
    · exact attended.graceless
    · intro _ _
      exact ⟨connection.handlers, rfl⟩
    · intro _ none
      simp at none
  | linkDown =>
    cases stepped
    constructor
    · exact attended.graceless
    · intro impossible
      cases impossible
    · intro impossible
      cases impossible
  | delivery =>
    simp only [step] at stepped
    cases queue : connection.handlers with
    | nil =>
      rw [queue] at stepped
      cases stepped
    | cons handler later =>
      rw [queue] at stepped
      cases stepped
      exact attended_delivery connection handler later queue attended
  | accepted =>
    simp only [step] at stepped
    split at stepped
    · cases stepped
      constructor
      · exact ClientState.noConfusion
      · exact attended.reported
      · intro _ _
        exact .inr (.inl rfl)
    · cases stepped
  | lost =>
    simp only [step] at stepped
    split at stepped
    · cases stepped
    · cases stepped
      exact attended_lost connection attended
  | timer =>
    simp only [step] at stepped
    split at stepped
    · cases stepped
      constructor
      · exact connect_graceless _ attended.graceless
      · exact attended.reported
      · intro _ _
        exact connect_trying _ attended.graceless
    · cases stepped

/-- Somebody is responsible in every reachable state. -/
theorem attended_reachable (connection : Connection)
    (reached : Reachable step registered connection) : Attended connection := by
  obtain ⟨events, ran⟩ := reached
  have start : Attended registered := by
    constructor
    · exact ClientState.noConfusion
    · intro impossible
      cases impossible
    · intro impossible
      cases impossible
  exact run_invariant step Attended events
    (fun state event next _ attended stepped => attended_step state next event attended stepped)
    registered connection start ran

/-- Reconnection is never lost: whenever the link is up and the handler that reports it
has run, the client is connecting or connected, or the reconnect timer is armed. -/
theorem reconnection_never_lost (connection : Connection)
    (reached : Reachable step registered connection) (up : connection.isConnected = true)
    (delivered : Handler.onWifiConnect ∉ connection.handlers) :
    connection.m_mqttClient = .CONNECTING ∨ connection.m_mqttClient = .CONNECTED ∨
      connection.m_mqttReconnectTimer = true := by
  have attended := attended_reachable connection reached
  have empty : connection.handlers = [] := by
    apply Classical.byContradiction
    intro waiting
    obtain ⟨earlier, ends⟩ := attended.reported up waiting
    apply delivered
    rw [ends]
    exact List.mem_append_right earlier List.mem_cons_self
  exact attended.working up empty

/-- The link comes up and drops and comes up again before a handler runs; the connection
that is made then breaks. -/
def flappingLink : List Event :=
  [.linkUp, .linkDown, .linkUp, .delivery, .delivery, .accepted, .delivery, .lost]

/-- After it the client is disconnected and the timer is armed. -/
theorem reconnection_never_lost_flapping :
    ∃ connection, run step registered flappingLink = some connection ∧
      connection.m_mqttClient = .DISCONNECTED ∧
      (connection.m_mqttClient = .CONNECTING ∨ connection.m_mqttClient = .CONNECTED ∨
        connection.m_mqttReconnectTimer = true) :=
  ⟨⟨true, [], .DISCONNECTED, true⟩, rfl, rfl,
    reconnection_never_lost _ ⟨flappingLink, rfl⟩ rfl List.not_mem_nil⟩

end WhirlpoolAc.Reconnection
