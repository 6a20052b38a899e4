import WhirlpoolAc.StatusMirror

/-!
# Payloads delivered in pieces

The MQTT library buffers nothing: it hands over each received segment of a payload
with its length, its position and the total. The client prints the last two and
parses every piece as a message of its own, so what a split payload does is decided
by the verdicts on its pieces, carried out in order up to the first failure.

All pieces address the command that the whole addresses. Of a commit every piece is a
commit; of a field every piece assigns that field, is ignored or fails. Two lists of
such verdicts therefore end alike exactly when both or neither fail, as many commits
are carried out, the settings leave the same value, and both or neither announce it,
unless the status topics told the value before.
-/

namespace WhirlpoolAc.ChunkedDelivery

open ByteStrings CxxLibrary FrameLayout AirConditioner Firmware MqttMessages CommandRequests
  TopicGrammar FieldEffects DeviceRuns StatusMirror

/-- `PublishPacket::parsePayload`, called once for each received segment: the data
callback gets the segment, how much of it belongs to the payload, the position and
the payload length. -/
def parsePayload (dataCallback : Bytes → Nat → Nat → Nat → Fw Unit) (payloadLength : Nat) :
    Nat → List Bytes → Fw Unit
  | _, [] => pure ()
  | payloadBytesRead, data :: segments => do
      let remainToRead :=
        if payloadBytesRead + data.length > payloadLength then payloadLength - payloadBytesRead
        else data.length
      dataCallback data remainToRead payloadBytesRead payloadLength
      parsePayload dataCallback payloadLength (payloadBytesRead + remainToRead) segments

/-- Delivery of a payload in pieces. -/
def deliver (name topic : CString) (chunks : List Bytes) : Fw Unit :=
  parsePayload ((controller name).onMessage topic) chunks.flatten.length 0 chunks

/-- Delivery of the same payload in one call. -/
def deliverWhole (name topic : CString) (chunks : List Bytes) : Fw Unit :=
  (controller name).onMessage topic chunks.flatten chunks.flatten.length 0 chunks.flatten.length

/-- Carrying out verdicts one after the other, up to the first failure. -/
def performAll (client : MqttClientForIR) (world : World) :
    List Request → EStateM.Result Exn World Unit
  | [] => .ok () world
  | request :: rest =>
      match perform client world request with
      | .ok _ next => performAll client next rest
      | .error exception next => .error exception next

/-- Each call carries out the verdict on its piece. -/
theorem parsePayload_run (name topic : CString) (total read : Nat) (chunks : List Bytes)
    (world : World) (inside : read + chunks.flatten.length = total) :
    parsePayload ((controller name).onMessage topic) total read chunks world =
      performAll (controller name) world (chunks.map (verdict name topic)) := by
  induction chunks generalizing read world with
  | nil => rfl
  | cons data segments ih =>
    rw [List.flatten_cons, List.length_append] at inside
    have short : ¬ read + data.length > total := by omega
    have tail (next : World) := ih (read + data.length) next (by omega)
    simp only [parsePayload, if_neg short, bind_run, onMessage_run, List.map_cons, performAll]
    cases perform (controller name) world (verdict name topic data) with
    | ok value next => exact tail next
    | error exception next => rfl

/-- The verdicts that are carried out: all in front of the first failure. -/
def carried (requests : List Request) : List Request :=
  requests.takeWhile fun request => request ≠ .overflow

/-- What one verdict does to the program. -/
def effect (client : MqttClientForIR) (world : World) : Request → World
  | .assign setting => assigned client setting world
  | .commit => committed client world
  | .ignored | .overflow => world

/-- What verdicts do one after the other. -/
def performed (client : MqttClientForIR) (world : World) (requests : List Request) : World :=
  requests.foldl (effect client) world

/-- Carrying out verdicts has the effects of those in front of the first failure, and
fails if there is one. -/
theorem performAll_eq (client : MqttClientForIR) (world : World) (requests : List Request) :
    performAll client world requests =
      if .overflow ∈ requests then .error .outOfRange (performed client world (carried requests))
      else .ok () (performed client world (carried requests)) := by
  induction requests generalizing world with
  | nil => rfl
  | cons request rest ih =>
    cases request with
    | overflow => simp [performAll, perform, carried, performed]
    | ignored => simpa [performAll, perform, carried, performed, effect] using ih world
    | assign setting =>
      simpa [performAll, perform, carried, performed, effect] using
        ih (assigned client setting world)
    | commit =>
      simpa [performAll, perform, carried, performed, effect] using ih (committed client world)

/-- Carrying out one verdict is carrying out a list of one. -/
theorem perform_single (client : MqttClientForIR) (world : World) (request : Request) :
    perform client world request = performAll client world [request] := by
  cases request <;> rfl

/-- Packets that the broker does not keep. Of these a delivery sends commit reports only. -/
def reports (sent : List Packet) : List Packet :=
  sent.filter fun packet => (retained packet).isNone

/-- Two programs have the same device, made the same commits and left the same values on
the status topics. -/
structure SameEnd (name : CString) (first second : World) : Prop where
  device : first.g_whirpool = second.g_whirpool
  commits : first.transmissions = second.transmissions
  reports : reports first.sent = reports second.sent
  status : ∀ field, lastRetained (statusTopic name field) first.sent =
    lastRetained (statusTopic name field) second.sent
  json : lastRetained (jsonTopic name) first.sent = lastRetained (jsonTopic name) second.sent

/-- Two deliveries end alike: both return or both fail, with the same end. -/
def EndsAlike (name : CString) :
    EStateM.Result Exn World Unit → EStateM.Result Exn World Unit → Prop
  | .ok _ first, .ok _ second => SameEnd name first second
  | .error exception first, .error other second => exception = other ∧ SameEnd name first second
  | _, _ => False

/-- The value that settings leave in a field, one after the other. -/
def settled (field : BitField) (raw : Nat) : List Request → Nat
  | [] => raw
  | .assign setting :: rest =>
      settled field (if target setting = field then stored raw setting else raw) rest
  | _ :: rest => settled field raw rest

/-- There is a setting among the verdicts. -/
def Assigns (requests : List Request) : Prop := ∃ setting, Request.assign setting ∈ requests

/-- The status topics tell the value of a field and the whole state. -/
structure Told (name : CString) (field : StatusField) (world : World) : Prop where
  status : lastRetained (statusTopic name field) world.sent = some (field.text world.g_whirpool)
  json : lastRetained (jsonTopic name) world.sent = some world.g_whirpool.getJson

/-- When verdicts on pieces end like those on the whole. -/
structure Undisturbed (name : CString) (world : World) (pieces whole : List Request) : Prop where
  fails : .overflow ∈ pieces ↔ .overflow ∈ whole
  commits : (carried pieces).count .commit = (carried whole).count .commit
  value : ∀ field, settled field (world.g_whirpool.field field) (carried pieces) =
    settled field (world.g_whirpool.field field) (carried whole)
  told : (Assigns (carried pieces) ↔ Assigns (carried whole)) ∨
    ∀ setting, .assign setting ∈ carried pieces ++ carried whole →
      Told name setting.announced world

/-- The field on whose topic the changes of a field are announced. -/
def announcer (field : StatusField) : StatusField := if field = .fan then .swing else field

/-- What a command can ask for. -/
def OfCommand : Command → Request → Prop
  | .commit, .commit => True
  | .change field, .assign setting =>
      target setting = bitsOf field ∧ setting.announced = announcer field
  | .change _, .overflow => True
  | _, .ignored => True
  | _, _ => False

/-- A table handler ignores a value or assigns its entry. -/
theorem tableRequest_ofCommand {ν : Type} (field : StatusField) (table : Map Bytes ν)
    (wrap : ν → Setting) (value : Bytes)
    (aims : ∀ entry, target (wrap entry) = bitsOf field ∧
      (wrap entry).announced = announcer field) :
    OfCommand (.change field) (tableRequest table wrap value) := by
  unfold tableRequest
  cases table.find value with
  | none => trivial
  | some entry => exact aims entry

/-- The temperature handler also takes two words and a number. -/
theorem temperatureRequest_ofCommand (value : Bytes) :
    OfCommand (.change .temperature) (temperatureRequest value) := by
  unfold temperatureRequest
  split
  · exact ⟨rfl, rfl⟩
  · split
    · exact ⟨rfl, rfl⟩
    · unfold numeralRequest
      split
      · trivial
      · split
        · exact ⟨rfl, rfl⟩
        · trivial

/-- A command asks for what it can. -/
theorem request_ofCommand (command : Command) (value : Bytes) :
    OfCommand command (request command value) := by
  cases command with
  | commit => trivial
  | change field =>
    cases field with
    | temperature => exact temperatureRequest_ofCommand value
    | light => exact tableRequest_ofCommand .light onoffMap .light value fun _ => ⟨rfl, rfl⟩
    | mode => exact tableRequest_ofCommand .mode modeMap .mode value fun _ => ⟨rfl, rfl⟩
    | state => exact tableRequest_ofCommand .state onoffMap .state value fun _ => ⟨rfl, rfl⟩
    | fan => exact tableRequest_ofCommand .fan fanMap .fan value fun _ => ⟨rfl, rfl⟩
    | swing => exact tableRequest_ofCommand .swing onoffMap .swing value fun _ => ⟨rfl, rfl⟩
    | jet => exact tableRequest_ofCommand .jet onoffMap .jet value fun _ => ⟨rfl, rfl⟩
    | sleep => exact tableRequest_ofCommand .sleep onoffMap .sleep value fun _ => ⟨rfl, rfl⟩

/-- Pieces of a message address the same command. -/
theorem addressed_word (name topic : CString) (first second word value : Bytes)
    (found : addressed name topic first = some (word, value)) :
    ∃ other, addressed name topic second = some (word, other) := by
  rcases (addressed_some_iff _ _ _ _ _).mp found with ⟨whole, clean, _⟩ | inTopic
  · exact ⟨second, (addressed_some_iff _ _ _ _ _).mpr (.inl ⟨whole, clean, rfl⟩)⟩
  · exact ⟨value, (addressed_some_iff _ _ _ _ _).mpr (.inr inTopic)⟩

/-- All payloads of a topic address one command. -/
theorem verdict_ofCommand (name topic : CString) :
    ∃ command, ∀ payload, OfCommand command (verdict name topic payload) := by
  have unheard (payload : Bytes) (ignored : verdict name topic payload = .ignored) :
      OfCommand .commit (verdict name topic payload) := by
    rw [ignored]
    trivial
  cases parsed : addressed name topic [] with
  | none =>
    refine ⟨.commit, fun payload => unheard payload ?_⟩
    unfold verdict
    cases found : addressed name topic payload with
    | none => rfl
    | some pair =>
      obtain ⟨other, again⟩ := addressed_word name topic payload [] pair.1 pair.2 found
      rw [parsed] at again
      cases again
  | some pair =>
    have word (payload : Bytes) := addressed_word name topic [] payload pair.1 pair.2 parsed
    cases registered : Command.ofName pair.1 with
    | none =>
      refine ⟨.commit, fun payload => unheard payload ?_⟩
      obtain ⟨value, found⟩ := word payload
      simp only [verdict, found, namedRequest, registered]
    | some command =>
      refine ⟨command, fun payload => ?_⟩
      obtain ⟨value, found⟩ := word payload
      simp only [verdict, found, namedRequest, registered]
      exact request_ofCommand command (lower value)

/-- Without a setting nothing is assigned. -/
theorem settled_idle (field : BitField) (raw : Nat) (requests : List Request)
    (idle : ¬ Assigns requests) : settled field raw requests = raw := by
  induction requests with
  | nil => rfl
  | cons request rest ih =>
    have later : ¬ Assigns rest := fun ⟨setting, member⟩ =>
      idle ⟨setting, List.mem_cons_of_mem request member⟩
    cases request with
    | assign setting => exact absurd ⟨setting, List.mem_cons_self⟩ idle
    | ignored => exact ih later
    | overflow => exact ih later
    | commit => exact ih later

/-- Assigning the stored value changes nothing. -/
theorem assign_field_self (field : BitField) (ac : WhirlpoolYJ1B) :
    ac.assign field (ac.field field) = ac :=
  congrArg WhirlpoolYJ1B.mk (writeField_readField field ac.m_data)

/-- A second assignment replaces the first. -/
theorem assign_twice (field : BitField) (first second : Nat) (ac : WhirlpoolYJ1B) :
    (ac.assign field first).assign field second = ac.assign field second :=
  congrArg WhirlpoolYJ1B.mk (writeField_twice field first second ac.m_data)

/-- What a setting stores depends on its own field only. -/
theorem stored_target (setting : Setting) (ac : WhirlpoolYJ1B) :
    stored (ac.field .temperature) setting = stored (ac.field (target setting)) setting := by
  cases setting <;> rfl

section Changes

variable {name : CString} {field : StatusField} {requests first second : List Request}

/-- Verdicts on one field leave one value in it and nothing else in the device. -/
theorem performed_device (world : World)
    (ofField : ∀ request ∈ requests, OfCommand (.change field) request) :
    (performed (controller name) world requests).g_whirpool =
      world.g_whirpool.assign (bitsOf field)
        (settled (bitsOf field) (world.g_whirpool.field (bitsOf field)) requests) := by
  induction requests generalizing world with
  | nil => exact (assign_field_self _ _).symm
  | cons request rest ih =>
    obtain ⟨here, later⟩ := List.forall_mem_cons.mp ofField
    cases request with
    | ignored => exact ih world later
    | overflow => exact ih world later
    | commit => exact absurd here id
    | assign setting =>
      -- The rest replaces the value of the first setting, and starts from it.
      have aims : target setting = bitsOf field := here.1
      have value : (setting.apply world.g_whirpool).field (bitsOf field) =
          stored (world.g_whirpool.field (bitsOf field)) setting := by
        rw [apply_field, if_pos aims.symm, stored_target, aims]
      have rest := ih (assigned (controller name) setting world) later
      have device : (assigned (controller name) setting world).g_whirpool =
          setting.apply world.g_whirpool := rfl
      rw [device, value] at rest
      rw [settled, if_pos aims]
      calc (performed (controller name) world (.assign setting :: _)).g_whirpool = _ := rest
        _ = _ := by rw [apply_eq_assign, aims, assign_twice]

/-- What no setting of the field changes, they keep. -/
theorem performed_keeps {α : Type} (view : World → α) (world : World)
    (ofField : ∀ request ∈ requests, OfCommand (.change field) request)
    (kept : ∀ setting world, OfCommand (.change field) (.assign setting) →
      view (assigned (controller name) setting world) = view world) :
    view (performed (controller name) world requests) = view world := by
  induction requests generalizing world with
  | nil => rfl
  | cons request rest ih =>
    obtain ⟨here, later⟩ := List.forall_mem_cons.mp ofField
    cases request with
    | ignored => exact ih world later
    | overflow => exact ih world later
    | commit => exact absurd here id
    | assign setting =>
      exact (ih (assigned (controller name) setting world) later).trans (kept setting world here)

variable (name) in
/-- They commit nothing. -/
theorem performed_silent (world : World)
    (ofField : ∀ request ∈ requests, OfCommand (.change field) request) :
    (performed (controller name) world requests).transmissions = world.transmissions ∧
      reports (performed (controller name) world requests).sent = reports world.sent := by
  constructor
  · exact performed_keeps World.transmissions world ofField fun _ _ _ => rfl
  · refine performed_keeps (fun world => reports world.sent) world ofField fun _ _ _ => ?_
    simp [reports, assigned]

/-- Without a setting they do nothing. -/
theorem performed_idle (world : World)
    (ofField : ∀ request ∈ requests, OfCommand (.change field) request)
    (idle : ¬ Assigns requests) : performed (controller name) world requests = world := by
  induction requests with
  | nil => rfl
  | cons request rest ih =>
    obtain ⟨here, later⟩ := List.forall_mem_cons.mp ofField
    have still : ¬ Assigns rest := fun ⟨setting, member⟩ =>
      idle ⟨setting, List.mem_cons_of_mem request member⟩
    cases request with
    | ignored => exact ih later still
    | overflow => exact ih later still
    | commit => exact absurd here id
    | assign setting => exact absurd ⟨setting, List.mem_cons_self⟩ idle

/-- With a setting they tell the value that they leave. -/
theorem performed_told (world : World)
    (ofField : ∀ request ∈ requests, OfCommand (.change field) request)
    (assigns : Assigns requests) :
    Told name (announcer field) (performed (controller name) world requests) := by
  induction requests generalizing world with
  | nil =>
    obtain ⟨_, member⟩ := assigns
    cases member
  | cons request rest ih =>
    obtain ⟨here, later⟩ := List.forall_mem_cons.mp ofField
    by_cases again : Assigns rest
    · exact ih (effect (controller name) world request) later again
    · obtain ⟨setting, member⟩ := assigns
      have last : request = .assign setting := by
        rcases List.mem_cons.mp member with same | inRest
        · exact same.symm
        · exact absurd ⟨setting, inRest⟩ again
      subst last
      have ended : performed (controller name) world (.assign setting :: rest) =
          assigned (controller name) setting world := performed_idle _ later again
      obtain ⟨status, json⟩ := assigned_retained name setting.announced
        (setting.apply world.g_whirpool)
      have announced : setting.announced = announcer field := here.2
      rw [ended]
      constructor
      · rw [assigned, World.emit, control_sent, lastRetained_append, status, if_pos announced]
        rfl
      · rw [assigned, World.emit, control_sent, lastRetained_append, json]
        rfl

/-- They tell nothing on another field's topic. -/
theorem performed_others (world : World) (other : StatusField) (apart : announcer field ≠ other)
    (ofField : ∀ request ∈ requests, OfCommand (.change field) request) :
    lastRetained (statusTopic name other) (performed (controller name) world requests).sent =
      lastRetained (statusTopic name other) world.sent := by
  refine performed_keeps (fun world => lastRetained (statusTopic name other) world.sent) world
    ofField fun setting world here => ?_
  have announced : setting.announced ≠ other := fun same => apart (here.2.symm.trans same)
  rw [assigned, World.emit, control_sent, lastRetained_append,
    (assigned_retained name setting.announced _).1, if_neg announced]
  rfl

/-- The broker was told, or is told now. -/
theorem performed_tells (world : World)
    (ofField : ∀ request ∈ requests, OfCommand (.change field) request)
    (tells : Assigns requests ∨ Told name (announcer field) world) :
    Told name (announcer field) (performed (controller name) world requests) := by
  by_cases assigns : Assigns requests
  · exact performed_told world ofField assigns
  · rw [performed_idle world ofField assigns]
    exact tells.resolve_left assigns

/-- What is told of a program is told of one with the same end. -/
theorem Told.transfer {before after : World} (told : Told name field before)
    (same : SameEnd name before after) : Told name field after where
  status := by rw [← same.status, told.status, same.device]
  json := by rw [← same.json, told.json, same.device]

/-- Settings of one field leave the others alone. -/
theorem settled_other (other : BitField) (raw : Nat) (apart : bitsOf field ≠ other)
    (ofField : ∀ request ∈ requests, OfCommand (.change field) request) :
    settled other raw requests = raw := by
  induction requests with
  | nil => rfl
  | cons request rest ih =>
    obtain ⟨here, later⟩ := List.forall_mem_cons.mp ofField
    cases request with
    | ignored => exact ih later
    | overflow => exact ih later
    | commit => exact absurd here id
    | assign setting =>
      have missed : target setting ≠ other := fun same => apart (here.1.symm.trans same)
      rw [settled, if_neg missed]
      exact ih later

/-- What settings leave in a field fits it. -/
theorem settled_lt (bits : BitField) (raw : Nat) (small : raw < 2 ^ bits.size)
    (requests : List Request) : settled bits raw requests < 2 ^ bits.size := by
  induction requests generalizing raw with
  | nil => exact small
  | cons request rest ih =>
    cases request with
    | ignored => exact ih raw small
    | overflow => exact ih raw small
    | commit => exact ih raw small
    | assign setting =>
      rw [settled]
      split
      · next aims => exact ih _ (aims ▸ stored_lt raw setting)
      · exact ih raw small

/-- The device shows the value that settings leave in the field. -/
theorem performed_field (world : World)
    (ofField : ∀ request ∈ requests, OfCommand (.change field) request) :
    (performed (controller name) world requests).g_whirpool.field (bitsOf field) =
      settled (bitsOf field) (world.g_whirpool.field (bitsOf field)) requests := by
  rw [performed_device world ofField, assign_field, if_pos rfl]
  exact Nat.mod_eq_of_lt (settled_lt _ _ (readField_lt _ _) requests)

/-- Verdicts on one field end alike exactly when they leave the same value and tell it
alike. -/
theorem sameEnd_changes_iff (world : World)
    (firstOf : ∀ request ∈ first, OfCommand (.change field) request)
    (secondOf : ∀ request ∈ second, OfCommand (.change field) request) :
    SameEnd name (performed (controller name) world first)
        (performed (controller name) world second) ↔
      settled (bitsOf field) (world.g_whirpool.field (bitsOf field)) first =
          settled (bitsOf field) (world.g_whirpool.field (bitsOf field)) second ∧
        ((Assigns first ↔ Assigns second) ∨ Told name (announcer field) world) := by
  constructor
  · intro same
    have value := congrArg (WhirlpoolYJ1B.field · (bitsOf field)) same.device
    simp only [performed_field world firstOf, performed_field world secondOf] at value
    refine ⟨value, ?_⟩
    by_cases one : Assigns first
    · by_cases two : Assigns second
      · exact .inl (iff_of_true one two)
      · rw [performed_idle world secondOf two] at same
        exact .inr ((performed_told world firstOf one).transfer same)
    · by_cases two : Assigns second
      · rw [performed_idle world firstOf one] at same
        refine .inr ⟨?_, ?_⟩
        · rw [same.status, (performed_told world secondOf two).status, same.device]
        · rw [same.json, (performed_told world secondOf two).json, same.device]
      · exact .inl (iff_of_false one two)
  · rintro ⟨value, alike⟩
    have device : (performed (controller name) world first).g_whirpool =
        (performed (controller name) world second).g_whirpool := by
      rw [performed_device world firstOf, performed_device world secondOf, value]
    obtain ⟨sentFirst, reportsFirst⟩ := performed_silent name world firstOf
    obtain ⟨sentSecond, reportsSecond⟩ := performed_silent name world secondOf
    have agree (one : Told name (announcer field) (performed (controller name) world first))
        (two : Told name (announcer field) (performed (controller name) world second)) :
        SameEnd name (performed (controller name) world first)
          (performed (controller name) world second) := by
      refine ⟨device, sentFirst.trans sentSecond.symm, reportsFirst.trans reportsSecond.symm,
        fun other => ?_, by rw [one.json, two.json, device]⟩
      by_cases own : announcer field = other
      · subst own
        rw [one.status, two.status, device]
      · rw [performed_others world other own firstOf, performed_others world other own secondOf]
    rcases alike with both | told
    · by_cases assigns : Assigns first
      · exact agree (performed_told world firstOf assigns)
          (performed_told world secondOf (both.mp assigns))
      · rw [performed_idle world firstOf assigns,
          performed_idle world secondOf fun two => assigns (both.mpr two)]
        exact ⟨rfl, rfl, rfl, fun _ => rfl, rfl⟩
    · exact agree (performed_tells world firstOf (.inr told))
        (performed_tells world secondOf (.inr told))

end Changes

/-- Every commit transmits one frame, and nothing else does. -/
theorem performed_frames (client : MqttClientForIR) (world : World) (requests : List Request) :
    (performed client world requests).transmissions.length =
      world.transmissions.length + requests.count .commit := by
  induction requests generalizing world with
  | nil => rfl
  | cons request rest ih =>
    have later := ih (effect client world request)
    rw [List.count_cons]
    cases request with
    | ignored => exact later
    | overflow => exact later
    | assign setting => exact later
    | commit =>
      have sent : (effect client world .commit).transmissions.length =
          world.transmissions.length + 1 := by simp [effect, committed]
      rw [sent] at later
      refine later.trans ?_
      simp
      omega

/-- Of commits only the number matters. -/
theorem performed_commits (client : MqttClientForIR) (world : World) (requests : List Request)
    (commits : ∀ request ∈ requests, OfCommand .commit request) :
    performed client world requests =
      performed client world (List.replicate (requests.count .commit) .commit) := by
  induction requests generalizing world with
  | nil => rfl
  | cons request rest ih =>
    obtain ⟨here, later⟩ := List.forall_mem_cons.mp commits
    cases request with
    | ignored =>
      rw [List.count_cons_of_ne Request.noConfusion]
      exact ih world later
    | overflow => exact absurd here id
    | assign setting => exact absurd here id
    | commit =>
      rw [List.count_cons_self, List.replicate_succ]
      exact ih (committed client world) later

/-- Commits assign nothing. -/
theorem commits_idle (requests : List Request)
    (commits : ∀ request ∈ requests, OfCommand .commit request) : ¬ Assigns requests :=
  fun ⟨_, member⟩ => commits _ member

/-- A field command commits nothing. -/
theorem changes_uncommitted (field : StatusField) (requests : List Request)
    (ofField : ∀ request ∈ requests, OfCommand (.change field) request) :
    requests.count .commit = 0 :=
  List.count_eq_zero.mpr fun member => ofField .commit member

/-- Verdicts of one command end alike exactly when they commit as often, leave the same
values and tell them alike. -/
theorem sameEnd_iff (name : CString) (command : Command) (world : World)
    (first second : List Request)
    (ofCommand : ∀ request ∈ first ++ second, OfCommand command request) :
    SameEnd name (performed (controller name) world first)
        (performed (controller name) world second) ↔
      first.count .commit = second.count .commit ∧
        (∀ field, settled field (world.g_whirpool.field field) first =
          settled field (world.g_whirpool.field field) second) ∧
        ((Assigns first ↔ Assigns second) ∨
          ∀ setting, .assign setting ∈ first ++ second → Told name setting.announced world) := by
  obtain ⟨firstOf, secondOf⟩ := List.forall_mem_append.mp ofCommand
  cases command with
  | commit =>
    have idleFirst := commits_idle first firstOf
    have idleSecond := commits_idle second secondOf
    constructor
    · intro same
      have frames := congrArg List.length same.commits
      rw [performed_frames, performed_frames] at frames
      exact ⟨Nat.add_left_cancel frames,
        fun _ => by rw [settled_idle _ _ _ idleFirst, settled_idle _ _ _ idleSecond],
        .inl (iff_of_false idleFirst idleSecond)⟩
    · rintro ⟨counts, _, _⟩
      rw [performed_commits _ _ first firstOf, performed_commits _ _ second secondOf, counts]
      exact ⟨rfl, rfl, rfl, fun _ => rfl, rfl⟩
  | change field =>
    have none : first.count .commit = second.count .commit := by
      rw [changes_uncommitted field first firstOf, changes_uncommitted field second secondOf]
    rw [sameEnd_changes_iff world firstOf secondOf]
    constructor
    · rintro ⟨value, alike⟩
      refine ⟨none, fun other => ?_, alike.imp_right fun told setting member => ?_⟩
      · by_cases own : bitsOf field = other
        · subst own
          exact value
        · rw [settled_other other _ own firstOf, settled_other other _ own secondOf]
      · have announced : setting.announced = announcer field := (ofCommand _ member).2
        rw [announced]
        exact told
    · rintro ⟨_, value, alike⟩
      refine ⟨value (bitsOf field), or_iff_not_imp_left.mpr fun differ => ?_⟩
      have told := alike.resolve_left differ
      obtain ⟨setting, member⟩ : Assigns (first ++ second) := by
        by_cases one : Assigns first
        · obtain ⟨setting, member⟩ := one
          exact ⟨setting, List.mem_append_left second member⟩
        · by_cases two : Assigns second
          · obtain ⟨setting, member⟩ := two
            exact ⟨setting, List.mem_append_right first member⟩
          · exact absurd (iff_of_false one two) differ
      have announced : setting.announced = announcer field := (ofCommand _ member).2
      rw [← announced]
      exact told setting member

/-- Verdicts of one command, carried out up to the first failure, end alike exactly when
they are undisturbed. -/
theorem performAll_endsAlike_iff (name : CString) (command : Command) (world : World)
    (pieces whole : List Request)
    (ofCommand : ∀ request ∈ pieces ++ whole, OfCommand command request) :
    EndsAlike name (performAll (controller name) world pieces)
        (performAll (controller name) world whole) ↔
      Undisturbed name world pieces whole := by
  have carriedOf : ∀ request ∈ carried pieces ++ carried whole, OfCommand command request := by
    intro request member
    refine ofCommand request ?_
    rcases List.mem_append.mp member with inPieces | inWhole
    · exact List.mem_append_left whole ((List.takeWhile_sublist _).subset inPieces)
    · exact List.mem_append_right pieces ((List.takeWhile_sublist _).subset inWhole)
  have ends := sameEnd_iff name command world (carried pieces) (carried whole) carriedOf
  have undisturbed : Undisturbed name world pieces whole ↔
      (.overflow ∈ pieces ↔ .overflow ∈ whole) ∧
        SameEnd name (performed (controller name) world (carried pieces))
          (performed (controller name) world (carried whole)) := by
    rw [ends]
    exact ⟨fun ⟨fails, commits, value, told⟩ => ⟨fails, commits, value, told⟩,
      fun ⟨fails, commits, value, told⟩ => ⟨fails, commits, value, told⟩⟩
  rw [undisturbed, performAll_eq, performAll_eq]
  by_cases piecesFail : .overflow ∈ pieces
  · by_cases wholeFails : .overflow ∈ whole
    · simp [EndsAlike, piecesFail, wholeFails]
    · simp [EndsAlike, piecesFail, wholeFails]
  · by_cases wholeFails : .overflow ∈ whole
    · simp [EndsAlike, piecesFail, wholeFails]
    · simp [EndsAlike, piecesFail, wholeFails]

/-- Delivery in pieces carries out the verdicts on the pieces. -/
theorem deliver_eq (name topic : CString) (chunks : List Bytes) (world : World) :
    deliver name topic chunks world =
      performAll (controller name) world (chunks.map (verdict name topic)) :=
  parsePayload_run name topic _ 0 chunks world (Nat.zero_add _)

/-- Delivery in one call carries out the verdict on the whole. -/
theorem deliverWhole_eq (name topic : CString) (chunks : List Bytes) (world : World) :
    deliverWhole name topic chunks world =
      performAll (controller name) world [verdict name topic chunks.flatten] := by
  rw [deliverWhole, onMessage_run, perform_single]

/-- For every device, topic, division of a payload and program state, delivery in pieces
ends like delivery in one call, in the device, the commits and the values of the status
topics, exactly when the verdicts on the pieces leave the verdict on the whole
undisturbed. -/
theorem pieces_as_whole_iff (name topic : CString) (chunks : List Bytes) (world : World) :
    EndsAlike name (deliver name topic chunks world) (deliverWhole name topic chunks world) ↔
      Undisturbed name world (chunks.map (verdict name topic))
        [verdict name topic chunks.flatten] := by
  obtain ⟨command, ofCommand⟩ := verdict_ofCommand name topic
  rw [deliver_eq, deliverWhole_eq]
  refine performAll_endsAlike_iff name command world _ _ fun request member => ?_
  rcases List.mem_append.mp member with piece | whole
  · obtain ⟨chunk, _, rfl⟩ := List.mem_map.mp piece
    exact ofCommand chunk
  · rw [List.mem_singleton.mp whole]
    exact ofCommand chunks.flatten

/-- One degree and six degrees, each clamped, leave what sixteen degrees leave. -/
example :
    let judged := verdict (cStr (lit "salon")) (commandTopic (cStr (lit "salon"))
      (.change .temperature))
    settled .temperature 8 [judged (lit "1"), judged (lit "6")] =
      settled .temperature 8 [judged (lit "16")] := by decide

/-- The devices of deliveries that end alike are the same. -/
theorem EndsAlike.device {name : CString} {first second : EStateM.Result Exn World Unit}
    (alike : EndsAlike name first second) :
    (returned first).map World.g_whirpool = (returned second).map World.g_whirpool := by
  cases first with
  | ok value world =>
    cases second with
    | ok other last =>
      have same : SameEnd name world last := alike
      exact congrArg some same.device
    | error exception last => exact absurd alike id
  | error exception world =>
    cases second with
    | ok other last => exact absurd alike id
    | error other last => rfl

/-- Twenty degrees in two pieces are two degrees and then none: the setpoint ends at
the bottom of its range. -/
theorem twenty_in_two_pieces :
    ¬ ∀ (name topic : CString) (chunks : List Bytes) (world : World),
      (∀ chunk ∈ chunks, chunk ≠ []) →
        EndsAlike name (deliver name topic chunks world)
          (deliverWhole name topic chunks world) := by
  intro always
  have same := (always (cStr (lit "salon"))
    (commandTopic (cStr (lit "salon")) (.change .temperature)) [lit "2", lit "0"] powerOn
    (by decide)).device
  rw [deliver_eq, deliverWhole_eq] at same
  have setpoints := congrArg (fun device => device.map WhirlpoolYJ1B.getTemperature) same
  revert setpoints
  decide

end WhirlpoolAc.ChunkedDelivery
