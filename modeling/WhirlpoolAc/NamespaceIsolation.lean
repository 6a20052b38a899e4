import WhirlpoolAc.DeviceRuns

/-!
# Two devices on one broker

Every device publishes below its own name and listens below its own command prefix. A
name is free text, so one device's name may reach into the other's topics. What a
device publishes ends in one slash and a word; what it listens to is its prefix and one
or two parts. Comparing them from the end leaves two kinds of overlap: the other name
is this one followed by `/cmd`, and published fields look like commands, or it is this
one followed by `/cmd/commit`, and every published word looks like the value of a
commit. The command topics of two devices never overlap.
-/

namespace WhirlpoolAc.NamespaceIsolation

open ByteStrings CxxLibrary SequenceSearch AirConditioner Firmware MqttMessages CommandRequests
  TopicGrammar DeviceRuns PartialRuns

/-- The messages of a device: topic and payload, for any state of its controller. -/
inductive Published (name : CString) : Bytes → Bytes → Prop where
  | status (field : StatusField) (ac : WhirlpoolYJ1B) :
      Published name (statusTopic name field) (field.text ac)
  | json (ac : WhirlpoolYJ1B) : Published name (jsonTopic name) ac.getJson
  | commited (ac : WhirlpoolYJ1B) : Published name (commitedTopic name) ac.getJson

/-- Some state of a device changes, or some call fails, when it gets the message. -/
def ActsOn (name topic : CString) (payload : Bytes) : Prop :=
  ∃ (index total : Nat) (world : World),
    (controller name).onMessage topic payload payload.length index total world ≠ .ok () world

/-- Nothing that a device publishes, and no command that it acts on, has an effect on the
other device. -/
structure Isolated (name other : CString) : Prop where
  published : ∀ (topic : CString) (payload : Bytes), Published other topic.bytes payload →
    ¬ ActsOn name topic payload
  commands : ∀ (topic : CString) (payload : Bytes), ActsOn other topic payload →
    ¬ ActsOn name topic payload

/-- A device publishes nothing else. -/
theorem packets_published (name : CString) (event : Event) (ac : WhirlpoolYJ1B)
    (topic payload : Bytes) (qos : Nat) (retain : Bool)
    (sent : .publish topic qos retain payload ∈ event.packets name ac) :
    Published name topic payload := by
  have status (field : StatusField)
      (same : Packet.publish topic qos retain payload = statusPacket (controller name) field ac) :
      Published name topic payload := by
    cases same
    exact .status field ac
  have json (same : Packet.publish topic qos retain payload = jsonPacket (controller name) ac) :
      Published name topic payload := by
    cases same
    exact .json ac
  cases event with
  | connected now =>
    simp only [Event.packets, initialPackets, List.mem_cons, List.mem_map, reduceCtorEq,
      false_or] at sent
    rcases sent with whole | ⟨field, _, same⟩
    · exact json whole
    · exact status field same.symm
  | message now messageTopic messagePayload index total =>
    rw [Event.packets] at sent
    cases decided : verdict name messageTopic messagePayload with
    | ignored =>
      rw [decided] at sent
      cases sent
    | overflow =>
      rw [decided] at sent
      cases sent
    | assign setting =>
      rw [decided, Request.packets, List.mem_cons, List.mem_singleton] at sent
      rcases sent with field | whole
      · exact status _ field
      · exact json whole
    | commit =>
      rw [decided, Request.packets, List.mem_singleton, commitedPacket] at sent
      cases sent
      exact .commited ac
  | restCommit now =>
    rw [Event.packets, List.mem_singleton] at sent
    cases sent
  | serialCommit now => cases sent

/-- Every verdict except ignoring shows: an error, or new packets. -/
theorem perform_ignored_iff (client : MqttClientForIR) (world : World) (request : Request) :
    perform client world request = .ok () world ↔ request = .ignored := by
  have grown (packets : List Packet) (changed : World) (some : packets ≠ [])
      (sent : changed.sent = world.sent) : changed.emit packets ≠ world := by
    intro same
    have lists := congrArg World.sent same
    rw [emit_sent, sent, List.append_right_eq_self] at lists
    exact some lists
  cases request with
  | ignored => simp [perform]
  | overflow => simp [perform]
  | assign setting =>
    have changed : assigned client setting world ≠ world :=
      grown _ (world.control setting.apply) (List.cons_ne_nil _ _) rfl
    simp [perform, changed]
  | commit =>
    have changed : committed client world ≠ world :=
      grown _ ((world.control (setClock world.now)).transmit
        (stamped world.now world.g_whirpool)) (List.cons_ne_nil _ _) rfl
    simp [perform, changed]

/-- A device acts on a message exactly when its verdict is not to ignore it. -/
theorem actsOn_iff (name topic : CString) (payload : Bytes) :
    ActsOn name topic payload ↔ verdict name topic payload ≠ .ignored := by
  have effect (index total : Nat) (world : World) :
      (controller name).onMessage topic payload payload.length index total world ≠ .ok () world ↔
        verdict name topic payload ≠ .ignored := by
    rw [onMessage_run, ne_eq, perform_ignored_iff]
  constructor
  · rintro ⟨index, total, world, acted⟩
    exact (effect index total world).mp acted
  · intro decided
    exact ⟨0, payload.length, powerOn, (effect 0 payload.length powerOn).mpr decided⟩

/-- The last words of published topics. -/
def publishedWords : List Bytes :=
  [[], lit "commited", lit "temperature", lit "light", lit "mode", lit "state", lit "fan",
    lit "swing", lit "jet", lit "sleep"]

/-- A published topic is the device name, a slash and one of the words. -/
theorem published_form (name : CString) (topic payload : Bytes)
    (sent : Published name topic payload) :
    ∃ word ∈ publishedWords, topic = mqttRoot ++ name.bytes ++ slash :: word := by
  cases sent with
  | status field ac =>
    have known : field.name ∈ publishedWords := by cases field <;> decide
    exact ⟨field.name, known, rfl⟩
  | json ac => exact ⟨[], by decide, rfl⟩
  | commited ac => exact ⟨lit "commited", by decide, rfl⟩

/-- The words contain no slash. -/
theorem publishedWords_clean : ∀ word ∈ publishedWords, slash ∉ word := by decide

/-- The command prefix ends in a level of its own. -/
theorem commandPrefix_level (name : CString) (rest : Bytes) :
    commandPrefix name ++ rest = mqttRoot ++ (name.bytes ++ lit "/cmd") ++ slash :: rest := by
  have ending : commandEnd = lit "/cmd" ++ [slash] := by decide
  simp [commandPrefix, ending]

/-- How a topic below another name can address a device: the other name is this one's
command level, or it goes one level further down. -/
theorem foreign_address (name other topic : CString) (word payload command value : Bytes)
    (clean : slash ∉ word) (whole : topic.bytes = mqttRoot ++ other.bytes ++ slash :: word)
    (parsed : addressed name topic payload = some (command, value)) :
    (other.bytes = name.bytes ++ lit "/cmd" ∧ command = word) ∨
      (other.bytes = name.bytes ++ lit "/cmd/" ++ command ∧ value = word) := by
  rcases (addressed_some_iff name topic payload command value).mp parsed with
    ⟨form, cleanCommand, _⟩ | ⟨form, _, cleanValue⟩
  · rw [commandPrefix_level, whole] at form
    obtain ⟨front, last⟩ := last_part_inj _ _ _ _ slash clean cleanCommand form
    exact .inl ⟨List.append_cancel_left front, last.symm⟩
  · rw [whole, ← List.append_assoc] at form
    obtain ⟨front, last⟩ := last_part_inj _ _ _ _ slash clean cleanValue form
    have stem : commandPrefix name ++ command =
        mqttRoot ++ (name.bytes ++ lit "/cmd/" ++ command) := by
      simp [commandPrefix, commandEnd]
    rw [stem] at front
    exact .inr ⟨List.append_cancel_left front, last.symm⟩

/-- No published word is a value of a registered command other than a commit. -/
theorem words_ignored (field : StatusField) (word : Bytes) (known : word ∈ publishedWords) :
    request (.change field) (lower word) = .ignored := by
  have every : ∀ word ∈ publishedWords, request (.change field) (lower word) = .ignored := by
    cases field <;> decide
  exact every word known

/-- A registered word is the word of its command. -/
theorem ofName_name (word : Bytes) (command : Command) (registered : Command.ofName word =
    some command) : command.name = word := by
  simpa using List.find?_some registered

/-- A published message has no effect on a device unless the publisher's name is one of
the two. -/
theorem published_ignored (name other topic : CString) (payload : Bytes)
    (sent : Published other topic.bytes payload)
    (level : other.bytes ≠ name.bytes ++ lit "/cmd")
    (deeper : other.bytes ≠ name.bytes ++ lit "/cmd/commit") :
    verdict name topic payload = .ignored := by
  obtain ⟨word, known, whole⟩ := published_form other topic.bytes payload sent
  have clean := publishedWords_clean word known
  rw [verdict]
  cases parsed : addressed name topic payload with
  | none => rfl
  | some found =>
    obtain ⟨command, value⟩ := found
    rcases foreign_address name other topic word payload command value clean whole parsed with
      ⟨here, _⟩ | ⟨there, rfl⟩
    · exact absurd here level
    · show namedRequest command (lower value) = .ignored
      rw [namedRequest]
      cases registered : Command.ofName command with
      | none => rfl
      | some addressee =>
        cases addressee with
        | change field => exact words_ignored field value known
        | commit =>
          have committing : command = lit "commit" :=
            (ofName_name command .commit registered).symm
          rw [committing, List.append_assoc] at there
          exact absurd there deeper

/-- A message that a device acts on names a registered command. -/
theorem acted_command (name topic : CString) (payload : Bytes)
    (acted : verdict name topic payload ≠ .ignored) :
    ∃ command value, addressed name topic payload = some (command, value) ∧
      Command.ofName command ≠ none := by
  rw [verdict] at acted
  cases parsed : addressed name topic payload with
  | none =>
    rw [parsed] at acted
    exact absurd rfl acted
  | some found =>
    obtain ⟨command, value⟩ := found
    refine ⟨command, value, rfl, ?_⟩
    intro unregistered
    rw [parsed] at acted
    exact acted (by simp [namedRequest, unregistered])

/-- Equal first parts behind two prefixes come from equal names. -/
theorem prefix_inj (name other : CString) (command otherCommand : Bytes)
    (clean : slash ∉ command) (cleanOther : slash ∉ otherCommand)
    (same : commandPrefix name ++ command = commandPrefix other ++ otherCommand) :
    name = other := by
  rw [commandPrefix_level, commandPrefix_level] at same
  obtain ⟨front, _⟩ := last_part_inj _ _ _ _ slash clean cleanOther same
  have names : name.bytes = other.bytes :=
    List.append_cancel_right (List.append_cancel_left front)
  obtain ⟨bytes, nulFree⟩ := name
  obtain ⟨otherBytes, otherNulFree⟩ := other
  cases names
  rfl

/-- The command level of one device is no registered command of another. -/
theorem level_unregistered (name other : CString) (command : Bytes) (clean : slash ∉ command)
    (same : mqttRoot ++ (other.bytes ++ lit "/cmd") = commandPrefix name ++ command) :
    Command.ofName command = none := by
  have level : mqttRoot ++ (other.bytes ++ lit "/cmd") =
      mqttRoot ++ other.bytes ++ slash :: lit "cmd" := by
    have ending : lit "/cmd" = slash :: lit "cmd" := by decide
    rw [ending, List.append_assoc]
  have cleanLevel : slash ∉ lit "cmd" := by decide
  have unregistered : Command.ofName (lit "cmd") = none := by decide
  rw [level, commandPrefix_level] at same
  obtain ⟨_, last⟩ := last_part_inj _ _ _ _ slash cleanLevel clean same
  rw [← last]
  exact unregistered

/-- No message has an effect on two devices. -/
theorem commands_apart (name other topic : CString) (payload : Bytes) (different : name ≠ other)
    (acted : verdict other topic payload ≠ .ignored) :
    verdict name topic payload = .ignored := by
  apply Classical.byContradiction
  intro both
  obtain ⟨command, value, parsed, registered⟩ := acted_command name topic payload both
  obtain ⟨otherCommand, otherValue, otherParsed, otherRegistered⟩ :=
    acted_command other topic payload acted
  rcases (addressed_some_iff name topic payload command value).mp parsed with
    ⟨form, clean, _⟩ | ⟨form, clean, cleanValue⟩
  · rcases (addressed_some_iff other topic payload otherCommand otherValue).mp otherParsed with
      ⟨otherForm, otherClean, _⟩ | ⟨otherForm, otherClean, otherCleanValue⟩
    · exact different (prefix_inj name other command otherCommand clean otherClean
        (form.symm.trans otherForm))
    · rw [form, commandPrefix_level, ← List.append_assoc (commandPrefix other)] at otherForm
      obtain ⟨front, _⟩ := last_part_inj _ _ _ _ slash clean otherCleanValue otherForm
      exact otherRegistered (level_unregistered other name otherCommand otherClean front)
  · rcases (addressed_some_iff other topic payload otherCommand otherValue).mp otherParsed with
      ⟨otherForm, otherClean, _⟩ | ⟨otherForm, otherClean, otherCleanValue⟩
    · rw [otherForm, commandPrefix_level, ← List.append_assoc (commandPrefix name)] at form
      obtain ⟨front, _⟩ := last_part_inj _ _ _ _ slash otherClean cleanValue form
      exact registered (level_unregistered name other command clean front)
    · rw [form, ← List.append_assoc, ← List.append_assoc] at otherForm
      obtain ⟨front, _⟩ := last_part_inj _ _ _ _ slash cleanValue otherCleanValue otherForm
      exact different (prefix_inj name other command otherCommand clean otherClean front)

/-- A device whose name is the command level of another switches that one's light. -/
theorem level_acts (name other : CString) (level : other.bytes = name.bytes ++ lit "/cmd") :
    ∃ topic payload, Published other topic.bytes payload ∧ ActsOn name topic payload := by
  have topic : statusTopic other .light = (commandTopic name (.change .light)).bytes := by
    have ending : commandEnd = lit "/cmd" ++ lit "/" := by decide
    show mqttRoot ++ other.bytes ++ (lit "/" ++ StatusField.light.name) =
      mqttRoot ++ name.bytes ++ commandEnd ++ StatusField.light.name
    rw [level, ending]
    simp
  have acted : request (.change .light) (lower (StatusField.light.text powerOn.g_whirpool)) ≠
      .ignored := by decide
  refine ⟨commandTopic name (.change .light), StatusField.light.text powerOn.g_whirpool, ?_, ?_⟩
  · rw [← topic]
    exact .status .light powerOn.g_whirpool
  · rw [actsOn_iff, verdict_commandTopic]
    exact acted

/-- The topic of a commit with an empty value in the topic. -/
def emptyCommit (name : CString) : CString where
  bytes := (commandTopic name .commit).bytes ++ [slash]
  nulFree := by
    have apart : (0 : UInt8) ∉ [slash] := by decide
    simp only [List.mem_append, not_or]
    exact ⟨(commandTopic name .commit).nulFree, apart⟩

/-- A device whose name goes one level further triggers commits of the other one. -/
theorem deeper_acts (name other : CString)
    (deeper : other.bytes = name.bytes ++ lit "/cmd/commit") :
    ∃ topic payload, Published other topic.bytes payload ∧ ActsOn name topic payload := by
  have topic : jsonTopic other = (emptyCommit name).bytes := by
    have ending : lit "/cmd/commit" = commandEnd ++ lit "commit" := by decide
    have last : lit "/" = [slash] := by decide
    show mqttRoot ++ other.bytes ++ lit "/" =
      mqttRoot ++ name.bytes ++ commandEnd ++ lit "commit" ++ [slash]
    rw [deeper, ending, last]
    simp
  have parsed (payload : Bytes) :
      addressed name (emptyCommit name) payload = some (lit "commit", []) := by
    refine (addressed_some_iff _ _ _ _ _).mpr (.inr ⟨?_, (command_name .commit).2, by simp⟩)
    exact List.append_assoc (commandPrefix name) (lit "commit") [slash]
  have commits : namedRequest (lit "commit") (lower []) ≠ .ignored := by decide
  refine ⟨emptyCommit name, powerOn.g_whirpool.getJson, ?_, ?_⟩
  · rw [← topic]
    exact .json powerOn.g_whirpool
  · rw [actsOn_iff, verdict, parsed]
    exact commits

/-- For every two different names: the first device is isolated from the second exactly
when the second name is neither the first with `/cmd` nor the first with `/cmd/commit`
behind it. -/
theorem isolated_iff (name other : CString) (different : name ≠ other) :
    Isolated name other ↔
      other.bytes ≠ name.bytes ++ lit "/cmd" ∧ other.bytes ≠ name.bytes ++ lit "/cmd/commit" := by
  constructor
  · intro isolated
    constructor
    · intro level
      obtain ⟨topic, payload, sent, acted⟩ := level_acts name other level
      exact isolated.published topic payload sent acted
    · intro deeper
      obtain ⟨topic, payload, sent, acted⟩ := deeper_acts name other deeper
      exact isolated.published topic payload sent acted
  · rintro ⟨level, deeper⟩
    constructor
    · intro topic payload sent acted
      exact (actsOn_iff name topic payload).mp acted
        (published_ignored name other topic payload sent level deeper)
    · intro topic payload otherActed acted
      exact (actsOn_iff name topic payload).mp acted
        (commands_apart name other topic payload different
          ((actsOn_iff other topic payload).mp otherActed))

/-- Two rooms are isolated, although one name continues the other. -/
theorem isolated_iff_rooms : Isolated (cStr (lit "salon")) (cStr (lit "salon/2")) :=
  (isolated_iff (cStr (lit "salon")) (cStr (lit "salon/2")) (by decide)).mpr (by decide)

/-- A device in the room whose light has been switched off. -/
def dark : World :=
  after (cStr (lit "salon")) (order (cStr (lit "salon")) (clock 8 0 0) (.change .light) (lit "off"))
    powerOn

/-- A device named like the command level of another one is not isolated from it: the
light status of the new device switches the other one's light on again. -/
theorem command_level_not_isolated :
    (¬ ∀ name other : CString, name.bytes.length ≤ 20 → other.bytes.length ≤ 20 → name ≠ other →
      Isolated name other) ∧
    ∃ (topic : CString) (payload : Bytes) (lighted : World),
      Published (cStr (lit "salon/cmd")) topic.bytes payload ∧
      Reachable (step (cStr (lit "salon"))) powerOn dark ∧
      (controller (cStr (lit "salon"))).onMessage topic payload payload.length 0 payload.length
        dark = .ok () lighted ∧
      dark.g_whirpool.getLight = false ∧ lighted.g_whirpool.getLight = true := by
  constructor
  · intro isolated
    have pair := isolated (cStr (lit "salon")) (cStr (lit "salon/cmd")) (by decide) (by decide)
      (by decide)
    obtain ⟨topic, payload, sent, acted⟩ :=
      level_acts (cStr (lit "salon")) (cStr (lit "salon/cmd")) (by decide)
    exact pair.published topic payload sent acted
  · have topic : statusTopic (cStr (lit "salon/cmd")) .light =
        (commandTopic (cStr (lit "salon")) (.change .light)).bytes := by decide
    have switched : request (.change .light) (lower (lit "On")) = .assign (.light true) := by
      decide
    refine ⟨commandTopic (cStr (lit "salon")) (.change .light), lit "On",
      assigned (controller (cStr (lit "salon"))) (.light true) dark, ?_, ?_, ?_, ?_, ?_⟩
    · rw [← topic]
      exact .status .light powerOn.g_whirpool
    · exact ⟨[order (cStr (lit "salon")) (clock 8 0 0) (.change .light) (lit "off")],
        (run_some_iff _ _ _ _).mpr ⟨by decide, rfl⟩⟩
    · rw [onMessage_run, verdict_commandTopic, switched]
      rfl
    · decide
    · decide

end WhirlpoolAc.NamespaceIsolation
