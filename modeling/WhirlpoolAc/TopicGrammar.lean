import WhirlpoolAc.CommandRequests

/-!
# The grammar of command topics

The reference parser takes the command prefix of a device off the front of the
topic. A rest without slash names a command whose value is the payload; a rest
with one slash names a command and its value; every other topic is not addressed
to the device.

The source tests that the prefix occurs anywhere but cuts at its length. The two
agree: when the prefix occurs only later, the cut leaves a suffix of an occurrence
of it in front, so the first part is one of four words that name no command or
the rest has more than two parts. The argument uses only the fixed end `/cmd/`
of the prefix and holds for every device name.
-/

namespace WhirlpoolAc.TopicGrammar

open ByteStrings CxxLibrary SequenceSearch Firmware MqttMessages CommandRequests SplitString

/-- The separator of topic levels. -/
def slash : UInt8 := 47

/-- The fixed end of every command prefix. -/
def commandEnd : Bytes := lit "/cmd/"

/-- The prefix of all command topics of a device. -/
def commandPrefix (name : CString) : Bytes := mqttRoot ++ name.bytes ++ commandEnd

/-- Command word and raw value of a topic behind its prefix. -/
def addressedRest (rest payload : Bytes) : Option (Bytes × Bytes) :=
  match rest.splitOn slash with
  | [command] => some (command, payload)
  | [command, value] => some (command, value)
  | _ => none

/-- The reference parser: command word and raw value of a message, if it is
addressed to the device at all. -/
def addressed (name topic : CString) (payload : Bytes) : Option (Bytes × Bytes) :=
  if commandPrefix name <+: topic.bytes then
    addressedRest (topic.bytes.drop (commandPrefix name).length) payload
  else none

/-- The verdict on a whole message. -/
def verdict (name topic : CString) (payload : Bytes) : Request :=
  match addressed name topic payload with
  | some (command, value) => namedRequest command (lower value)
  | none => .ignored

/-- What addresses a rest without slash. -/
theorem addressedRest_some_iff (rest payload command value : Bytes) :
    addressedRest rest payload = some (command, value) ↔
      (rest = command ∧ slash ∉ command ∧ value = payload) ∨
        (rest = command ++ slash :: value ∧ slash ∉ command ∧ slash ∉ value) := by
  rw [← splitOn_pair_iff, addressedRest]
  have whole := splitOn_single_iff rest command slash
  cases parts : rest.splitOn slash with
  | nil => exact absurd parts (List.splitOn_ne_nil slash rest)
  | cons first others =>
    rw [parts] at whole
    cases others with
    | nil =>
      simp only [List.cons.injEq, and_true] at whole
      simp [← and_assoc, ← whole, eq_comm]
    | cons second more =>
      simp only [List.cons.injEq, reduceCtorEq, and_false, false_iff, not_and] at whole
      cases more with
      | nil => simpa [← and_assoc] using fun same clean => absurd clean (whole same)
      | cons third rest' => simpa [← and_assoc] using fun same clean => absurd clean (whole same)

/-- With at least five bytes in front, the whole end of the prefix survives the cut. -/
theorem cut_far (before stem after : Bytes) (far : 5 ≤ before.length) :
    ∃ kept, (before ++ (stem ++ commandEnd) ++ after).drop (stem ++ commandEnd).length =
      kept ++ commandEnd ++ after := by
  refine ⟨(before ++ stem).drop (stem.length + 5), ?_⟩
  have reach : stem.length + 5 ≤ (before ++ stem).length := by
    simp only [List.length_append]
    omega
  have size : (stem ++ commandEnd).length = stem.length + 5 := by
    rw [List.length_append]
    rfl
  rw [size, ← List.append_assoc, List.append_assoc (before ++ stem),
    List.drop_append_of_le_length reach, List.append_assoc]

/-- With fewer bytes in front, exactly as many bytes of the end survive. -/
theorem cut_near (before stem after : Bytes) (near : before.length < 5) :
    (before ++ (stem ++ commandEnd) ++ after).drop (stem ++ commandEnd).length =
      commandEnd.drop (5 - before.length) ++ after := by
  have size : (stem ++ commandEnd).length = stem.length + 5 := by
    rw [List.length_append]
    rfl
  have front : (before ++ stem).drop (stem.length + 5) = [] := by
    rw [List.drop_eq_nil_iff, List.length_append]
    omega
  have left : stem.length + 5 - (before ++ stem).length = 5 - before.length := by
    rw [List.length_append]
    omega
  have short : 5 - before.length ≤ commandEnd.length := Nat.sub_le _ _
  rw [size, ← List.append_assoc, List.append_assoc (before ++ stem), List.drop_append, front, left,
    List.nil_append, List.drop_append_of_le_length short]

/-- A proper end of `/cmd/` is an unregistered word and the final slash. -/
theorem commandEnd_word (kept : Nat) (positive : 0 < kept) (short : kept < 5) :
    ∃ word, commandEnd.drop (5 - kept) = word ++ [slash] ∧ slash ∉ word ∧
      Command.ofName word = none := by
  have every : ∀ kept < 5, 0 < kept →
      commandEnd.drop (5 - kept) = (lit "/cmd").drop (5 - kept) ++ [slash] ∧
        slash ∉ (lit "/cmd").drop (5 - kept) ∧
          Command.ofName ((lit "/cmd").drop (5 - kept)) = none := by
    decide
  exact ⟨_, every kept short positive⟩

/-- When the prefix occurs behind other text, the cut does not expose a command.

The cut removes as many bytes as the prefix has. A text of fewer than five bytes in
front leaves a proper end of `/cmd/`, whose word is not registered; a longer one
leaves all of it and with it more slashes than a command allows. -/
theorem misplaced_unregistered (before stem after payload command value : Bytes)
    (late : before ≠ [])
    (parsed : addressedRest
      ((before ++ (stem ++ commandEnd) ++ after).drop (stem ++ commandEnd).length) payload =
        some (command, value)) :
    Command.ofName command = none := by
  rw [addressedRest_some_iff] at parsed
  by_cases far : 5 ≤ before.length
  · exfalso
    obtain ⟨kept, cut⟩ := cut_far before stem after far
    have slashes : commandEnd.count slash = 2 := by decide
    rw [cut] at parsed
    rcases parsed with ⟨whole, clean, _⟩ | ⟨whole, cleanCommand, cleanValue⟩
    · have counted := congrArg (List.count slash) whole
      simp only [List.count_append, slashes, List.count_eq_zero.mpr clean] at counted
      omega
    · have counted := congrArg (List.count slash) whole
      simp only [List.count_append, slashes, List.count_cons_self,
        List.count_eq_zero.mpr cleanCommand, List.count_eq_zero.mpr cleanValue] at counted
      omega
  · have near : before.length < 5 := Nat.lt_of_not_le far
    obtain ⟨word, ends, cleanWord, unregistered⟩ :=
      commandEnd_word before.length (List.length_pos_of_ne_nil late) near
    have cut : (before ++ (stem ++ commandEnd) ++ after).drop (stem ++ commandEnd).length =
        word ++ slash :: after := by
      rw [cut_near before stem after near, ends]
      simp
    rw [cut] at parsed
    rcases parsed with ⟨whole, clean, _⟩ | ⟨whole, cleanCommand, _⟩
    · exact absurd (whole ▸ List.mem_append_right word List.mem_cons_self) clean
    · have parts := congrArg (List.splitOn slash) whole
      rw [List.splitOn_append_cons_self_of_not_mem cleanWord,
        List.splitOn_append_cons_self_of_not_mem cleanCommand] at parts
      exact (List.cons.inj parts).1 ▸ unregistered

/-- A part of a NUL-free topic passes unchanged through a bare pointer. -/
theorem cStr_part (topic : CString) (part : Bytes) (contained : ∀ byte ∈ part, byte ∈ topic.bytes) :
    (cStr part).bytes = part :=
  upToNul_of_nulFree part fun zero => topic.nulFree (contained 0 zero)

/-- The parts found behind the cut are processed as the grammar reads them. -/
theorem parts_run (name topic : CString) (rest payload : Bytes) (world : World)
    (contained : ∀ byte ∈ rest, byte ∈ topic.bytes) :
    (match rest.splitOn slash with
      | [command] => (controller name).proceedCommand (cStr command).bytes payload
      | [command, value] => (controller name).proceedCommand (cStr command).bytes value
      | _ => pure ()) world =
      perform (controller name) world
        (match addressedRest rest payload with
          | some (command, value) => namedRequest command (lower value)
          | none => .ignored) := by
  rw [addressedRest]
  cases parts : rest.splitOn slash with
  | nil => exact absurd parts (List.splitOn_ne_nil slash rest)
  | cons command others =>
    cases others with
    | nil =>
      have whole := (splitOn_single_iff rest command slash).mp parts
      have kept : (cStr command).bytes = command :=
        cStr_part topic command fun byte member => contained byte (whole.1 ▸ member)
      simp [kept, proceedCommand_run]
    | cons value more =>
      cases more with
      | nil =>
        have pair := (splitOn_pair_iff rest command value slash).mp parts
        have kept : (cStr command).bytes = command :=
          cStr_part topic command fun byte member =>
            contained byte (pair.1 ▸ List.mem_append_left _ member)
        simp [kept, proceedCommand_run]
      | cons third last => rfl

/-- Parsing a message performs the verdict of the reference parser.

A topic without the prefix is dropped. Otherwise the cut and the split succeed; at
position zero they are the reference parser, and anywhere else they expose no
registered command, so both sides ignore the message. -/
theorem parseMessage_run (name topic : CString) (payload : Bytes) (world : World) :
    (controller name).parseMessage topic payload world =
      perform (controller name) world (verdict name topic payload) := by
  have device : (controller name).m_device ++ lit "/cmd/" = commandPrefix name := rfl
  simp only [MqttClientForIR.parseMessage, device, verdict, addressed]
  by_cases occurs : commandPrefix name <:+: topic.bytes
  · have found : find topic.bytes (commandPrefix name) 0 ≠ none := by
      rw [ne_eq, find_zero_none_iff]
      exact not_not_intro occurs
    have long : (commandPrefix name).length ≤ topic.bytes.length := occurs.length_le
    have cut : CxxLibrary.substr topic.bytes (commandPrefix name).length none =
        .ok (topic.bytes.drop (commandPrefix name).length) := by
      simp [CxxLibrary.substr, SequenceSearch.substr, long]
    have split : splitString (topic.bytes.drop (commandPrefix name).length) (lit "/") =
        .ok ((topic.bytes.drop (commandPrefix name).length).splitOn slash) :=
      splitString_single _ slash
    have run := parts_run name topic (topic.bytes.drop (commandPrefix name).length) payload world
      fun byte => List.mem_of_mem_drop
    rw [if_neg found]
    simp only [bind_run, cut, rethrow_ok, split]
    refine run.trans ?_
    by_cases front : commandPrefix name <+: topic.bytes
    · rw [if_pos front]
    · rw [if_neg front]
      obtain ⟨before, after, split⟩ := occurs
      have late : before ≠ [] := by
        rintro rfl
        exact front ⟨after, by simpa using split⟩
      cases parsed : addressedRest (topic.bytes.drop (commandPrefix name).length) payload with
      | none => rfl
      | some found =>
        have unregistered : Command.ofName found.1 = none :=
          misplaced_unregistered before (mqttRoot ++ name.bytes) after payload found.1 found.2 late
            (by rw [← parsed, ← split]; rfl)
        simp [namedRequest, unregistered]
  · have missing : find topic.bytes (commandPrefix name) 0 = none :=
      (find_zero_none_iff _ _).mpr occurs
    have notFront : ¬ commandPrefix name <+: topic.bytes := fun front => occurs front.isInfix
    rw [if_pos missing, if_neg notFront]
    rfl

/-- The two forms of an addressed message, without reference to a split. -/
theorem addressed_some_iff (name topic : CString) (payload command value : Bytes) :
    addressed name topic payload = some (command, value) ↔
      (topic.bytes = commandPrefix name ++ command ∧ slash ∉ command ∧ value = payload) ∨
        (topic.bytes = commandPrefix name ++ (command ++ slash :: value) ∧ slash ∉ command ∧
          slash ∉ value) := by
  by_cases front : commandPrefix name <+: topic.bytes
  · obtain ⟨rest, split⟩ := front
    rw [addressed, if_pos ⟨rest, split⟩, ← split, List.drop_left, addressedRest_some_iff,
      List.append_cancel_left_eq, List.append_cancel_left_eq]
  · rw [addressed, if_neg front]
    constructor
    · intro impossible
      cases impossible
    · rintro (⟨whole, _⟩ | ⟨whole, _⟩)
      · exact absurd ⟨command, whole.symm⟩ front
      · exact absurd ⟨_, whole.symm⟩ front

/-- The topic of a command, without a value in it. -/
def commandTopic (name : CString) (command : Command) : CString where
  bytes := commandPrefix name ++ command.name
  nulFree := by
    have fixed : (0 : UInt8) ∉ mqttRoot ∧ (0 : UInt8) ∉ commandEnd := by decide
    have word : (0 : UInt8) ∉ command.name := by
      cases command with
      | change field => cases field <;> decide
      | commit => decide
    simp [commandPrefix, fixed, word, name.nulFree]

/-- A registered word is found again and contains no slash. -/
theorem command_name (command : Command) :
    Command.ofName command.name = some command ∧ slash ∉ command.name := by
  cases command with
  | change field => cases field <;> decide
  | commit => decide

/-- A command topic addresses its command with the payload as value. -/
theorem addressed_commandTopic (name : CString) (command : Command) (payload : Bytes) :
    addressed name (commandTopic name command) payload = some (command.name, payload) :=
  (addressed_some_iff _ _ _ _ _).mpr (.inl ⟨rfl, (command_name command).2, rfl⟩)

/-- A message to a command topic is judged by its payload. -/
theorem verdict_commandTopic (name : CString) (command : Command) (payload : Bytes) :
    verdict name (commandTopic name command) payload = request command (lower payload) := by
  simp only [verdict, addressed_commandTopic, namedRequest, (command_name command).1]

/-- Run the handler registered under a word, if there is one. -/
def runCommand (name : CString) (command value : Bytes) : Fw Unit :=
  match Command.ofName command with
  | some known => handler (controller name) known value
  | none => pure ()

/-- Running a word performs its verdict. -/
theorem runCommand_run (name : CString) (command value : Bytes) (world : World) :
    runCommand name command value world =
      perform (controller name) world (namedRequest command value) := by
  rw [runCommand, namedRequest]
  cases Command.ofName command with
  | none => rfl
  | some known => exact handler_run name known value world

/-- An addressed message runs its command on the folded value. -/
theorem parseMessage_addressed (name topic : CString) (payload command value : Bytes)
    (world : World) (parsed : addressed name topic payload = some (command, value)) :
    (controller name).parseMessage topic payload world =
      runCommand name command (lower value) world := by
  rw [parseMessage_run, verdict, parsed, runCommand_run]

/-- The topic parser accepts exactly its grammar, for every device name, topic,
payload and program state: a command with its value in the payload, a command with
its value in the topic, and nothing else. Words other than the nine registered ones
have no effect, and the two ways to deliver a value are equivalent. -/
theorem parser_accepts_grammar (name topic : CString) (payload : Bytes) (world : World) :
    (∀ command, slash ∉ command → topic.bytes = commandPrefix name ++ command →
      (controller name).parseMessage topic payload world =
        runCommand name command (lower payload) world) ∧
    (∀ command value, slash ∉ command → slash ∉ value →
      topic.bytes = commandPrefix name ++ (command ++ slash :: value) →
      (controller name).parseMessage topic payload world =
        runCommand name command (lower value) world) ∧
    ((∀ command, slash ∉ command → topic.bytes ≠ commandPrefix name ++ command) →
      (∀ command value, slash ∉ command → slash ∉ value →
        topic.bytes ≠ commandPrefix name ++ (command ++ slash :: value)) →
      (controller name).parseMessage topic payload world = .ok () world) ∧
    (∀ command value, (∀ known ∈ commands, known.name ≠ command) →
      runCommand name command value world = .ok () world) ∧
    (∀ (short : CString) (command value : Bytes), slash ∉ command → slash ∉ value →
      short.bytes = commandPrefix name ++ command →
      topic.bytes = commandPrefix name ++ (command ++ slash :: value) →
      (controller name).parseMessage topic payload world =
        (controller name).parseMessage short value world) := by
  have inPayload (topic : CString) (payload command : Bytes) (clean : slash ∉ command)
      (whole : topic.bytes = commandPrefix name ++ command) :
      (controller name).parseMessage topic payload world =
        runCommand name command (lower payload) world :=
    parseMessage_addressed name topic payload command payload world
      ((addressed_some_iff _ _ _ _ _).mpr (.inl ⟨whole, clean, rfl⟩))
  have inTopic (command value : Bytes) (clean : slash ∉ command) (cleanValue : slash ∉ value)
      (whole : topic.bytes = commandPrefix name ++ (command ++ slash :: value)) :
      (controller name).parseMessage topic payload world =
        runCommand name command (lower value) world :=
    parseMessage_addressed name topic payload command value world
      ((addressed_some_iff _ _ _ _ _).mpr (.inr ⟨whole, clean, cleanValue⟩))
  refine ⟨fun command clean whole => inPayload topic payload command clean whole, inTopic,
    ?_, ?_, ?_⟩
  · intro noPayloadForm noTopicForm
    rw [parseMessage_run, verdict]
    cases parsed : addressed name topic payload with
    | none => rfl
    | some found =>
      exfalso
      rcases (addressed_some_iff name topic payload found.1 found.2).mp parsed with
        ⟨whole, clean, _⟩ | ⟨whole, clean, cleanValue⟩
      · exact noPayloadForm found.1 clean whole
      · exact noTopicForm found.1 found.2 clean cleanValue whole
  · intro command value unregistered
    have absent : Command.ofName command = none := by
      simpa [Command.ofName] using unregistered
    simp [runCommand, absent]
  · intro short command value clean cleanValue shortForm longForm
    rw [inTopic command value clean cleanValue longForm,
      inPayload short value command clean shortForm]

end WhirlpoolAc.TopicGrammar
