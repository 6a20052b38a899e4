import WhirlpoolAc.AbstractDevice
import WhirlpoolAc.EscapingExceptions
import WhirlpoolAc.WireFrames

/-!
# The controller refines the abstract device

A controller represents a record when each of the eight fields holds the bits of the
record's value. Power-on represents the initial record. An accepted setting assigns
exactly the bits of the overwritten value, and a clock stamp touches none of the
eight fields, so every reaction keeps the representation; frames and commit reports
follow the abstract machine one by one.

The simulation asks one thing of the surroundings: a temperature must be a step word
or a decimal number up to 255. The code reads more texts as temperatures, and some
of them fail.
-/

namespace WhirlpoolAc.RecordRefinement

open ByteStrings CxxLibrary DecimalText FrameLayout JsonText AirConditioner Firmware MqttMessages
  CommandRequests TopicGrammar FieldEffects DeviceRuns WireFrames AbstractDevice
  EscapingExceptions PartialRuns

/-- The controller holds the bits of the record. -/
def Represents (ac : WhirlpoolYJ1B) (record : Record) : Prop :=
  ∀ field, ac.field (bitsOf field) = record.encode field

/-- The transmitted frame carries the bits of the record. -/
def Carries (transmission : Transmission) (record : Record) : Prop :=
  ∀ field, carried transmission (bitsOf field) = record.encode field

/-- A folded temperature value of the agreed form. -/
def Proper (value : Bytes) : Prop :=
  value = lit "up" ∨ value = lit "down" ∨ ∃ degrees ≤ 255, numeral value = some degrees

/-- A message that, if it addresses the temperature, has a value of that form. -/
def Event.Proper (name : CString) : Event → Prop
  | .message _ topic payload _ _ =>
      ∀ value, addressed name topic payload = some (lit "temperature", value) →
        RecordRefinement.Proper (lower value)
  | _ => True

/-- The payload of a commit report. -/
def reported (name : CString) : Packet → Option Bytes
  | .publish topic _ _ payload => if topic = commitedTopic name then some payload else none
  | _ => none

/-- Different fields have different bits. -/
theorem bitsOf_inj (first second : StatusField) :
    bitsOf first = bitsOf second ↔ first = second := by
  cases first <;> cases second <;> decide

/-- A text of digits only converts to the number it denotes. -/
theorem numericPrefix_numeral (value : Bytes) (degrees : Nat)
    (denotes : numeral value = some degrees) : numericPrefix value = some (degrees : Int) := by
  unfold numeral at denotes
  split at denotes
  · next digits =>
    have all := List.all_eq_true.mp digits.2
    have run (bytes : Bytes) (all : ∀ byte ∈ bytes, (digitValue byte).isSome) :
        digitRun digitValue bytes = bytes.filterMap digitValue := by
      induction bytes with
      | nil => rfl
      | cons first rest ih =>
        obtain ⟨digit, found⟩ := Option.isSome_iff_exists.mp (all first List.mem_cons_self)
        simp [digitRun, found, ih fun byte member => all byte (List.mem_cons_of_mem _ member)]
    cases value with
    | nil => exact absurd rfl digits.1
    | cons first rest =>
      obtain ⟨digit, found⟩ := Option.isSome_iff_exists.mp (all first List.mem_cons_self)
      have plain : isSpace first = false ∧ first ≠ 45 ∧ first ≠ 43 := digit_plain first digit found
      have unsigned : unsignedPrefix (first :: rest) = some degrees := by
        rw [unsignedPrefix, run _ all, if_neg (by simp [found])]
        exact denotes
      rw [numericPrefix_digit first rest plain, unsigned]
      rfl
  · cases denotes

/-- A proper numeral is accepted as its number. -/
theorem numeralRequest_numeral (value : Bytes) (degrees : Nat) (small : degrees ≤ 255)
    (denotes : numeral value = some degrees) :
    numeralRequest value = .assign (.temperature (UInt8.ofNat degrees)) := by
  have fits : FitsInt degrees := by
    unfold FitsInt
    omega
  have byte : toUInt8 (degrees : Int) = UInt8.ofNat degrees := by
    rw [toUInt8]
    congr 1
    omega
  rw [numeralRequest, numericPrefix_numeral value degrees denotes]
  simp only [if_pos fits, byte]

/-- A setting that assigns the bits of the overwritten value keeps the representation. -/
theorem represents_assign (ac : WhirlpoolYJ1B) (record : Record) (value : Bytes)
    (field : StatusField) (setting : Setting) (holds : Represents ac record)
    (aims : target setting = bitsOf field)
    (assigned : stored (ac.field .temperature) setting = (record.accept value field).encode field) :
    Represents (setting.apply ac) (record.accept value field) := by
  intro other
  rw [apply_field, aims]
  by_cases same : other = field
  · rw [if_pos (congrArg bitsOf same), assigned, same]
  · have apart : bitsOf other ≠ bitsOf field := fun equal => same ((bitsOf_inj _ _).mp equal)
    rw [if_neg apart, holds other, accept_other record value field other same]

/-- How a verdict on a field's command agrees with the record: both ignore the value,
or the controller takes it over in the same field. -/
def Agrees (ac : WhirlpoolYJ1B) (record : Record) (value : Bytes) (field : StatusField) : Prop :=
  (request (.change field) value = .ignored ∧ record.accept value field = record) ∨
    ∃ setting, request (.change field) value = .assign setting ∧
      Represents (setting.apply ac) (record.accept value field)

/-- A table command agrees when every entry assigns the bits of the accepted value. -/
theorem agrees_table {ν : Type} (ac : WhirlpoolYJ1B) (record : Record) (value : Bytes)
    (field : StatusField) (table : Map Bytes ν) (setting : ν → Setting) (set : ν → Record)
    (holds : Represents ac record)
    (tabled : request (.change field) value = tableRequest table setting value)
    (accepts : record.accept value field = (table.find value).elim record set)
    (aims : ∀ entry, target (setting entry) = bitsOf field)
    (assigned : ∀ entry,
      stored (ac.field .temperature) (setting entry) = (set entry).encode field) :
    Agrees ac record value field := by
  cases lookup : table.find value with
  | none =>
    left
    rw [tabled, accepts, tableRequest, lookup]
    exact ⟨rfl, rfl⟩
  | some entry =>
    right
    refine ⟨setting entry, by rw [tabled, tableRequest, lookup], ?_⟩
    refine represents_assign ac record value field (setting entry) holds (aims entry) ?_
    rw [accepts, lookup, assigned entry]
    rfl

/-- Every command with a proper value agrees with the record. -/
theorem agrees (ac : WhirlpoolYJ1B) (record : Record) (value : Bytes) (field : StatusField)
    (holds : Represents ac record) (proper : field = .temperature → Proper value) :
    Agrees ac record value field := by
  cases field with
  | temperature =>
    have raw : ac.field .temperature = record.temperature.degrees - 16 := holds .temperature
    have inside := record.temperature.inside
    right
    rcases proper rfl with up | down | ⟨degrees, small, denotes⟩
    · subst up
      refine ⟨.warmer, rfl, represents_assign ac record _ .temperature .warmer holds rfl ?_⟩
      have sum : ac.field .temperature + 17 = record.temperature.degrees + 1 := by omega
      rw [stored, sum]
      rfl
    · subst down
      refine ⟨.cooler, rfl, represents_assign ac record _ .temperature .cooler holds rfl ?_⟩
      have difference : ac.field .temperature + 15 = record.temperature.degrees - 1 := by omega
      rw [stored, difference]
      rfl
    · have notUp : value ≠ lit "up" := by
        rintro rfl
        cases denotes
      have notDown : value ≠ lit "down" := by
        rintro rfl
        cases denotes
      refine ⟨.temperature (UInt8.ofNat degrees), ?_,
        represents_assign ac record _ .temperature _ holds rfl ?_⟩
      · rw [request, temperatureRequest, if_neg notUp, if_neg notDown]
        exact numeralRequest_numeral value degrees small denotes
      · have byte : (UInt8.ofNat degrees).toNat = degrees := by
          rw [UInt8.toNat_ofNat']
          omega
        simp only [Record.accept, if_neg notUp, if_neg notDown, denotes, stored, byte]
        rfl
  | light =>
    exact agrees_table ac record value .light onoffMap .light _ holds rfl rfl (fun _ => rfl)
      fun _ => rfl
  | mode =>
    exact agrees_table ac record value .mode modeMap .mode _ holds rfl rfl (fun _ => rfl)
      fun _ => rfl
  | state =>
    exact agrees_table ac record value .state onoffMap .state _ holds rfl rfl (fun _ => rfl)
      fun _ => rfl
  | fan =>
    exact agrees_table ac record value .fan fanMap .fan _ holds rfl rfl (fun _ => rfl)
      fun _ => rfl
  | swing =>
    exact agrees_table ac record value .swing onoffMap .swing _ holds rfl rfl (fun _ => rfl)
      fun _ => rfl
  | jet =>
    exact agrees_table ac record value .jet onoffMap .jet _ holds rfl rfl (fun _ => rfl)
      fun _ => rfl
  | sleep =>
    exact agrees_table ac record value .sleep onoffMap .sleep _ holds rfl rfl (fun _ => rfl)
      fun _ => rfl

/-- The document of a controller, member by member. -/
theorem jsonDocument_eq (ac : WhirlpoolYJ1B) :
    ac.jsonDocument =
      [(lit "temperature", .unsigned ac.getTemperature.toNat), (lit "light", .boolean ac.getLight),
        (lit "mode", .unsigned ac.getMode.toNat), (lit "state", .boolean ac.getPower),
        (lit "fan", .unsigned ac.getFan.toNat), (lit "jet", .boolean ac.getJet),
        (lit "swing", .boolean ac.getSwing), (lit "sleep", .boolean ac.getSleep)] := rfl

/-- A represented record and its controller are written alike. -/
theorem represents_json (ac : WhirlpoolYJ1B) (record : Record) (holds : Represents ac record) :
    ac.getJson = record.json := by
  have flagged (name : BitField) (on : Bool) (bits : ac.field name = on.toNat) :
      ac.flag name = on := by
    rw [WhirlpoolYJ1B.flag, bits]
    cases on <;> rfl
  have light : ac.getLight = record.light := flagged .light _ (holds .light)
  have power : ac.getPower = record.power := flagged .power _ (holds .state)
  have swing : ac.getSwing = record.swing := flagged .swing _ (holds .swing)
  have jet : ac.getJet = record.jet := flagged .jet _ (holds .jet)
  have sleep : ac.getSleep = record.sleep := flagged .sleep _ (holds .sleep)
  have mode : ac.getMode = record.mode.tounderlying := by
    have bits : ac.field .mode = record.mode.tounderlying.toNat := holds .mode
    rw [WhirlpoolYJ1B.getMode, bits, UInt8.ofNat_toNat]
  have fan : ac.getFan = record.fan.tounderlying := by
    have bits : ac.field .fan = record.fan.tounderlying.toNat := holds .fan
    rw [WhirlpoolYJ1B.getFan, bits, UInt8.ofNat_toNat]
  have temperature : ac.getTemperature.toNat = record.temperature.degrees := by
    have bits : ac.field .temperature = record.temperature.degrees - 16 := holds .temperature
    have inside := record.temperature.inside
    rw [getTemperature_toNat, bits]
    omega
  rw [WhirlpoolYJ1B.getJson, jsonDocument_eq, light, power, swing, jet, sleep, mode, fan,
    temperature]
  rfl

/-- A clock stamp keeps the representation. -/
theorem represents_setClock (time : Tm) (ac : WhirlpoolYJ1B) (record : Record)
    (holds : Represents ac record) : Represents (setClock time ac) record := by
  intro field
  rw [setClock_bitsOf, holds field]

/-- A stamped frame carries the represented record. -/
theorem carries_stamped (time : Tm) (ac : WhirlpoolYJ1B) (record : Record)
    (holds : Represents ac record) : Carries (stamped time ac) record := by
  intro field
  rw [carried_stamped, represents_setClock time ac record holds field]

/-- The simulation relation: the record is represented, the frames carry the sent
records one by one, and the reports are those of the reported records. -/
structure Simulates (name : CString) (world : World) (shadow : Shadow) : Prop where
  represents : Represents world.g_whirpool shadow.record
  frames : List.Forall₂ Carries world.transmissions shadow.frames
  reports : world.sent.filterMap (reported name) = shadow.reports.map Record.json

/-- Power-on is simulated by the initial record. -/
theorem simulates_powerOn (name : CString) : Simulates name powerOn Shadow.initial := by
  refine ⟨?_, .nil, rfl⟩
  intro field
  cases field <;> decide

/-- No status packet is a commit report. -/
theorem reported_packets (name : CString) (ac : WhirlpoolYJ1B) :
    (∀ field, reported name (statusPacket (controller name) field ac) = none) ∧
      reported name (jsonPacket (controller name) ac) = none ∧
      reported name (commitedPacket (controller name) ac) = some ac.getJson := by
  obtain ⟨fields, whole⟩ := commitedTopic_apart name
  refine ⟨?_, if_neg whole, if_pos rfl⟩
  intro field
  exact if_neg (fields field)

/-- A commit from any source extends the frames by the record. -/
theorem frames_commit (now : Tm) (world : World) (shadow : Shadow)
    (represents : Represents world.g_whirpool shadow.record)
    (frames : List.Forall₂ Carries world.transmissions shadow.frames) :
    List.Forall₂ Carries (world.transmissions ++ [stamped now world.g_whirpool])
      (shadow.frames ++ [shadow.record]) :=
  List.rel_append frames (.cons (carries_stamped now _ _ represents) .nil)

/-- An ignored message leaves both sides as they are. -/
theorem simulates_ignored (name topic : CString) (payload : Bytes) (index total : Nat) (now : Tm)
    (world : World) (shadow : Shadow) (holds : Simulates name world shadow)
    (decided : verdict name topic payload = .ignored) :
    Simulates name (after name (.message now topic payload index total) world) shadow := by
  constructor
  · simpa [after, Event.request, decided, Request.change] using holds.represents
  · simpa [after, Event.request, decided, Request.frames] using holds.frames
  · simpa [after, Event.packets, decided, Request.packets] using holds.reports

/-- A field's command keeps the simulation when the verdict agrees with the record. -/
theorem simulates_change (name topic : CString) (payload value : Bytes) (index total : Nat)
    (now : Tm) (field : StatusField) (world : World) (shadow : Shadow)
    (holds : Simulates name world shadow)
    (decided : verdict name topic payload = request (.change field) value)
    (agreed : Agrees world.g_whirpool shadow.record value field) :
    Simulates name (after name (.message now topic payload index total) world)
      (shadow.obey value (.change field)) := by
  rcases agreed with ⟨ignored, kept⟩ | ⟨setting, accepted, represents⟩
  · have same : shadow.obey value (.change field) = shadow := by
      rw [Shadow.obey, kept]
    rw [same]
    exact simulates_ignored name topic payload index total now world shadow holds
      (decided.trans ignored)
  · have assigns : verdict name topic payload = .assign setting := decided.trans accepted
    obtain ⟨statusSilent, jsonSilent, _⟩ := reported_packets name (setting.apply world.g_whirpool)
    constructor
    · simpa [after, Event.request, assigns, Request.change, Shadow.obey] using represents
    · simpa [after, Event.request, assigns, Request.frames, Shadow.obey] using holds.frames
    · simpa [after, Event.request, Event.packets, assigns, Request.change, Request.packets,
        Shadow.obey, statusSilent, jsonSilent, List.filterMap_cons] using holds.reports

/-- A commit command keeps the simulation: one frame and one report. -/
theorem simulates_commit (name topic : CString) (payload value : Bytes) (index total : Nat)
    (now : Tm) (world : World) (shadow : Shadow) (holds : Simulates name world shadow)
    (decided : verdict name topic payload = .commit) :
    Simulates name (after name (.message now topic payload index total) world)
      (shadow.obey value .commit) := by
  have stampedRecord := represents_setClock now world.g_whirpool shadow.record holds.represents
  obtain ⟨_, _, told⟩ := reported_packets name (setClock now world.g_whirpool)
  have json := represents_json _ _ stampedRecord
  constructor
  · simpa [after, Event.request, Event.now, decided, Request.change, Shadow.obey, Shadow.commit,
      Shadow.report] using stampedRecord
  · simpa [after, Event.request, Event.now, decided, Request.frames, Shadow.obey, Shadow.commit,
      Shadow.report] using frames_commit now world shadow holds.represents holds.frames
  · simp [after, Event.request, Event.packets, Event.now, decided, Request.change,
      Request.packets, Shadow.obey, Shadow.commit, Shadow.report, told, json, holds.reports]

/-- A message is simulated by the abstract reaction to it. -/
theorem simulates_message (name topic : CString) (payload : Bytes) (index total : Nat) (now : Tm)
    (world : World) (shadow : Shadow) (holds : Simulates name world shadow)
    (proper : ∀ value, addressed name topic payload = some (lit "temperature", value) →
      Proper (lower value)) :
    Simulates name (after name (.message now topic payload index total) world)
      (shadow.step name (.message now topic payload index total)) := by
  cases parsed : addressed name topic payload with
  | none =>
    have decided : verdict name topic payload = .ignored := by
      simp only [verdict, parsed]
    simp only [Shadow.step, parsed]
    exact simulates_ignored name topic payload index total now world shadow holds decided
  | some found =>
    obtain ⟨word, value⟩ := found
    have decided : verdict name topic payload = namedRequest word (lower value) := by
      simp only [verdict, parsed]
    cases registered : Command.ofName word with
    | none =>
      simp only [namedRequest, registered] at decided
      simp only [Shadow.step, parsed, registered, Option.elim]
      exact simulates_ignored name topic payload index total now world shadow holds decided
    | some command =>
      simp only [namedRequest, registered] at decided
      simp only [Shadow.step, parsed, registered, Option.elim]
      cases command with
      | commit =>
        exact simulates_commit name topic payload _ index total now world shadow holds decided
      | change field =>
        refine simulates_change name topic payload _ index total now field world shadow holds
          decided (agrees _ _ _ field holds.represents ?_)
        rintro rfl
        have sameWord : (Command.change .temperature).name = word := by
          simpa using List.find?_some registered
        subst sameWord
        exact proper value parsed

/-- Every reaction to a proper event is simulated. -/
theorem simulates_step (name : CString) (world next : World) (shadow : Shadow) (event : Event)
    (proper : Event.Proper name event) (holds : Simulates name world shadow)
    (stepped : step name world event = some next) :
    Simulates name next (shadow.step name event) := by
  obtain ⟨_, rfl⟩ := step_some name world next event stepped
  cases event with
  | message now topic payload index total =>
    exact simulates_message name topic payload index total now world shadow holds proper
  | connected now =>
    obtain ⟨statusSilent, jsonSilent, _⟩ := reported_packets name world.g_whirpool
    have subscribed (topic : Bytes) (qos : Nat) : reported name (.subscribe topic qos) = none := rfl
    constructor
    · exact holds.represents
    · simpa [after, Event.request, Request.frames, Shadow.step] using holds.frames
    · simpa [after, Event.request, Event.packets, Request.change, initialPackets, Shadow.step,
        statusSilent, jsonSilent, subscribed, List.filterMap_cons] using holds.reports
  | restCommit now =>
    constructor
    · exact represents_setClock now _ _ holds.represents
    · exact frames_commit now world shadow holds.represents holds.frames
    · simpa [after, Event.packets, Shadow.step, Shadow.commit, reported, List.filterMap_cons]
        using holds.reports
  | serialCommit now =>
    constructor
    · exact represents_setClock now _ _ holds.represents
    · exact frames_commit now world shadow holds.represents holds.frames
    · simpa [after, Event.packets, Shadow.step, Shadow.commit] using holds.reports

/-- A proper event is never refused. -/
theorem proper_accepted (name : CString) (event : Event) (proper : Event.Proper name event) :
    event.request name ≠ .overflow := by
  cases event with
  | message now topic payload index total =>
    intro overflow
    obtain ⟨value, parsed, number, denotes, large⟩ :=
      (verdict_overflow_iff name topic payload).mp overflow
    have folded : numericPrefix (lower value) = some number :=
      (numericPrefix_lower value).trans denotes
    rcases proper value parsed with up | down | ⟨degrees, small, decimal⟩
    · rw [up] at folded
      cases folded
    · rw [down] at folded
      cases folded
    · rw [numericPrefix_numeral _ degrees decimal] at folded
      apply large
      cases folded
      unfold FitsInt
      omega
  | _ => exact Request.noConfusion

/-- An order is proper when a temperature it carries is. -/
theorem order_proper (name : CString) (now : Tm) (command : Command) (value : Bytes)
    (formed : command = .change .temperature → Proper (lower value)) :
    Event.Proper name (order name now command value) := by
  intro found parsed
  rw [addressed_commandTopic] at parsed
  have same := Prod.mk.inj (Option.some.inj parsed)
  have named : Command.ofName command.name = Command.ofName (lit "temperature") :=
    congrArg Command.ofName same.1
  rw [(command_name command).1] at named
  rw [← same.2]
  exact formed (Option.some.inj named)

/-- A mode number, a decimal setpoint beyond the range, a step and commits. -/
def evening : List Event :=
  [order (cStr (lit "salon")) (clock 20 0 0) (.change .mode) (lit "4"),
    order (cStr (lit "salon")) (clock 20 0 5) (.change .temperature) (lit "255"),
    .restCommit (clock 20 1 0),
    order (cStr (lit "salon")) (clock 20 2 0) (.change .temperature) (lit "Down"),
    order (cStr (lit "salon")) (clock 20 3 0) .commit (lit "now")]

end WhirlpoolAc.RecordRefinement
