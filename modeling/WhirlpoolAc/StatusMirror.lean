import WhirlpoolAc.FrameInvariant

/-!
# Retained status topics as a mirror of the device

An observer of the broker sees the last retained payload of every topic. After a
connection each topic carries the text of its field; afterwards a handler publishes
one field topic and the whole state. The mirror therefore holds field by field as
long as the field's text is the enumerator's own name and every change of the field
is announced on its own topic.

Two fields fall short. The mode text only tells zero from the rest, so it names the
mode while the mode is one of the first two. The fan handler announces swing, so the
fan topic keeps the speed of the last connection. The invariant below records both,
and the mirror holds throughout a run exactly when neither shows.
-/

namespace WhirlpoolAc.StatusMirror

open ByteStrings CxxLibrary DecimalText FrameLayout AirConditioner Firmware MqttMessages
  CommandRequests TopicGrammar FieldEffects DeviceRuns WireFrames FrameInvariant PartialRuns

section Log

variable {κ ν : Type} [DecidableEq κ]

/-- The last value written to a key, given all writes in order. -/
def latest (key : κ) : List (κ × ν) → Option ν
  | [] => none
  | (written, value) :: rest =>
      (latest key rest).or (if written = key then some value else none)

/-- Later writes take precedence over earlier ones. -/
theorem latest_append (key : κ) (first second : List (κ × ν)) :
    latest key (first ++ second) = (latest key second).or (latest key first) := by
  induction first with
  | nil => simp [latest]
  | cons write rest ih => simp [latest, ih, Option.or_assoc]

end Log

/-- Topic and payload of a retained publication. -/
def retained : Packet → Option (Bytes × Bytes)
  | .publish topic _ true payload => some (topic, payload)
  | _ => none

/-- What the broker keeps for a topic when every packet is delivered in order. -/
def lastRetained (topic : Bytes) (sent : List Packet) : Option Bytes :=
  latest topic (sent.filterMap retained)

/-- A status is retained under its topic. -/
@[simp] theorem retained_statusPacket (name : CString) (field : StatusField) (ac : WhirlpoolYJ1B) :
    retained (statusPacket (controller name) field ac) =
      some (statusTopic name field, field.text ac) := rfl

/-- The object of the whole state is retained, too. -/
@[simp] theorem retained_jsonPacket (name : CString) (ac : WhirlpoolYJ1B) :
    retained (jsonPacket (controller name) ac) = some (jsonTopic name, ac.getJson) := rfl

/-- A subscription leaves nothing behind. -/
@[simp] theorem retained_subscribe (topic : Bytes) (qos : Nat) :
    retained (.subscribe topic qos) = none := rfl

/-- A commit report leaves nothing behind. -/
@[simp] theorem retained_commitedPacket (name : CString) (ac : WhirlpoolYJ1B) :
    retained (commitedPacket (controller name) ac) = none := rfl

/-- Packets sent later take precedence. -/
theorem lastRetained_append (topic : Bytes) (sent packets : List Packet) :
    lastRetained topic (sent ++ packets) =
      (lastRetained topic packets).or (lastRetained topic sent) := by
  rw [lastRetained, List.filterMap_append, latest_append]
  rfl

/-- What a connection retains. -/
theorem connected_retained (name : CString) (now : Tm) (ac : WhirlpoolYJ1B) :
    (∀ field, lastRetained (statusTopic name field) (Event.packets name (.connected now) ac) =
      some (field.text ac)) ∧
    lastRetained (jsonTopic name) (Event.packets name (.connected now) ac) = some ac.getJson := by
  constructor
  · intro field
    cases field <;>
      simp [lastRetained, Event.packets, initialPackets, List.filterMap_cons, latest,
        (statusTopic_ne_jsonTopic name _).symm]
  · simp [lastRetained, Event.packets, initialPackets, List.filterMap_cons, latest]

/-- What an accepted setting retains. -/
theorem assigned_retained (name : CString) (announced : StatusField) (ac : WhirlpoolYJ1B) :
    (∀ field, lastRetained (statusTopic name field)
        [statusPacket (controller name) announced ac, jsonPacket (controller name) ac] =
      if announced = field then some (field.text ac) else none) ∧
    lastRetained (jsonTopic name)
        [statusPacket (controller name) announced ac, jsonPacket (controller name) ac] =
      some ac.getJson := by
  constructor
  · intro field
    by_cases same : announced = field
    · subst same
      simp [lastRetained, latest, (statusTopic_ne_jsonTopic name _).symm]
    · simp [lastRetained, latest, same, (statusTopic_ne_jsonTopic name _).symm]
  · simp [lastRetained, latest]

/-- The text of a field depends on its bits only. -/
theorem text_congr (field : StatusField) (first second : WhirlpoolYJ1B)
    (same : first.field (bitsOf field) = second.field (bitsOf field)) :
    field.text first = field.text second := by
  cases field with
  | temperature =>
    simp only [bitsOf] at same
    simp only [StatusField.text, getTemperature_toNat, same]
  | _ =>
    simp only [bitsOf] at same
    simp only [StatusField.text, WhirlpoolYJ1B.getLight, WhirlpoolYJ1B.getPower,
      WhirlpoolYJ1B.getSwing, WhirlpoolYJ1B.getJet, WhirlpoolYJ1B.getSleep, WhirlpoolYJ1B.flag,
      same]

/-- The whole-state text depends on the bits of the eight fields only. -/
theorem getJson_congr (first second : WhirlpoolYJ1B)
    (same : ∀ field, first.field (bitsOf field) = second.field (bitsOf field)) :
    first.getJson = second.getJson := by
  have temperature := same .temperature
  have light := same .light
  have mode := same .mode
  have state := same .state
  have fan := same .fan
  have swing := same .swing
  have jet := same .jet
  have sleep := same .sleep
  simp only [bitsOf] at temperature light mode state fan swing jet sleep
  simp only [WhirlpoolYJ1B.getJson, WhirlpoolYJ1B.jsonDocument, getTemperature_toNat,
    WhirlpoolYJ1B.getLight, WhirlpoolYJ1B.getMode, WhirlpoolYJ1B.getPower, WhirlpoolYJ1B.getFan,
    WhirlpoolYJ1B.getJet, WhirlpoolYJ1B.getSwing, WhirlpoolYJ1B.getSleep, WhirlpoolYJ1B.flag,
    temperature, light, mode, state, fan, swing, jet, sleep]

/-- A setting leaves every field alone but the one it assigns. -/
theorem apply_bitsOf (setting : Setting) (ac : WhirlpoolYJ1B) (field : StatusField)
    (other : bitsOf field ≠ target setting) :
    (setting.apply ac).field (bitsOf field) = ac.field (bitsOf field) := by
  rw [apply_field, if_neg other]

/-- Apart from the fan handler, a handler announces the field it assigns. -/
theorem announced_target (setting : Setting) (field : StatusField) (notFan : field ≠ .fan)
    (silent : setting.announced ≠ field) : bitsOf field ≠ target setting := by
  revert notFan silent
  cases setting <;> cases field <;> simp [Setting.announced, bitsOf, target]

/-- What the broker holds while the device is connected: the texts of the current
state, except that the fan topic is as old as the connection. -/
structure Announced (name : CString) (connectedFan : Nat) (world : World) : Prop where
  json : lastRetained (jsonTopic name) world.sent = some world.g_whirpool.getJson
  current : ∀ field, field ≠ .fan →
    lastRetained (statusTopic name field) world.sent = some (field.text world.g_whirpool)
  fan : lastRetained (statusTopic name .fan) world.sent = some (fanName (fanOf connectedFan))

/-- A connection announces the current state. -/
theorem announced_connected (name : CString) (now : Tm) (world : World) :
    Announced name (world.g_whirpool.field .fan) (after name (.connected now) world) := by
  obtain ⟨fields, json⟩ := connected_retained name now world.g_whirpool
  have told (topic payload : Bytes)
      (fresh : lastRetained topic (Event.packets name (.connected now) world.g_whirpool) =
        some payload) :
      lastRetained topic (after name (.connected now) world).sent = some payload := by
    have sent : (after name (.connected now) world).sent =
        world.sent ++ Event.packets name (.connected now) world.g_whirpool := rfl
    rw [sent, lastRetained_append, fresh]
    rfl
  constructor
  · exact told _ _ json
  · intro field _
    exact told _ _ (fields field)
  · exact told _ _ (fields .fan)

/-- Events other than a connection. -/
def Lasting : Event → Prop
  | .connected _ => False
  | _ => True

/-- Nothing retained and no change of the eight fields keep the broker's picture. -/
theorem announced_quiet (name : CString) (fan : Nat) (world next : World)
    (holds : Announced name fan world)
    (same : ∀ field, next.g_whirpool.field (bitsOf field) = world.g_whirpool.field (bitsOf field))
    (quiet : ∀ topic, lastRetained topic next.sent = lastRetained topic world.sent) :
    Announced name fan next := by
  constructor
  · rw [quiet, holds.json, getJson_congr next.g_whirpool world.g_whirpool same]
  · intro field notFan
    rw [quiet, holds.current field notFan,
      text_congr field next.g_whirpool world.g_whirpool (same field)]
  · rw [quiet, holds.fan]

/-- An accepted setting keeps the broker's picture: it republishes the whole state and
the topic of the field it assigned, unless that field is the fan. -/
theorem announced_assigned (name : CString) (fan : Nat) (world next : World) (setting : Setting)
    (holds : Announced name fan world)
    (changed : next.g_whirpool = setting.apply world.g_whirpool)
    (told : next.sent = world.sent ++
      [statusPacket (controller name) setting.announced next.g_whirpool,
        jsonPacket (controller name) next.g_whirpool]) :
    Announced name fan next := by
  obtain ⟨fields, json⟩ := assigned_retained name setting.announced next.g_whirpool
  have notFan : setting.announced ≠ .fan := by cases setting <;> exact StatusField.noConfusion
  constructor
  · rw [told, lastRetained_append, json]
    rfl
  · intro field other
    rw [told, lastRetained_append, fields]
    by_cases same : setting.announced = field
    · rw [if_pos same]
      rfl
    · have kept := apply_bitsOf setting world.g_whirpool field
        (announced_target setting field other same)
      rw [if_neg same, holds.current field other,
        text_congr field next.g_whirpool world.g_whirpool (changed ▸ kept)]
      rfl
  · rw [told, lastRetained_append, fields, if_neg notFan, holds.fan]
    rfl

/-- Every event but a new connection keeps the broker's picture. -/
theorem announced_step (name : CString) (fan : Nat) (world next : World) (event : Event)
    (lasting : Lasting event) (holds : Announced name fan world)
    (stepped : step name world event = some next) : Announced name fan next := by
  obtain ⟨accepted, rfl⟩ := step_some name world next event stepped
  cases event with
  | connected now => exact absurd lasting id
  | restCommit now =>
    refine announced_quiet name fan world _ holds (setClock_bitsOf now world.g_whirpool) ?_
    intro topic
    exact lastRetained_append topic world.sent _
  | serialCommit now =>
    refine announced_quiet name fan world _ holds (setClock_bitsOf now world.g_whirpool) ?_
    intro topic
    exact lastRetained_append topic world.sent []
  | message now topic payload index total =>
    cases decided : verdict name topic payload with
    | ignored =>
      refine announced_quiet name fan world _ holds ?_ ?_
      · intro field
        simp [after, Event.request, decided, Request.change]
      · intro topic
        simp [after, Event.packets, decided, Request.packets]
    | overflow => exact absurd decided accepted
    | assign setting =>
      refine announced_assigned name fan world _ setting holds ?_ ?_
      · simp [after, Event.request, decided, Request.change]
      · simp [after, Event.request, Event.packets, decided, Request.change, Request.packets]
    | commit =>
      refine announced_quiet name fan world _ holds ?_ ?_
      · intro field
        simp [after, Event.request, decided, Request.change, setClock_bitsOf]
      · intro topic
        simp [after, Event.packets, decided, Request.packets, lastRetained, List.filterMap_cons]

/-- The mode a stored value stands for. -/
def modeOf : Nat → Mode
  | 0 => .Sense_6th
  | 1 => .Cool
  | 2 => .Dry
  | 3 => .Fan
  | _ => .Heat

/-- An enumerator's own name. -/
def modeName : Mode → Bytes
  | .Sense_6th => lit "Sense_6th"
  | .Cool => lit "Cool"
  | .Dry => lit "Dry"
  | .Fan => lit "Fan"
  | .Heat => lit "Heat"

/-- The name of a field's current value: the enumerator's own name for a mode, the
published text for every other field. -/
def ownName : StatusField → WhirlpoolYJ1B → Bytes
  | .mode, ac => modeName (modeOf (ac.field .mode))
  | field, ac => field.text ac

/-- The broker mirrors the device: every topic names the current value of its field,
the whole-state topic is current, and no other state has the same names. -/
structure Mirror (name : CString) (world : World) : Prop where
  json : lastRetained (jsonTopic name) world.sent = some world.g_whirpool.getJson
  named : ∀ field,
    lastRetained (statusTopic name field) world.sent = some (ownName field world.g_whirpool)
  recovers : ∀ ac : WhirlpoolYJ1B, WellFormed ac.field →
    (∀ field, lastRetained (statusTopic name field) world.sent = some (ownName field ac)) →
      ∀ field, ac.field (bitsOf field) = world.g_whirpool.field (bitsOf field)

/-- The mode text is the own name of the first two modes only. -/
theorem modeText_own_iff (mode : Nat) (inside : mode ≤ 4) :
    modeText mode = modeName (modeOf mode) ↔ mode ≤ 1 := by
  have every : ∀ mode < 5, modeText mode = modeName (modeOf mode) ↔ mode ≤ 1 := by decide
  exact every mode (Nat.lt_succ_of_le inside)

/-- Fan values have different names. -/
theorem fanName_inj (first second : Nat) (firstInside : first < 4) (secondInside : second < 4)
    (same : fanName (fanOf first) = fanName (fanOf second)) : first = second := by
  have every : ∀ first < 4, ∀ second < 4,
      fanName (fanOf first) = fanName (fanOf second) → first = second := by decide
  exact every first firstInside second secondInside same

/-- Modes have different names. -/
theorem modeName_inj (first second : Nat) (firstInside : first ≤ 4) (secondInside : second ≤ 4)
    (same : modeName (modeOf first) = modeName (modeOf second)) : first = second := by
  have every : ∀ first < 5, ∀ second < 5,
      modeName (modeOf first) = modeName (modeOf second) → first = second := by decide
  exact every first (Nat.lt_succ_of_le firstInside) second (Nat.lt_succ_of_le secondInside) same

/-- Numbers have different numerals. -/
theorem toString_inj (first second : Nat)
    (same : CxxLibrary.toString first = CxxLibrary.toString second) : first = second := by
  have read := congrArg numericPrefix same
  rw [numericPrefix_toString, numericPrefix_toString] at read
  exact Int.ofNat.inj (Option.some.inj read)

/-- Flags have different texts. -/
theorem onOffText_inj (first second : Bool) (same : onOffText first = onOffText second) :
    first = second := by
  revert same
  cases first <;> cases second <;> decide

/-- The own names of a well-formed state determine its eight fields. -/
theorem ownName_inj (first second : WhirlpoolYJ1B) (firstFormed : WellFormed first.field)
    (secondFormed : WellFormed second.field)
    (same : ∀ field, ownName field first = ownName field second) (field : StatusField) :
    first.field (bitsOf field) = second.field (bitsOf field) := by
  have flagged (name : BitField) (oneBit : name.size = 1)
      (equal : onOffText (first.flag name) = onOffText (second.flag name)) :
      first.field name = second.field name := by
    rw [← flag_toNat first name oneBit, ← flag_toNat second name oneBit, onOffText_inj _ _ equal]
  cases field with
  | temperature =>
    have shifted := toString_inj _ _ (same .temperature)
    rw [getTemperature_toNat, getTemperature_toNat] at shifted
    exact Nat.add_right_cancel shifted
  | mode => exact modeName_inj _ _ firstFormed.mode secondFormed.mode (same .mode)
  | fan => exact fanName_inj _ _ (readField_lt .fan _) (readField_lt .fan _) (same .fan)
  | light => exact flagged .light rfl (same .light)
  | state => exact flagged .power rfl (same .state)
  | swing => exact flagged .swing rfl (same .swing)
  | jet => exact flagged .jet rfl (same .jet)
  | sleep => exact flagged .sleep rfl (same .sleep)

/-- While the device stays connected, the broker mirrors it exactly when its mode is
one of the first two and its fan speed is that of the connection. -/
theorem mirror_iff (name : CString) (fan : Nat) (world : World) (small : fan < 4)
    (formed : WellFormed world.g_whirpool.field) (holds : Announced name fan world) :
    Mirror name world ↔
      world.g_whirpool.field .mode ≤ 1 ∧ world.g_whirpool.field .fan = fan := by
  constructor
  · intro mirror
    have modeTold := (holds.current .mode StatusField.noConfusion).symm.trans (mirror.named .mode)
    have fanTold := holds.fan.symm.trans (mirror.named .fan)
    constructor
    · exact (modeText_own_iff _ formed.mode).mp (Option.some.inj modeTold)
    · exact (fanName_inj fan _ small (readField_lt .fan _) (Option.some.inj fanTold)).symm
  · rintro ⟨mode, sameFan⟩
    have named (field : StatusField) : lastRetained (statusTopic name field) world.sent =
        some (ownName field world.g_whirpool) := by
      cases field with
      | mode =>
        rw [holds.current .mode StatusField.noConfusion]
        exact congrArg some ((modeText_own_iff _ formed.mode).mpr mode)
      | fan =>
        rw [holds.fan, ← sameFan]
        rfl
      | temperature => exact holds.current .temperature StatusField.noConfusion
      | light => exact holds.current .light StatusField.noConfusion
      | state => exact holds.current .state StatusField.noConfusion
      | swing => exact holds.current .swing StatusField.noConfusion
      | jet => exact holds.current .jet StatusField.noConfusion
      | sleep => exact holds.current .sleep StatusField.noConfusion
    refine ⟨holds.json, named, ?_⟩
    intro ac acFormed told
    exact ownName_inj ac world.g_whirpool acFormed formed fun field =>
      Option.some.inj ((told field).symm.trans (named field))

/-- A verdict leaves the mode one of the first two and the fan speed the given one. -/
def Faithful (fan : Nat) (request : Request) : Prop :=
  (∀ selected, request = .assign (.mode selected) → selected = .Sense_6th ∨ selected = .Cool) ∧
    ∀ speed, request = .assign (.fan speed) → speed = fanOf fan

/-- What a verdict does to mode and fan. -/
theorem change_mode_fan (now : Tm) (request : Request) (ac : WhirlpoolYJ1B) :
    (request.change now ac).field .mode =
        (match request with
          | .assign (.mode selected) => selected.tounderlying.toNat
          | _ => ac.field .mode) ∧
      (request.change now ac).field .fan =
        (match request with
          | .assign (.fan speed) => speed.tounderlying.toNat
          | _ => ac.field .fan) := by
  cases request with
  | ignored => exact ⟨rfl, rfl⟩
  | overflow => exact ⟨rfl, rfl⟩
  | commit => exact ⟨setClock_bitsOf now ac .mode, setClock_bitsOf now ac .fan⟩
  | assign setting =>
    simp only [Request.change, apply_field]
    cases setting <;> exact ⟨rfl, rfl⟩

/-- A verdict keeps mode and fan in the faithful range exactly when it is faithful. -/
theorem faithful_iff (now : Tm) (fan : Nat) (small : fan < 4) (request : Request)
    (ac : WhirlpoolYJ1B) (mode : ac.field .mode ≤ 1) (sameFan : ac.field .fan = fan) :
    ((request.change now ac).field .mode ≤ 1 ∧ (request.change now ac).field .fan = fan) ↔
      Faithful fan request := by
  obtain ⟨modeAfter, fanAfter⟩ := change_mode_fan now request ac
  have modes (selected : Mode) : selected.tounderlying.toNat ≤ 1 ↔
      selected = .Sense_6th ∨ selected = .Cool := by
    cases selected <;> decide
  have speeds (speed : Fan) : speed.tounderlying.toNat = fan ↔ speed = fanOf fan := by
    have every : ∀ fan < 4, speed.tounderlying.toNat = fan ↔ speed = fanOf fan := by
      cases speed <;> decide
    exact every fan small
  rw [modeAfter, fanAfter]
  unfold Faithful
  cases request with
  | assign setting => cases setting <;> simp [mode, sameFan, modes, speeds]
  | _ => simp [mode, sameFan]

/-- What a connected run keeps: the broker's picture, the frame and the faithful range. -/
structure Connected (name : CString) (fan : Nat) (world : World) : Prop where
  announced : Announced name fan world
  formed : WellFormed world.g_whirpool.field
  faithful : world.g_whirpool.field .mode ≤ 1 ∧ world.g_whirpool.field .fan = fan

/-- A faithful event keeps all of it. -/
theorem connected_step (name : CString) (fan : Nat) (small : fan < 4) (world next : World)
    (event : Event) (lasting : Lasting event) (faithful : Faithful fan (event.request name))
    (holds : Connected name fan world) (stepped : step name world event = some next) :
    Connected name fan next := by
  have announced := announced_step name fan world next event lasting holds.announced stepped
  have formed := wellFormed_step name world next event holds.formed stepped
  obtain ⟨_, rfl⟩ := step_some name world next event stepped
  exact ⟨announced, formed, (faithful_iff event.now fan small (event.request name)
    world.g_whirpool holds.faithful.1 holds.faithful.2).mpr faithful⟩

/-- A connected run of lasting events keeps the broker's picture and the frame. -/
theorem announced_run (name : CString) (fan : Nat) (events : List Event)
    (lasting : ∀ event ∈ events, Lasting event) (start final : World)
    (announced : Announced name fan start) (formed : WellFormed start.g_whirpool.field)
    (ran : run (step name) start events = some final) :
    Announced name fan final ∧ WellFormed final.g_whirpool.field := by
  refine run_invariant (step name) (fun world => Announced name fan world ∧
    WellFormed world.g_whirpool.field) events ?_ start final ⟨announced, formed⟩ ran
  intro world event next member holds stepped
  exact ⟨announced_step name fan world next event (lasting event member) holds.1 stepped,
    wellFormed_step name world next event holds.2 stepped⟩

/-- A mirror before and after an event is kept by a faithful verdict. -/
theorem faithful_of_mirror (name : CString) (fan : Nat) (small : fan < 4) (world next : World)
    (event : Event) (lasting : Lasting event) (announced : Announced name fan world)
    (formed : WellFormed world.g_whirpool.field) (before : Mirror name world)
    (stepped : step name world event = some next) (mirrored : Mirror name next) :
    Faithful fan (event.request name) := by
  have told := announced_step name fan world next event lasting announced stepped
  have kept := wellFormed_step name world next event formed stepped
  obtain ⟨mode, sameFan⟩ := (mirror_iff name fan world small formed announced).mp before
  have range := (mirror_iff name fan next small kept told).mp mirrored
  obtain ⟨_, rfl⟩ := step_some name world next event stepped
  exact (faithful_iff event.now fan small (event.request name) world.g_whirpool mode sameFan).mp
    range

/-- From a connection on, in every completed run of messages and commits, the broker
mirrors the device after the connection and after every event exactly when the mode
is `Sense_6th` or `Cool` at the connection, no message selects another mode and no
message selects a fan speed other than that of the connection. -/
theorem mirror_throughout_iff (name : CString) (start final : World) (now : Tm)
    (events : List Event) (reachable : Reachable (step name) powerOn start)
    (lasting : ∀ event ∈ events, Lasting event)
    (ran : run (step name) start (.connected now :: events) = some final) :
    (∀ played rest, events = played ++ rest → ∀ world,
      run (step name) start (.connected now :: played) = some world → Mirror name world) ↔
      start.g_whirpool.field .mode ≤ 1 ∧
        ∀ event ∈ events, Faithful (start.g_whirpool.field .fan) (event.request name) := by
  have small : start.g_whirpool.field .fan < 4 := readField_lt .fan start.g_whirpool.m_data
  have formed := wellFormed_reachable name start reachable
  obtain ⟨connection, stepped, ranEvents⟩ := (run_cons _ _ _ _ _).mp ran
  obtain ⟨_, rfl⟩ := step_some name start connection (.connected now) stepped
  have announced := announced_connected name now start
  have fromConnection (played : List Event) (world : World)
      (ran : run (step name) (after name (.connected now) start) played = some world) :
      run (step name) start (.connected now :: played) = some world :=
    (run_cons _ _ _ _ _).mpr ⟨_, stepped, ran⟩
  constructor
  · intro mirrored
    have first := mirrored [] events rfl _ (fromConnection [] _ rfl)
    have range := (mirror_iff name _ (after name (.connected now) start) small formed announced).mp
      first
    refine ⟨range.1, ?_⟩
    intro event member
    obtain ⟨before, rest, split⟩ := List.append_of_mem member
    obtain ⟨world, next, ranBefore, eventStepped, ranThrough⟩ :=
      run_through (step name) _ final before rest event (split ▸ ranEvents)
    have lastingBefore : ∀ event ∈ before, Lasting event := fun event member =>
      lasting event (split ▸ List.mem_append_left _ member)
    obtain ⟨told, kept⟩ := announced_run name _ before lastingBefore _ world announced formed
      ranBefore
    exact faithful_of_mirror name _ small world next event (lasting event member) told kept
      (mirrored before (event :: rest) split world (fromConnection before world ranBefore))
      eventStepped
      (mirrored (before ++ [event]) rest (by simp [split]) next
        (fromConnection (before ++ [event]) next ranThrough))
  · rintro ⟨mode, faithful⟩ played rest split world ranPlayed
    obtain ⟨_, sameStep, ranPlayed⟩ := (run_cons _ _ _ _ _).mp ranPlayed
    cases stepped.symm.trans sameStep
    have connected : Connected name (start.g_whirpool.field .fan) world := by
      refine run_invariant (step name) (Connected name (start.g_whirpool.field .fan)) played ?_ _
        world ⟨announced, formed, mode, rfl⟩ ranPlayed
      intro world event next member holds stepped
      have played : event ∈ events := split ▸ List.mem_append_left rest member
      exact connected_step name _ small world next event (lasting event played)
        (faithful event played) holds stepped
    exact (mirror_iff name _ world small connected.formed connected.announced).mpr
      connected.faithful

/-- A swing command, a temperature step and the sixth-sense mode. -/
def smallChanges : List Event :=
  [order (cStr (lit "salon")) (clock 8 0 0) (.change .swing) (lit "ON"),
    order (cStr (lit "salon")) (clock 8 1 0) (.change .temperature) (lit "up"),
    order (cStr (lit "salon")) (clock 8 2 0) (.change .mode) (lit "0")]

/-- These changes are mirrored throughout, in particular at their end. -/
theorem mirror_throughout_iff_smallChanges :
    ∃ world, run (step (cStr (lit "salon"))) powerOn (.connected (clock 7 0 0) :: smallChanges) =
        some world ∧ Mirror (cStr (lit "salon")) world := by
  have ran := (run_some_iff (cStr (lit "salon")) powerOn _
    (.connected (clock 7 0 0) :: smallChanges)).mpr ⟨by decide, rfl⟩
  have lasting : ∀ event ∈ smallChanges, Lasting event := by
    simp [smallChanges, order, Lasting]
  have swing : request (.change .swing) (lower (lit "ON")) = .assign (.swing true) := by decide
  have up : request (.change .temperature) (lower (lit "up")) = .assign .warmer := by decide
  have mode : request (.change .mode) (lower (lit "0")) = .assign (.mode .Sense_6th) := by decide
  have throughout := (mirror_throughout_iff (cStr (lit "salon")) powerOn _ (clock 7 0 0)
    smallChanges ⟨[], rfl⟩ lasting ran).mpr
      ⟨by decide, by simp [smallChanges, swing, up, mode, Faithful]⟩
  exact ⟨_, ran, throughout smallChanges [] (List.append_nil _).symm _ ran⟩

/-- After a change of the fan speed the fan topic still names the old one. -/
theorem fan_change_unmirrored :
    ¬ ∀ (name : CString) (now : Tm) (events : List Event) (world : World),
      (∀ event ∈ events, Lasting event) →
        run (step name) powerOn (.connected now :: events) = some world → Mirror name world := by
  intro always
  have ran := (run_some_iff (cStr (lit "salon")) powerOn _
    [.connected (clock 7 0 0),
      order (cStr (lit "salon")) (clock 8 0 0) (.change .fan) (lit "1")]).mpr
      ⟨by decide, rfl⟩
  have mirror := always _ _ _ _ (by simp [order, Lasting]) ran
  have told := mirror.named .fan
  revert told
  decide

end WhirlpoolAc.StatusMirror
