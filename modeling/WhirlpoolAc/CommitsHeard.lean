import WhirlpoolAc.HeardFrames
import WhirlpoolAc.RecordRefinement
import WhirlpoolAc.ReferenceDecoder

/-!
# From the command to the listening script

The device is told what to do, transmits on each commit, and a receiver with a recorder
listens. The script behind the recorder prints for every commit, except the first one that
it needs to learn how long a command is, what the abstract device sent at that commit.

Encoder, sender, air, decoder and printer meet in this statement; none of them knows
another's layout of the frame.
-/

namespace WhirlpoolAc.CommitsHeard

open ByteStrings CxxLibrary FrameLayout AirConditioner Firmware MqttMessages FieldEffects
  PulseSender PulseDecoder IrLink DecoderResync HeardFrames WireFrames DeviceRuns AbstractDevice
  RecordRefinement ReferenceDecoder PartialRuns CommandRequests

universe u
variable {κ : Type u}

/-- The script's name of a field. -/
def entry : StatusField → Bytes
  | .temperature => lit "Temperature"
  | .light => lit "Light"
  | .mode => lit "Mode"
  | .state => lit "Power"
  | .fan => lit "Fan"
  | .swing => lit "Swing"
  | .jet => lit "Jet"
  | .sleep => lit "Sleep"

/-- The word for a mode on the screen. -/
def modeWord : Mode → Bytes
  | .Sense_6th => lit "6th Sense"
  | .Cool => lit "Cool"
  | .Dry => lit "Dry"
  | .Fan => lit "Fan"
  | .Heat => lit "Heat"

/-- What the screen shows for a fan speed. -/
def fanShown : Fan → Shown
  | .Auto => .text (lit "Auto")
  | .V1 => .number 1
  | .V2 => .number 2
  | .V3 => .number 3

/-- What is on the screen for a record. -/
def displayed (record : Record) : StatusField → Shown
  | .temperature => .number record.temperature.degrees
  | .light => .flag record.light
  | .mode => .text (modeWord record.mode)
  | .state => .flag record.power
  | .fan => fanShown record.fan
  | .swing => .flag record.swing
  | .jet => .flag record.jet
  | .sleep => .flag record.sleep

/-- The printed entries show the record. -/
def Displays (protocol : Map Bytes Shown) (record : Record) : Prop :=
  ∀ field, protocol.find (entry field) = some (displayed record field)

/-- Shift and mask at the place of a field read the record's value. -/
theorem represented_bits (ac : WhirlpoolYJ1B) (record : Record) (represents : Represents ac record)
    (field : StatusField) :
    (ac.m_data[(bitsOf field).place.word].toNat >>> (bitsOf field).place.low) &&&
      (2 ^ (bitsOf field).size - 1) = record.encode field :=
  (shift_mask ac (bitsOf field)).trans (represents field)

/-- A number is a flag of the script exactly as the flag it came from. -/
theorem bool_toNat (flag : Bool) : bool flag.toNat = flag := by
  cases flag <;> rfl

/-- For every frame that represents a record, the script prints the record. -/
theorem printCommon_displays (ac : WhirlpoolYJ1B) (record : Record)
    (represents : Represents ac record) :
    ∃ protocol, printCommon (frameBytes ac) (frameRawBits ac) = some protocol ∧
      Displays protocol record := by
  have byte := frameBytes_getElem ac
  have raw := frameRawBits_getElem ac
  have bits := represented_bits ac record represents
  have flag (field : StatusField) (on : Bool) (read : Nat) (same : read = record.encode field)
      (encoded : record.encode field = on.toNat) : Shown.flag (bool read) = .flag on := by
    rw [same, encoded, bool_toNat]
  have mode : getMode (ac.m_data[0].toNat &&& 0b111) = displayed record .mode := by
    have read : ac.m_data[0].toNat &&& 0b111 = record.encode .mode :=
      (mask_only ac .mode rfl).trans (represents .mode)
    rw [read, displayed]
    show getMode record.mode.tounderlying.toNat = _
    cases record.mode <;> rfl
  have fan : getFan ((ac.m_data[0].toNat >>> 4) &&& 0b11) = displayed record .fan := by
    have read : (ac.m_data[0].toNat >>> 4) &&& 0b11 = record.encode .fan := bits .fan
    rw [read, displayed]
    show getFan record.fan.tounderlying.toNat = _
    cases record.fan <;> rfl
  have power := flag .state record.power ((ac.m_data[0].toNat >>> 3) &&& 0b1) (bits .state) rfl
  have swing := flag .swing record.swing ((ac.m_data[0].toNat >>> 6) &&& 0b1) (bits .swing) rfl
  have sleep := flag .sleep record.sleep ((ac.m_data[0].toNat >>> 7) &&& 0b1) (bits .sleep) rfl
  have jet := flag .jet record.jet ((ac.m_data[6].toNat >>> 4) &&& 0b1) (bits .jet) rfl
  have light := flag .light record.light ((ac.m_data[6].toNat >>> 5) &&& 0b1) (bits .light) rfl
  have temperature : (ac.m_data[1].toNat &&& 0b1111) + 16 = record.temperature.degrees := by
    have read : ac.m_data[1].toNat &&& 0b1111 = record.temperature.degrees - 16 :=
      (mask_only ac .temperature rfl).trans (represents .temperature)
    have inside := record.temperature.inside
    omega
  refine ⟨?protocol, ?printed, ?entries⟩
  case printed =>
    simp only [printCommon, byte 0 (by decide), byte 1 (by decide), byte 2 (by decide),
      byte 3 (by decide), byte 4 (by decide), byte 5 (by decide), byte 6 (by decide),
      byte 7 (by decide), raw 3 (by decide), raw 6 (by decide), raw 7 (by decide)]
    rfl
  case entries =>
    intro field
    cases field with
    | temperature => exact congrArg (fun degrees => some (Shown.number degrees)) temperature
    | light => exact congrArg some light
    | mode => exact congrArg some mode
    | state => exact congrArg some power
    | fan => exact congrArg some fan
    | swing => exact congrArg some swing
    | jet => exact congrArg some jet
    | sleep => exact congrArg some sleep

/-- What a stamped frame carries, its controller represents. -/
theorem represents_of_carries (time : Tm) (ac : WhirlpoolYJ1B) (record : Record)
    (carries : Carries (stamped time ac) record) : Represents (setClock time ac) record :=
  fun field => (carried_stamped time ac (bitsOf field)).symm.trans (carries field)

/-- A stamped frame is sent with its header and its stop mark. -/
theorem stamped_signals (time : Tm) (ac : WhirlpoolYJ1B) :
    (stamped time ac).signals = frame (wire (stamped time ac)) := rfl

/-- A stamped frame has 68 bits. -/
theorem stamped_length (time : Tm) (ac : WhirlpoolYJ1B) :
    (wire (stamped time ac)).length = 68 := by
  rw [wire, bitsFrom, List.length_map, List.length_range']
  rfl

/-- The callback of a command prints the frame from the delivered bytes and bits. -/
theorem onCommand_stamped (time : Tm) (ac : WhirlpoolYJ1B) :
    onCommand (bytesOf (wire (stamped time ac))) ((wire (stamped time ac)).map Bool.toNat) =
      (printCommon (frameBytes (setClock time ac)) (frameRawBits (setClock time ac))).map
        .common := by
  let data := (setClock time ac).m_data.toList
  have bits : wire (stamped time ac) = bitsFrom data 0 68 := rfl
  have size : 68 ≤ 8 * data.length := by simp [data]
  have bytes : bytesOf (bitsFrom data 0 68) = maskedPrefix data 68 :=
    (packed_bytes (bitsFrom data 0 68)).symm.trans (pack_bits data 68 (by decide) size)
  have raw := bitsFrom_rawBit data 68
  rw [bits, bytes, raw, onCommand, if_pos (by rw [List.length_map, List.length_range])]
  rfl

/-- What the screen shows for one transmission that carries a record. -/
theorem onCommand_carries (transmission : Transmission) (record : Record)
    (form : ∃ time ac, transmission = stamped time ac) (carries : Carries transmission record) :
    ∃ protocol, Displays protocol record ∧
      onCommand (bytesOf (wire transmission)) ((wire transmission).map Bool.toNat) =
        some (.common protocol) := by
  obtain ⟨time, ac, rfl⟩ := form
  obtain ⟨protocol, printed, displays⟩ := printCommon_displays (setClock time ac) record
    (represents_of_carries time ac record carries)
  refine ⟨protocol, displays, ?_⟩
  rw [onCommand_stamped, printed]
  rfl

/-- What the screen shows for transmissions that carry records, one by one. -/
theorem onCommand_all (callbacks : List κ) (transmissions : List Transmission)
    (records : List Record)
    (form : ∀ transmission ∈ transmissions, ∃ time ac, transmission = stamped time ac)
    (carries : List.Forall₂ Carries transmissions records) :
    ∃ protocols, List.Forall₂ Displays protocols records ∧
      ((transmissions.flatMap fun transmission => deliveries callbacks (wire transmission)).map
        fun call => (call.clb, onCommand call.bytes call.receiveData)) =
        protocols.flatMap fun protocol =>
          callbacks.map fun clb => (clb, some (Report.common protocol)) := by
  induction carries with
  | nil => exact ⟨[], .nil, rfl⟩
  | @cons transmission record rest others first later ih =>
    obtain ⟨here, there⟩ := List.forall_mem_cons.mp form
    obtain ⟨protocol, displays, printed⟩ := onCommand_carries transmission record here first
    obtain ⟨protocols, all, shown⟩ := ih there
    refine ⟨protocol :: protocols, .cons displays all, ?_⟩
    rw [List.flatMap_cons, List.map_append, shown, List.flatMap_cons, deliveries, List.map_map]
    congr 1
    exact List.map_congr_left fun clb _ => congrArg (Prod.mk clb) printed

/-- For every completed run of proper events and every recording of its transmissions, each
interval off by up to fifteen percent: the script calls every callback for each
commit but the first, once and in order, and what it prints is the record that the abstract
device sent at that commit. -/
theorem commits_heard (name : CString) (callbacks : List κ) (events : List Event)
    (proper : ∀ event ∈ events, Event.Proper name event) (world : World)
    (ran : run (step name) powerOn events = some world) (recordings : List Recording)
    (recorded : List.Forall₂ (fun transmission => Records transmission.signals)
      world.transmissions recordings) :
    ∃ protocols,
      List.Forall₂ Displays protocols
        (events.foldl (Shadow.step name) Shadow.initial).frames.tail ∧
      (((fresh callbacks).feed (tape recordings)).2.map fun call =>
        (call.clb, onCommand call.bytes call.receiveData)) =
        protocols.flatMap fun protocol =>
          callbacks.map fun clb => (clb, some (Report.common protocol)) := by
  have simulated := run_simulates (step name) (Shadow.step name) (Simulates name) events
    (fun world shadow event next member holds =>
      simulates_step name world next shadow event (proper event member) holds)
    powerOn world Shadow.initial (simulates_powerOn name) ran
  have form : ∀ transmission ∈ world.transmissions,
      ∃ time ac, transmission = stamped time ac := by
    intro transmission member
    have stamps := (run_controllers name (fun _ => True) (fun _ _ _ => trivial)
      (fun _ _ _ => trivial) trivial events world ran).2 transmission member
    obtain ⟨time, ac, _, same⟩ := stamps
    exact ⟨time, ac, same⟩
  have signals : (world.transmissions.map fun transmission => transmission.signals) =
      (world.transmissions.map wire).map frame := by
    rw [List.map_map]
    refine List.map_congr_left fun transmission member => ?_
    obtain ⟨time, ac, rfl⟩ := form transmission member
    exact stamped_signals time ac
  have framed : List.Forall₂ (fun bits => Records (frame bits)) (world.transmissions.map wire)
      recordings := by
    have sent := List.forall₂_map_left_iff.mpr recorded
    rw [signals] at sent
    exact List.forall₂_map_left_iff.mp sent
  have sized : ∀ bits ∈ world.transmissions.map wire, bits.length = 68 := by
    intro bits member
    obtain ⟨transmission, among, rfl⟩ := List.mem_map.mp member
    obtain ⟨time, ac, rfl⟩ := form transmission among
    exact stamped_length time ac
  have calls := fresh_tape callbacks 68 (by decide) _ recordings framed sized
  rw [calls, ← List.map_tail, List.flatMap_map]
  have carried := List.forall₂_drop 1 simulated.frames
  rw [List.drop_one, List.drop_one] at carried
  exact onCommand_all callbacks world.transmissions.tail _
    (fun transmission member => form transmission (List.mem_of_mem_tail member)) carried

/-- A transmission recorded without any error. -/
def exactly (transmission : Transmission) : Recording := ⟨transmission.signals, 20000⟩

/-- It is recorded. -/
theorem exactly_records (transmissions : List Transmission) :
    List.Forall₂ (fun transmission => Records transmission.signals) transmissions
      (transmissions.map exactly) := by
  rw [List.forall₂_map_right_iff, List.forall₂_same]
  exact fun transmission _ => ⟨near_refl transmission.signals, (by decide : 11000 < 20000)⟩

/-- The temperatures of the evening are a number and a step. -/
theorem evening_proper : ∀ event ∈ evening, Event.Proper (cStr (lit "salon")) event := by
  simp only [evening, List.forall_mem_cons, List.not_mem_nil, false_imp_iff, implies_true,
    and_true]
  refine ⟨order_proper _ _ _ _ (by simp), order_proper _ _ _ _ fun _ => ?_, trivial,
    order_proper _ _ _ _ fun _ => ?_, order_proper _ _ _ _ (by simp)⟩
  · exact .inr (.inr ⟨255, by decide, by decide⟩)
  · exact .inr (.inl (by decide))

/-- The evening, recorded without any error: the screen shows the second commit. -/
theorem commits_heard_evening :
    ∃ world, run (step (cStr (lit "salon"))) powerOn evening = some world ∧
      ∃ protocol,
        Displays protocol { Record.initial with mode := .Heat, temperature := .nearest 29 } ∧
        (((fresh ["print"]).feed (tape (world.transmissions.map exactly))).2.map fun call =>
            (call.clb, onCommand call.bytes call.receiveData)) =
          [("print", some (Report.common protocol))] := by
  have ran := (run_some_iff (cStr (lit "salon")) powerOn _ evening).mpr
    ⟨fun event member => proper_accepted _ event (evening_proper event member), rfl⟩
  refine ⟨_, ran, ?_⟩
  obtain ⟨protocols, displays, printed⟩ := commits_heard (cStr (lit "salon")) ["print"] evening
    evening_proper _ ran _ (exactly_records _)
  have frames : (evening.foldl (Shadow.step (cStr (lit "salon"))) Shadow.initial).frames.tail =
      [{ Record.initial with mode := .Heat, temperature := .nearest 29 }] := by decide
  rw [frames] at displays
  cases displays with
  | cons shown none =>
    cases none
    exact ⟨_, shown, printed⟩

end WhirlpoolAc.CommitsHeard
