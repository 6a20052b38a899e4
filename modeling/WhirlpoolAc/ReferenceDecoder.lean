import WhirlpoolAc.FieldEffects
import WhirlpoolAc.IrLink

/-!
# The reference decoder of frames

The receiving script prints a frame of 68 bits entry by entry. It reads most entries
from the bytes, by shifts and masks, and the three flags of the first byte that follow
the mode and the fan from the raw bits, by index. The encoder places its fields by the
order of their declaration. On the eight control fields both agree, for every content of
the nine bytes: shift and mask select exactly the place of the field.
-/

namespace WhirlpoolAc.ReferenceDecoder

open ByteStrings CxxLibrary FrameLayout PackedFields AirConditioner FieldEffects IrLink

/-- A printed value. -/
inductive Shown where
  | text (words : Bytes)
  | number (value : Nat)
  | flag (value : Bool)
deriving DecidableEq

/-- The names of the halves of the day. -/
def getAMPM : Nat → Shown
  | 0 => .text (lit "AM")
  | 1 => .text (lit "PM")
  | other => .number other

/-- The one fan speed with a name. -/
def getFan : Nat → Shown
  | 0 => .text (lit "Auto")
  | other => .number other

/-- The names of the modes. -/
def getMode : Nat → Shown
  | 0 => .text (lit "6th Sense")
  | 1 => .text (lit "Cool")
  | 2 => .text (lit "Dry")
  | 3 => .text (lit "Fan")
  | 4 => .text (lit "Heat")
  | other => .number other

/-- `bool` of a number. -/
def bool (number : Nat) : Bool := number != 0

/-- The printed entries, in the order of their assignment; none when an index is out of
range. The mask of the timer's minutes is applied after the shift and clears them all. -/
def printCommon (data rawData : List Nat) : Option (Map Bytes Shown) := do
  let data0 ← data[0]?
  let data1 ← data[1]?
  let data2 ← data[2]?
  let data3 ← data[3]?
  let data4 ← data[4]?
  let data5 ← data[5]?
  let data6 ← data[6]?
  let data7 ← data[7]?
  let rawData3 ← rawData[3]?
  let rawData6 ← rawData[6]?
  let rawData7 ← rawData[7]?
  pure
    [(lit "Mode", getMode (data0 &&& 0b111)),
      (lit "Power", .flag (bool rawData3)),
      (lit "Fan", getFan ((data0 >>> 4) &&& 0b11)),
      (lit "Swing", .flag (bool rawData6)),
      (lit "Sleep", .flag (bool rawData7)),
      (lit "Temperature", .number ((data1 &&& 0b1111) + 16)),
      (lit "Clock: 4SecondsInterval", .number (((data1 >>> 4) &&& 0b1111) * 4)),
      (lit "Clock: Minutes", .number (data2 &&& 0b111111)),
      (lit "Clock: Hours", .number (data3 &&& 0b1111)),
      (lit "Clock:", getAMPM ((data2 >>> 6) &&& 0b1)),
      (lit "Timer Off: Minutes", .number (data5 &&& 0b111111)),
      (lit "Timer Off: Hours", .number (data6 &&& 0b1111)),
      (lit "Timer Off:", getAMPM ((data5 >>> 6) &&& 0b1)),
      (lit "Timer Off: Enable", .flag (bool ((data5 >>> 7) &&& 0b1))),
      (lit "Timer On: Minutes",
        .number (((data3 >>> 4) &&& 0b11111) &&& ((data4 <<< 4) &&& 0b000011))),
      (lit "Timer On: Hours", .number ((data4 >>> 4) &&& 0b1111)),
      (lit "Timer On:", getAMPM ((data4 >>> 2) &&& 0b1)),
      (lit "Timer On: Enable", .flag (bool ((data4 >>> 3) &&& 0b1))),
      (lit "Jet", .flag (bool ((data6 >>> 4) &&& 0b1))),
      (lit "Light", .flag (bool ((data6 >>> 5) &&& 0b1))),
      (lit "Round(User)", .flag (bool ((data7 >>> 1) &&& 0b1)))]

/-- What the script prints for a command. -/
inductive Report where
  | common (protocol : Map Bytes Shown)
  | round
  | nothing

/-- Frames are told apart by their number of bits. -/
def onCommand (data rawData : List Nat) : Option Report :=
  if rawData.length = 68 then (printCommon data rawData).map .common
  else if rawData.length = 16 then some .round
  else some .nothing

/-- The bytes of a frame, with the low half of the last one. -/
def frameBytes (ac : WhirlpoolYJ1B) : List Nat := maskedPrefix ac.m_data.toList 68

/-- The raw bits of a frame. -/
def frameRawBits (ac : WhirlpoolYJ1B) : List Nat := (List.range 68).map (rawBit ac.m_data.toList)

/-- Shifting a byte to the low end of a field and masking its width reads the field. -/
theorem shift_mask (ac : WhirlpoolYJ1B) (name : BitField) :
    (ac.m_data[name.place.word].toNat >>> name.place.low) &&& (2 ^ name.size - 1) =
      ac.field name := by
  rw [Nat.shiftRight_eq_div_pow, Nat.and_two_pow_sub_one_eq_mod]
  rfl

/-- A field at the low end of its byte is read by the mask alone. -/
theorem mask_only (ac : WhirlpoolYJ1B) (name : BitField) (bottom : name.place.low = 0) :
    ac.m_data[name.place.word].toNat &&& (2 ^ name.size - 1) = ac.field name := by
  have shifted := shift_mask ac name
  rw [bottom, Nat.shiftRight_zero] at shifted
  exact shifted

/-- The first eight bytes are those of the frame. -/
theorem frameBytes_getElem (ac : WhirlpoolYJ1B) (index : Nat) (whole : index < 8) :
    (frameBytes ac)[index]? = some (ac.m_data[index].toNat) := by
  have split : frameBytes ac = (ac.m_data.toList.take 8).map BitVec.toNat ++
      [(ac.m_data.toList.getD 8 0).toNat % 2 ^ 4] := rfl
  have front : index < ((ac.m_data.toList.take 8).map BitVec.toNat).length := by
    simpa using whole
  rw [split, List.getElem?_append_left front]
  simp [whole]

/-- A raw bit is the shifted and masked bit of its byte. -/
theorem frameRawBits_getElem (ac : WhirlpoolYJ1B) (index : Nat) (whole : index < 8) :
    (frameRawBits ac)[index]? = some ((ac.m_data[0].toNat >>> index) &&& 1) := by
  have inside : index < 68 := by omega
  have first : index / 8 = 0 := Nat.div_eq_of_lt whole
  have low : index % 8 = index := Nat.mod_eq_of_lt whole
  simp [frameRawBits, inside, rawBit, first, low]

/-- A number field fits a byte. -/
theorem field_toNat (ac : WhirlpoolYJ1B) (name : BitField) :
    (UInt8.ofNat (ac.field name)).toNat = ac.field name := by
  have small : ac.field name < 2 ^ name.size := readField_lt name ac.m_data
  have narrow : name.size ≤ 8 := Nat.le_of_add_left_le name.place.inside
  have byte : 2 ^ name.size ≤ 2 ^ 8 := Nat.pow_le_pow_right (by decide) narrow
  rw [UInt8.toNat_ofNat']
  omega

/-- A shifted and masked flag is the flag of its field. -/
theorem bool_flag (ac : WhirlpoolYJ1B) (name : BitField) :
    bool ((ac.m_data[name.place.word].toNat >>> name.place.low) &&& (2 ^ name.size - 1)) =
      ac.flag name := by
  rw [shift_mask]
  rfl

/-- For every content of the frame, the script prints it, and its entries for the eight
control fields show what the getters return. -/
theorem decoder_agrees (ac : WhirlpoolYJ1B) :
    ∃ protocol, printCommon (frameBytes ac) (frameRawBits ac) = some protocol ∧
      protocol.find (lit "Mode") = some (getMode ac.getMode.toNat) ∧
      protocol.find (lit "Power") = some (.flag ac.getPower) ∧
      protocol.find (lit "Fan") = some (getFan ac.getFan.toNat) ∧
      protocol.find (lit "Swing") = some (.flag ac.getSwing) ∧
      protocol.find (lit "Sleep") = some (.flag ac.getSleep) ∧
      protocol.find (lit "Temperature") = some (.number ac.getTemperature.toNat) ∧
      protocol.find (lit "Jet") = some (.flag ac.getJet) ∧
      protocol.find (lit "Light") = some (.flag ac.getLight) := by
  have byte := frameBytes_getElem ac
  have raw := frameRawBits_getElem ac
  have mode : ac.m_data[0].toNat &&& 0b111 = ac.getMode.toNat :=
    (mask_only ac .mode rfl).trans (field_toNat ac .mode).symm
  have power : bool ((ac.m_data[0].toNat >>> 3) &&& 0b1) = ac.getPower := bool_flag ac .power
  have fan : (ac.m_data[0].toNat >>> 4) &&& 0b11 = ac.getFan.toNat :=
    (shift_mask ac .fan).trans (field_toNat ac .fan).symm
  have swing : bool ((ac.m_data[0].toNat >>> 6) &&& 0b1) = ac.getSwing := bool_flag ac .swing
  have sleep : bool ((ac.m_data[0].toNat >>> 7) &&& 0b1) = ac.getSleep := bool_flag ac .sleep
  have temperature : (ac.m_data[1].toNat &&& 0b1111) + 16 = ac.getTemperature.toNat := by
    rw [getTemperature_toNat]
    exact congrArg (· + 16) (mask_only ac .temperature rfl)
  have jet : bool ((ac.m_data[6].toNat >>> 4) &&& 0b1) = ac.getJet := bool_flag ac .jet
  have light : bool ((ac.m_data[6].toNat >>> 5) &&& 0b1) = ac.getLight := bool_flag ac .light
  rw [← mode, ← power, ← fan, ← swing, ← sleep, ← temperature, ← jet, ← light]
  refine ⟨?protocol, ?printed, ?entries⟩
  case printed =>
    simp only [printCommon, byte 0 (by decide), byte 1 (by decide), byte 2 (by decide),
      byte 3 (by decide), byte 4 (by decide), byte 5 (by decide), byte 6 (by decide),
      byte 7 (by decide), raw 3 (by decide), raw 6 (by decide), raw 7 (by decide)]
    rfl
  case entries => exact ⟨rfl, rfl, rfl, rfl, rfl, rfl, rfl, rfl⟩

end WhirlpoolAc.ReferenceDecoder
