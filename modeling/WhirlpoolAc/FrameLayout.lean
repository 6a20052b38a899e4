import WhirlpoolAc.PackedFields

/-!
# The nine bytes of a YJ1B frame

`WhirlpoolYJ1BData` is a union of nine raw bytes with one bit-field structure per
byte. Bit-fields are allocated from the least significant bit, in declaration
order, so each declared field is a fixed place of one byte. A field's name is the
source's; a name that several bytes declare carries its byte in front.

All reads and writes of the controller go through these places. Since distinct
fields are disjoint, one law describes every read after every write.
-/

namespace WhirlpoolAc.FrameLayout

open PackedFields

/-- `uint8_t raw[ 9 ]`, which shares its storage with the bit-fields. -/
abbrev WhirlpoolYJ1BData := Storage 9 8

/-- The declared bit-fields, byte by byte. -/
inductive BitField where
  | mode | power | fan | swing | sleep
  | temperature | clock_Seconds
  | clock_Minutes | clock_AM_PM | byte2_unknown
  | clock_Hours | timer_Enable_Minutes_LSB
  | timer_Enable_Minutes_MSB | timer_Enable_AM_PM | timer_Enable_ON_OFF | timer_Enable_Hours
  | timer_Disable_Minutes_LSB | timer_Disable_AM_PM | timer_Disable_ON_OFF
  | timer_Disable_Hours | jet | light | byte6_unknown
  | byte7_unknown | byte7_round | byte7_unknownA | byte7_endPattern
  | byte8_endPattern
deriving DecidableEq, Repr

/-- A run of bits of one byte, with the declared width. -/
def bits (byte : Fin 9) (low size : Nat) (inside : low + size ≤ 8 := by decide) : Place 9 8 :=
  ⟨byte, low, size, inside⟩

/-- Where the compiler allocates each field. -/
def BitField.place : BitField → Place 9 8
  | mode => bits 0 0 3
  | power => bits 0 3 1
  | fan => bits 0 4 2
  | swing => bits 0 6 1
  | sleep => bits 0 7 1
  | temperature => bits 1 0 4
  | clock_Seconds => bits 1 4 4
  | clock_Minutes => bits 2 0 6
  | clock_AM_PM => bits 2 6 1
  | byte2_unknown => bits 2 7 1
  | clock_Hours => bits 3 0 4
  | timer_Enable_Minutes_LSB => bits 3 4 4
  | timer_Enable_Minutes_MSB => bits 4 0 2
  | timer_Enable_AM_PM => bits 4 2 1
  | timer_Enable_ON_OFF => bits 4 3 1
  | timer_Enable_Hours => bits 4 4 4
  | timer_Disable_Minutes_LSB => bits 5 0 6
  | timer_Disable_AM_PM => bits 5 6 1
  | timer_Disable_ON_OFF => bits 5 7 1
  | timer_Disable_Hours => bits 6 0 4
  | jet => bits 6 4 1
  | light => bits 6 5 1
  | byte6_unknown => bits 6 6 2
  | byte7_unknown => bits 7 0 1
  | byte7_round => bits 7 1 1
  | byte7_unknownA => bits 7 2 2
  | byte7_endPattern => bits 7 4 4
  | byte8_endPattern => bits 8 0 4

/-- Declared width of a field. -/
def BitField.size (field : BitField) : Nat := field.place.size

/-- Value of a field, as an unsigned number. -/
def readField (field : BitField) (data : WhirlpoolYJ1BData) : Nat := read field.place data

/-- Assignment to a field, truncated to its width. -/
def writeField (field : BitField) (value : Nat) (data : WhirlpoolYJ1BData) : WhirlpoolYJ1BData :=
  write field.place value data

/-- Storage the program loader has cleared. -/
def zeroFilled : WhirlpoolYJ1BData := Vector.replicate 9 0

/-- The user-provided constructor of the union. It assigns the two end patterns
and leaves every other bit of the storage as it finds it. -/
def WhirlpoolYJ1BData.construct (memory : WhirlpoolYJ1BData) : WhirlpoolYJ1BData :=
  writeField .byte8_endPattern 0b0101 (writeField .byte7_endPattern 0b1010 memory)

/-- Number of bits of a transmitted frame. -/
def frameBits : Nat := 68

/-- Distinct fields share no bit. -/
theorem place_disjoint (first second : BitField) (different : first ≠ second) :
    Disjoint first.place second.place := by
  revert different
  cases first <;> cases second <;> decide

/-- Every field lies within the transmitted bits. -/
theorem place_transmitted (field : BitField) : field.place.offset + field.size ≤ frameBits := by
  cases field <;> decide

/-- A read after a write sees the truncated value in the written field and the
old value in every other field. -/
@[simp] theorem readField_writeField (field written : BitField) (value : Nat)
    (data : WhirlpoolYJ1BData) :
    readField field (writeField written value data) =
      if field = written then value % 2 ^ written.size else readField field data := by
  by_cases same : field = written
  · subst same
    simp [readField, writeField, read_write_same, BitField.size]
  · have apart : Disjoint field.place written.place := place_disjoint field written same
    simp [readField, writeField, same, read_write_disjoint _ _ _ _ apart]

/-- A second assignment to a field replaces the first. -/
theorem writeField_twice (field : BitField) (first second : Nat) (data : WhirlpoolYJ1BData) :
    writeField field second (writeField field first data) = writeField field second data :=
  write_twice field.place first second data

/-- Assigning the stored value changes nothing. -/
theorem writeField_readField (field : BitField) (data : WhirlpoolYJ1BData) :
    writeField field (readField field data) data = data :=
  write_read field.place data

/-- A field's value is bounded by its width. -/
theorem readField_lt (field : BitField) (data : WhirlpoolYJ1BData) :
    readField field data < 2 ^ field.size :=
  read_lt field.place data

/-- A receiver of the transmitted bits finds in each field the stored value. -/
theorem readBits_frame (field : BitField) (data : WhirlpoolYJ1BData) :
    readBits field.place (leadingBits data frameBits) = readField field data :=
  readBits_leadingBits field.place data frameBits (place_transmitted field)

end WhirlpoolAc.FrameLayout
