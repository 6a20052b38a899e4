import WhirlpoolAc.FrameLayout
import WhirlpoolAc.JsonText

/-!
# The controller object

`WhirlpoolYJ1B` owns the frame bytes and is the only writer of them. Setters keep
the normalization of the source, including its order: a fallback that a later
assignment overwrites stays overwritten. An enumeration value is passed as its
underlying byte, since a C++ enumeration of fixed underlying type holds every
value of that type; `Mode` and `Fan` list the declared enumerators.

Texts for status topics are table lookups and may throw. The mode table is keyed
by `bool`, so its integer keys are converted before insertion.
-/

namespace WhirlpoolAc.AirConditioner

open ByteStrings CxxLibrary FrameLayout JsonText

/-- Declared fan speeds. -/
inductive Fan where
  | Auto | V1 | V2 | V3
deriving DecidableEq, Repr

/-- Declared operating modes. -/
inductive Mode where
  | Sense_6th | Cool | Dry | Fan | Heat
deriving DecidableEq, Repr

/-- The underlying value of a fan speed. -/
def Fan.tounderlying : Fan → UInt8
  | .Auto => 0
  | .V1 => 1
  | .V2 => 2
  | .V3 => 3

/-- The underlying value of a mode. -/
def Mode.tounderlying : Mode → UInt8
  | .Sense_6th => 0
  | .Cool => 1
  | .Dry => 2
  | .Fan => 3
  | .Heat => 4

/-- Halves of the day. -/
inductive AM_PM where
  | AM | PM
deriving DecidableEq, Repr

/-- The underlying value of a half of the day. -/
def AM_PM.tounderlying : AM_PM → Bool
  | .AM => false
  | .PM => true

/-- The air conditioner object. Its only data member is the frame. -/
structure WhirlpoolYJ1B where
  m_data : WhirlpoolYJ1BData
deriving DecidableEq

namespace WhirlpoolYJ1B

/-- Assign one bit-field of the frame. -/
def assign (field : BitField) (value : Nat) (ac : WhirlpoolYJ1B) : WhirlpoolYJ1B :=
  ⟨writeField field value ac.m_data⟩

/-- Read one bit-field of the frame. -/
def field (ac : WhirlpoolYJ1B) (name : BitField) : Nat := readField name ac.m_data

/-- A stored one-bit flag. -/
def flag (ac : WhirlpoolYJ1B) (name : BitField) : Bool := ac.field name != 0

/-- The fallback for an undeclared mode is overwritten by the next assignment,
which keeps the low three bits of the argument. -/
def setMode (mode : UInt8) (ac : WhirlpoolYJ1B) : WhirlpoolYJ1B :=
  let data := mode.toNat
  let ac := if data > 4 then ac.assign .mode 0 else ac
  ac.assign .mode data

/-- The stored mode, its three bits as a byte. -/
def getMode (ac : WhirlpoolYJ1B) : UInt8 := UInt8.ofNat (ac.field .mode)

/-- Switch the power. -/
def setPower (power : Bool) (ac : WhirlpoolYJ1B) : WhirlpoolYJ1B := ac.assign .power power.toNat

/-- The stored power. -/
def getPower (ac : WhirlpoolYJ1B) : Bool := ac.flag .power

/-- Store the fan speed; its two bits keep the remainder by four. -/
def setFan (fan : UInt8) (ac : WhirlpoolYJ1B) : WhirlpoolYJ1B := ac.assign .fan fan.toNat

/-- The stored fan speed. -/
def getFan (ac : WhirlpoolYJ1B) : UInt8 := UInt8.ofNat (ac.field .fan)

/-- Switch the swing. -/
def setSwing (swing : Bool) (ac : WhirlpoolYJ1B) : WhirlpoolYJ1B := ac.assign .swing swing.toNat

/-- The stored swing. -/
def getSwing (ac : WhirlpoolYJ1B) : Bool := ac.flag .swing

/-- Switch the sleep mode. -/
def setSleep (sleep : Bool) (ac : WhirlpoolYJ1B) : WhirlpoolYJ1B := ac.assign .sleep sleep.toNat

/-- The stored sleep mode. -/
def getSleep (ac : WhirlpoolYJ1B) : Bool := ac.flag .sleep

/-- Switch the jet mode. -/
def setJet (jet : Bool) (ac : WhirlpoolYJ1B) : WhirlpoolYJ1B := ac.assign .jet jet.toNat

/-- The stored jet mode. -/
def getJet (ac : WhirlpoolYJ1B) : Bool := ac.flag .jet

/-- Switch the display light. -/
def setLight (light : Bool) (ac : WhirlpoolYJ1B) : WhirlpoolYJ1B := ac.assign .light light.toNat

/-- The stored display light. -/
def getLight (ac : WhirlpoolYJ1B) : Bool := ac.flag .light

/-- The field counts degrees above sixteen. -/
def setTemperatureRaw (temp : UInt8) (ac : WhirlpoolYJ1B) : WhirlpoolYJ1B :=
  ac.assign .temperature (if temp.toNat > 14 then 14 else temp.toNat)

/-- The overload of `setClockAMPM` for a half of the day. -/
def setClockAMPMOf (amPm : AM_PM) (ac : WhirlpoolYJ1B) : WhirlpoolYJ1B :=
  ac.assign .clock_AM_PM amPm.tounderlying.toNat

/-- The overloads for the half of the day switch the afternoon bit in both directions. -/
def setClockAMPM (pm : Bool) (ac : WhirlpoolYJ1B) : WhirlpoolYJ1B :=
  ac.assign .clock_AM_PM pm.toNat

/-- The stored unit is fifteen seconds. -/
def setClockSeconds (seconds : UInt8) (ac : WhirlpoolYJ1B) : WhirlpoolYJ1B :=
  ac.assign .clock_Seconds (seconds.toNat % 60 / 15)

/-- The minute of the clock, reduced to an hour. -/
def setClockMinutes (minutes : UInt8) (ac : WhirlpoolYJ1B) : WhirlpoolYJ1B :=
  ac.assign .clock_Minutes (minutes.toNat % 60)

/-- An afternoon hour sets the afternoon bit; a morning hour leaves it alone. -/
def setClockHours (hours : UInt8) (ac : WhirlpoolYJ1B) : WhirlpoolYJ1B :=
  let ac := ac.assign .clock_Hours (hours.toNat % 12)
  if hours.toNat ≥ 12 then ac.setClockAMPM true else ac

/-- Degrees outside of 16 to 30 are moved to the nearer end. -/
def setTemperature (temp : UInt8) (ac : WhirlpoolYJ1B) : WhirlpoolYJ1B :=
  if temp.toNat > 30 then ac.assign .temperature (30 - 16)
  else if temp.toNat < 16 then ac.assign .temperature 0
  else ac.assign .temperature (temp.toNat - 16)

/-- The setpoint in degrees. -/
def getTemperature (ac : WhirlpoolYJ1B) : UInt8 := UInt8.ofNat (ac.field .temperature + 16)

end WhirlpoolYJ1B

/-- The default constructor runs on whatever the storage holds: the frame's own
constructor writes the end patterns, then eight setters follow. -/
def construct (memory : WhirlpoolYJ1BData) : WhirlpoolYJ1B :=
  (WhirlpoolYJ1B.mk memory.construct)
    |>.setFan Fan.Auto.tounderlying
    |>.setMode Mode.Cool.tounderlying
    |>.setPower false
    |>.setSwing false
    |>.setJet false
    |>.setLight true
    |>.setSleep false
    |>.setTemperature 24

/-- Conversion of an integer key to `bool`. -/
def toBool (key : Nat) : Bool := key != 0

/-- The texts of a switch. -/
def mapOnOff : Map Bool Bytes := [(true, lit "On"), (false, lit "Off")]

/-- The texts of the fan speeds. -/
def mapFan : Map UInt8 Bytes := [(0, lit "Auto"), (1, lit "V1"), (2, lit "V2"), (3, lit "V3")]

/-- The declared key type is `bool`, so keys one to four are all `true`. -/
def mapMode : Map Bool Bytes :=
  [(toBool 0, lit "Sense_6th"), (toBool 1, lit "Cool"), (toBool 2, lit "Dry"),
    (toBool 3, lit "Fan"), (toBool 4, lit "Heat")]

namespace WhirlpoolYJ1B

/-- The text of the stored light. -/
def getLightText (ac : WhirlpoolYJ1B) : Except Exn Bytes := mapOnOff.at ac.getLight

/-- The text of the stored mode, whose number becomes a `bool` on the way. -/
def getModeText (ac : WhirlpoolYJ1B) : Except Exn Bytes := mapMode.at (toBool ac.getMode.toNat)

/-- The text of the stored power. -/
def getPowerText (ac : WhirlpoolYJ1B) : Except Exn Bytes := mapOnOff.at ac.getPower

/-- The text of the stored fan speed. -/
def getFanText (ac : WhirlpoolYJ1B) : Except Exn Bytes := mapFan.at ac.getFan

/-- The text of the stored jet mode. -/
def getJetText (ac : WhirlpoolYJ1B) : Except Exn Bytes := mapOnOff.at ac.getJet

/-- The text of the stored swing. -/
def getSwingText (ac : WhirlpoolYJ1B) : Except Exn Bytes := mapOnOff.at ac.getSwing

/-- The text of the stored sleep mode. -/
def getSleepText (ac : WhirlpoolYJ1B) : Except Exn Bytes := mapOnOff.at ac.getSleep

/-- The document filled by `getJson`, member by member. Eight slots are far below its
1024 bytes, and so is the text below the size of the buffer. -/
def jsonDocument (ac : WhirlpoolYJ1B) : JsonObject :=
  let doc : JsonObject := []
  let doc := put doc (lit "temperature") (.unsigned ac.getTemperature.toNat)
  let doc := put doc (lit "light") (.boolean ac.getLight)
  let doc := put doc (lit "mode") (.unsigned ac.getMode.toNat)
  let doc := put doc (lit "state") (.boolean ac.getPower)
  let doc := put doc (lit "fan") (.unsigned ac.getFan.toNat)
  let doc := put doc (lit "jet") (.boolean ac.getJet)
  let doc := put doc (lit "swing") (.boolean ac.getSwing)
  put doc (lit "sleep") (.boolean ac.getSleep)

/-- The state as the text of one object. -/
def getJson (ac : WhirlpoolYJ1B) : Bytes := serializeJson ac.jsonDocument

end WhirlpoolYJ1B

end WhirlpoolAc.AirConditioner
