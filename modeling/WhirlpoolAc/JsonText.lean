import WhirlpoolAc.CxxLibrary

/-!
# JSON objects and their compact text

The part of the JSON library that this firmware uses: a flat object of Booleans,
unsigned numbers and strings, filled member by member and written without spaces.
Assigning to an existing key replaces its value in place; a new key is appended.
Inside strings the writer escapes quotes, backslashes and the five named control
characters, spells out NUL and copies every other byte.
-/

namespace WhirlpoolAc.JsonText

open ByteStrings CxxLibrary

/-- Values the firmware stores in a document, and the one it has in a member that
    was created without a value. -/
inductive JsonValue where
  | null
  | boolean (value : Bool)
  | unsigned (value : Nat)
  | string (text : Bytes)
deriving DecidableEq

/-- An object as its members in order. -/
abbrev JsonObject := List (Bytes × JsonValue)

/-- `doc[ key ] = value`. -/
def put : JsonObject → Bytes → JsonValue → JsonObject
  | [], key, value => [(key, value)]
  | (other, old) :: rest, key, value =>
      if other = key then (key, value) :: rest else (other, old) :: put rest key value

/-- Each character with a short escape, after the character that stands for it. -/
def escapeTable : List (UInt8 × UInt8) :=
  [(47, 47), (34, 34), (92, 92), (98, 8), (102, 12), (110, 10), (114, 13), (116, 9)]

/-- The character written after a backslash, for the bytes that need one. The solidus
    at the front of the table is not escaped. -/
def escapeChar (byte : UInt8) : Option UInt8 :=
  (escapeTable.tail.find? fun entry => entry.2 = byte).map Prod.fst

/-- The character that a backslash and a code stand for. -/
def unescapeChar (code : UInt8) : Option UInt8 :=
  (escapeTable.find? fun entry => entry.1 = code).map Prod.snd

/-- One byte of a string. -/
def writeChar (byte : UInt8) : Bytes :=
  match escapeChar byte with
  | some special => [92, special]
  | none => if byte = 0 then lit "\\u0000" else [byte]

/-- A quoted string. -/
def writeString (text : Bytes) : Bytes := lit "\"" ++ text.flatMap writeChar ++ lit "\""

/-- `accept` of a value by the serializer. -/
def writeValue : JsonValue → Bytes
  | .null => lit "null"
  | .boolean value => if value then lit "true" else lit "false"
  | .unsigned value => toString value
  | .string text => writeString text

/-- Members separated by commas. -/
def writeMembers : JsonObject → Bytes
  | [] => []
  | [(key, value)] => writeString key ++ lit ":" ++ writeValue value
  | (key, value) :: rest =>
      writeString key ++ lit ":" ++ writeValue value ++ lit "," ++ writeMembers rest

/-- `serializeJson` of an object. -/
def serializeJson (object : JsonObject) : Bytes := lit "\x7b" ++ writeMembers object ++ lit "\x7d"

example : serializeJson [(lit "light", .boolean true), (lit "mode", .unsigned 12)] =
    lit "\x7b\"light\":true,\"mode\":12\x7d" := by decide

end WhirlpoolAc.JsonText
