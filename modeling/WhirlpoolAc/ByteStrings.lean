import Mathlib.Data.List.TakeWhile

/-!
# Byte strings and NUL-terminated strings

A string is a list of bytes with no interpretation; a literal denotes its UTF-8
bytes. A `CString` is what a pointer to a terminated array can carry: its field
excludes the terminator, so a topic or a name with an embedded NUL cannot be
built. Reading an arbitrary byte string through such a pointer stops at the first
NUL.

Case folding is the one of the C locale: only the twenty-six ASCII capitals move.
-/

namespace WhirlpoolAc.ByteStrings

/-- A byte string, as stored: embedded NUL bytes are ordinary bytes. -/
abbrev Bytes := List UInt8

/-- The bytes of a literal. -/
def lit (text : String) : Bytes := text.toByteArray.data.toList

/-- Bytes in front of the first terminator. -/
def upToNul (bytes : Bytes) : Bytes := bytes.takeWhile (· ≠ 0)

/-- The contents of a NUL-terminated array. -/
structure CString where
  bytes : Bytes
  nulFree : 0 ∉ bytes
deriving DecidableEq

/-- What a consumer of a bare pointer sees of a stored string. -/
def cStr (bytes : Bytes) : CString where
  bytes := upToNul bytes
  nulFree := by
    intro present
    simpa using List.mem_takeWhile_imp present

/-- A string without NUL survives the passage through a bare pointer. -/
theorem upToNul_of_nulFree (bytes : Bytes) (nulFree : 0 ∉ bytes) : upToNul bytes = bytes := by
  rw [upToNul, List.takeWhile_eq_self_iff]
  intro byte present
  have nonzero : byte ≠ 0 := fun zero => nulFree (zero ▸ present)
  simpa using nonzero

/-- `tolower` of the C locale. -/
def toLower (byte : UInt8) : UInt8 := if 65 ≤ byte ∧ byte ≤ 90 then byte + 32 else byte

/-- Case folding of a whole string. -/
def lower (bytes : Bytes) : Bytes := bytes.map toLower

/-- Folding a byte twice is folding it once: a folded byte is no capital. -/
theorem toLower_toLower (byte : UInt8) : toLower (toLower byte) = toLower byte := by
  by_cases capital : 65 ≤ byte ∧ byte ≤ 90
  · have small : byte.toNat ≤ 90 := capital.2
    have large : 65 ≤ byte.toNat := capital.1
    have sum : (byte + 32).toNat = byte.toNat + 32 := by
      rw [UInt8.toNat_add]
      have literal : (32 : UInt8).toNat = 32 := rfl
      omega
    have folded : ¬ (65 ≤ byte + 32 ∧ byte + 32 ≤ 90) := by
      rintro ⟨_, bounded⟩
      have bound : (byte + 32).toNat ≤ 90 := bounded
      omega
    simp only [toLower, if_pos capital, if_neg folded]
  · simp only [toLower, if_neg capital]

/-- Folding is idempotent. -/
theorem lower_lower (bytes : Bytes) : lower (lower bytes) = lower bytes := by
  rw [lower, lower, List.map_map]
  exact List.map_congr_left fun byte _ => toLower_toLower byte

end WhirlpoolAc.ByteStrings
