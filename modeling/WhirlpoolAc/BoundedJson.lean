import WhirlpoolAc.JsonText
import Mathlib.Algebra.GroupWithZero.Nat

/-!
# JSON documents of bounded size

A document owns one block of memory. Every member takes a slot of sixteen bytes in
it; a string that is copied takes its length and a terminator, unless an equal
string has been copied before. A key given as a literal is not copied. What no
longer fits is left out without a report: a member whose slot does not fit does not
appear, one whose text does not fit is null.

A text filled this way is complete when the sum of all slots and all strings stays
within the capacity. The same sum, with the keys counted too, bounds what a reader
of the text needs, since the reader has to copy the keys as well.
-/

namespace WhirlpoolAc.BoundedJson

open ByteStrings CxxLibrary JsonText

/-- `sizeof( VariantSlot )` on the target. -/
def slotSize : Nat := 16

/-- A document: its capacity, the strings copied into its memory and the members. -/
structure JsonDocument where
  capacity : Nat
  strings : List Bytes
  members : JsonObject
deriving DecidableEq

/-- A new document of a given capacity. -/
def document (capacity : Nat) : JsonDocument := ⟨capacity, [], []⟩

/-- Bytes taken by a copied string. -/
def copySize (text : Bytes) : Nat := text.length + 1

/-- `MemoryPool::size`. -/
def JsonDocument.size (json : JsonDocument) : Nat :=
  (json.strings.map copySize).sum + slotSize * json.members.length

/-- `getOrAddMember` with a literal key. -/
def JsonDocument.getOrAddMember (json : JsonDocument) (key : Bytes) : Option JsonDocument :=
  if key ∈ json.members.map Prod.fst then some json
  else if json.size + slotSize ≤ json.capacity then
    some { json with members := json.members ++ [(key, .null)] }
  else none

/-- `MemoryPool::saveString`. -/
def JsonDocument.saveString (json : JsonDocument) (text : Bytes) : Option JsonDocument :=
  if text ∈ json.strings then some json
  else if json.size + copySize text ≤ json.capacity then
    some { json with strings := json.strings ++ [text] }
  else none

/-- `json[ key ] = text`. -/
def JsonDocument.assign (json : JsonDocument) (key text : Bytes) : JsonDocument :=
  match json.getOrAddMember key with
  | none => json
  | some added =>
      match added.saveString text with
      | none => { added with members := put added.members key .null }
      | some saved => { saved with members := put saved.members key (.string text) }

/-- Assigning several members in order. -/
def JsonDocument.assignAll (json : JsonDocument) (texts : List (Bytes × Bytes)) : JsonDocument :=
  texts.foldl (fun filled entry => filled.assign entry.1 entry.2) json

/-- `json[ key ].as<string>()`: the text of a string, and the JSON text of anything
    else, in particular `null` for a key that is not there. -/
def asString (object : JsonObject) (key : Bytes) : Bytes :=
  match Map.find object key with
  | some (.string text) => text
  | some other => writeValue other
  | none => writeValue .null

/-- An object whose members are all text. -/
def textObject (texts : List (Bytes × Bytes)) : JsonObject :=
  texts.map fun entry => (entry.1, .string entry.2)

/-- Memory that is enough to read an object of texts back: a slot and copies of key and
    text for every member. -/
def readingSize (texts : List (Bytes × Bytes)) : Nat :=
  (texts.map fun entry => slotSize + copySize entry.1 + copySize entry.2).sum

/-- The key of a new member that has just been created is found again, and its null is
    replaced. -/
theorem put_created (object : JsonObject) (key : Bytes) (value : JsonValue)
    (absent : key ∉ object.map Prod.fst) :
    put (object ++ [(key, .null)]) key value = object ++ [(key, value)] := by
  induction object with
  | nil => simp only [List.nil_append, put, if_true]
  | cons member rest step =>
      obtain ⟨other, old⟩ := member
      simp only [List.map_cons, List.mem_cons, not_or] at absent
      have distinct : ¬ other = key := fun same => absent.1 same.symm
      simp only [List.cons_append, put, if_neg distinct, step absent.2]

/-- One assignment of a new key that fits: the member appears at the end with its text,
    and the memory taken grows by no more than its slot and its copy. -/
theorem assign_fits (json : JsonDocument) (key text : Bytes)
    (absent : key ∉ json.members.map Prod.fst)
    (fits : json.size + slotSize + copySize text ≤ json.capacity) :
    (json.assign key text).members = json.members ++ [(key, .string text)] ∧
      (json.assign key text).capacity = json.capacity ∧
      (json.assign key text).size ≤ json.size + slotSize + copySize text := by
  have slot : json.size + slotSize ≤ json.capacity := by omega
  have created : json.getOrAddMember key =
      some { json with members := json.members ++ [(key, .null)] } := by
    rw [JsonDocument.getOrAddMember, if_neg absent, if_pos slot]
  have grown : ({ json with members := json.members ++ [(key, .null)] } : JsonDocument).size =
      json.size + slotSize := by
    simp only [JsonDocument.size, List.length_append, List.length_singleton, Nat.mul_succ]
    omega
  simp only [JsonDocument.assign, created, JsonDocument.saveString, grown, if_pos fits]
  by_cases copied : text ∈ json.strings
  · simp only [if_pos copied, put_created json.members key _ absent, JsonDocument.size,
      List.length_append, List.length_singleton, Nat.mul_succ, true_and]
    omega
  · simp only [if_neg copied, put_created json.members key _ absent, JsonDocument.size,
      List.length_append, List.length_singleton, Nat.mul_succ, List.map_append, List.map_cons,
      List.map_nil, List.sum_append, List.sum_cons, List.sum_nil, true_and]
    simp only [JsonDocument.size] at grown
    omega

/-- A whole list of new, distinct keys that fits is filled in completely and in order. -/
theorem assignAll_fits (texts : List (Bytes × Bytes)) (json : JsonDocument)
    (distinct : (json.members.map Prod.fst ++ texts.map Prod.fst).Nodup)
    (fits : json.size + (texts.map fun entry => slotSize + copySize entry.2).sum ≤ json.capacity) :
    (json.assignAll texts).members = json.members ++ textObject texts := by
  induction texts generalizing json with
  | nil => simp only [JsonDocument.assignAll, textObject, List.foldl_nil, List.map_nil,
      List.append_nil]
  | cons entry rest step =>
      obtain ⟨key, text⟩ := entry
      simp only [List.map_cons, List.sum_cons] at distinct fits
      have absent : key ∉ json.members.map Prod.fst := by
        intro present
        exact (List.nodup_append.mp distinct).2.2 key present key List.mem_cons_self rfl
      obtain ⟨members, capacity, grown⟩ := assign_fits json key text absent (by omega)
      have later : ((json.assign key text).members.map Prod.fst ++ rest.map Prod.fst).Nodup := by
        simpa only [members, List.map_append, List.map_cons, List.map_nil, List.append_assoc,
          List.cons_append, List.nil_append] using distinct
      have filled := step (json.assign key text) later (by omega)
      simpa only [JsonDocument.assignAll, List.foldl_cons, members, textObject, List.map_cons,
        List.append_assoc, List.cons_append, List.nil_append] using filled

end WhirlpoolAc.BoundedJson
