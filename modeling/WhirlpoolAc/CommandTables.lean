import WhirlpoolAc.FieldEffects
import WhirlpoolAc.FoldedLookup

/-!
# The tables of the seven word commands

Light, mode, state, fan, swing, jet and sleep look their value up in a table of words.
The value is folded to lower case first; the keys are compared as they stand. Whatever
the case of the letters, a word of a table should assign its field the value of the
entry, and any other text should do nothing.

The On/Off table is in lower case and behaves so. The words of the mode and fan tables
are capitalized and match no folded value, so that only their digits are ever accepted:
a mode or fan word leaves the field as it was.
-/

namespace WhirlpoolAc.CommandTables

open ByteStrings CxxLibrary FoldedLookup FrameLayout AirConditioner Firmware MqttMessages
  CommandRequests FieldEffects DeviceRuns PartialRuns

/-- The commands that take their value from a table. -/
inductive TableCommand where
  | light | mode | state | fan | swing | jet | sleep
deriving DecidableEq, Repr

/-- The field a command is about. -/
def TableCommand.field : TableCommand → StatusField
  | .light => .light
  | .mode => .mode
  | .state => .state
  | .fan => .fan
  | .swing => .swing
  | .jet => .jet
  | .sleep => .sleep

/-- The table of a command, its values as the numbers that the field stores. -/
def TableCommand.table : TableCommand → Map Bytes Nat
  | .mode => modeMap.map fun entry => (entry.1, entry.2.tounderlying.toNat)
  | .fan => fanMap.map fun entry => (entry.1, entry.2.tounderlying.toNat)
  | .light | .state | .swing | .jet | .sleep => onoffMap.map fun entry => (entry.1, entry.2.toNat)

/-- Two texts are equal up to the case of ASCII letters. -/
def SameWord (first second : Bytes) : Prop := lower first = lower second

/-- Processing a command is exact on a payload: a payload that is a word of the table up
to case sets the command's field to the value of that word and no other field, and any
other payload leaves the program unchanged, publications included. -/
def Exact (name : CString) (command : TableCommand) (payload : Bytes) (world : World) : Prop :=
  ∃ after, (controller name).proceedCommand command.field.name payload world = .ok () after ∧
    (∀ entry ∈ command.table, SameWord payload entry.1 →
      after.g_whirpool.field (bitsOf command.field) = entry.2 ∧
      ∀ other, other ≠ bitsOf command.field →
        after.g_whirpool.field other = world.g_whirpool.field other) ∧
    ((∀ entry ∈ command.table, ¬ SameWord payload entry.1) → after = world)

/-- A payload that is a word of the table up to case is a word without capitals, or the
field holds the value of that word already. -/
def Accepted (command : TableCommand) (payload : Bytes) (world : World) : Prop :=
  ∀ entry ∈ command.table, SameWord payload entry.1 →
    lower entry.1 = entry.1 ∨ world.g_whirpool.field (bitsOf command.field) = entry.2

/-- The words of a table are different up to case. -/
theorem table_distinct (command : TableCommand) : Distinct lower command.table := by
  cases command <;> decide

/-- The words of the five On/Off commands have no capitals. -/
theorem table_folded (command : TableCommand) (mode : command ≠ .mode) (fan : command ≠ .fan) :
    ∀ entry ∈ command.table, lower entry.1 = entry.1 := by
  cases command with
  | mode => exact absurd rfl mode
  | fan => exact absurd rfl fan
  | light => decide
  | state => decide
  | swing => decide
  | jet => decide
  | sleep => decide

/-- What a search result means for the controller and the network. -/
def Performs (field : BitField) (world after : World) : Option Nat → Prop
  | some number => ∀ read, after.g_whirpool.field read =
      if read = field then number else world.g_whirpool.field read
  | none => after = world

/-- Carrying out the verdict of a table whose settings all assign one field. -/
theorem tableRequest_performs {ν : Type} (name : CString) (table : Map Bytes ν)
    (setting : ν → Setting) (number : ν → Nat) (field : BitField) (value : Bytes) (world : World)
    (aims : ∀ entry, target (setting entry) = field)
    (stores : ∀ entry raw, stored raw (setting entry) = number entry) :
    ∃ after, perform (controller name) world (tableRequest table setting value) = .ok () after ∧
      Performs field world after
        (Map.find (table.map fun entry => (entry.1, number entry.2)) value) := by
  rw [Map.find_map_entries table (fun _ => number) value, tableRequest]
  cases table.find value with
  | none => exact ⟨world, rfl, rfl⟩
  | some entry =>
    refine ⟨assigned (controller name) (setting entry) world, rfl, ?_⟩
    intro read
    show ((setting entry).apply world.g_whirpool).field read = _
    rw [apply_field, aims, stores]

/-- Processing a table command looks the folded payload up and stores what it finds. -/
theorem proceedCommand_performs (name : CString) (command : TableCommand) (payload : Bytes)
    (world : World) :
    ∃ after, (controller name).proceedCommand command.field.name payload world = .ok () after ∧
      Performs (bitsOf command.field) world after (command.table.find (lower payload)) := by
  have named : namedRequest command.field.name (lower payload) =
      request (.change command.field) (lower payload) := by
    cases command <;> rfl
  rw [proceedCommand_run, named]
  cases command with
  | light =>
    exact tableRequest_performs name onoffMap .light _ .light _ world (fun _ => rfl) fun _ _ => rfl
  | mode =>
    exact tableRequest_performs name modeMap .mode _ .mode _ world (fun _ => rfl) fun _ _ => rfl
  | state =>
    exact tableRequest_performs name onoffMap .state _ .power _ world (fun _ => rfl) fun _ _ => rfl
  | fan =>
    exact tableRequest_performs name fanMap .fan _ .fan _ world (fun _ => rfl) fun _ _ => rfl
  | swing =>
    exact tableRequest_performs name onoffMap .swing _ .swing _ world (fun _ => rfl) fun _ _ => rfl
  | jet =>
    exact tableRequest_performs name onoffMap .jet _ .jet _ world (fun _ => rfl) fun _ _ => rfl
  | sleep =>
    exact tableRequest_performs name onoffMap .sleep _ .sleep _ world (fun _ => rfl) fun _ _ => rfl

/-- A payload that is no word of the table leaves the program as it was. -/
theorem exact_of_unmatched (name : CString) (command : TableCommand) (payload : Bytes)
    (world : World) (unmatched : ∀ entry ∈ command.table, ¬ SameWord payload entry.1) :
    Exact name command payload world := by
  obtain ⟨after, processed, performs⟩ := proceedCommand_performs name command payload world
  rw [Map.find, lookup_unmatched lower lower_lower command.table payload unmatched] at performs
  refine ⟨after, processed, ?_, fun _ => performs⟩
  intro entry present same
  exact absurd same (unmatched entry present)

/-- On a payload that is a word of the table, exactness is about that word alone. -/
theorem exact_of_matched (name : CString) (command : TableCommand) (payload : Bytes)
    (world : World) (entry : Bytes × Nat) (present : entry ∈ command.table)
    (same : SameWord payload entry.1) :
    Exact name command payload world ↔
      lower entry.1 = entry.1 ∨ world.g_whirpool.field (bitsOf command.field) = entry.2 := by
  obtain ⟨after, processed, performs⟩ := proceedCommand_performs name command payload world
  rw [Map.find, lookup_matched lower lower_lower command.table payload (table_distinct command)
    entry present same] at performs
  have outcome : Exact name command payload world ↔
      after.g_whirpool.field (bitsOf command.field) = entry.2 ∧
        ∀ other, other ≠ bitsOf command.field →
          after.g_whirpool.field other = world.g_whirpool.field other := by
    constructor
    · rintro ⟨reached, returned, sets, _⟩
      have equal : reached = after := (EStateM.Result.ok.inj (returned.symm.trans processed)).2
      subst equal
      exact sets entry present same
    · intro sets
      refine ⟨after, processed, ?_, ?_⟩
      · intro other inside matching
        have only : other = entry := table_distinct command other inside entry present
          (matching.symm.trans same)
        rw [only]
        exact sets
      · intro unmatched
        exact absurd same (unmatched entry present)
  rw [outcome]
  by_cases folded : lower entry.1 = entry.1
  · rw [if_pos folded] at performs
    have number := performs (bitsOf command.field)
    rw [if_pos rfl] at number
    refine iff_of_true ⟨number, ?_⟩ (.inl folded)
    intro other different
    rw [performs other, if_neg different]
  · rw [if_neg folded] at performs
    have unchanged : after = world := performs
    simp [unchanged, folded]

/-- In every state, reachable or not, and for every payload, a table command is exact
exactly when the payload is no capitalized word of its table in whatever case, unless the
field holds the value of that word already.

Proof: the words of a table are different up to case, so the payload is at most one of
them; the search finds that one only when folding leaves it alone. -/
theorem exact_iff_accepted (name : CString) (command : TableCommand) (payload : Bytes)
    (world : World) : Exact name command payload world ↔ Accepted command payload world := by
  by_cases matched : ∃ entry ∈ command.table, SameWord payload entry.1
  · obtain ⟨entry, present, same⟩ := matched
    rw [exact_of_matched name command payload world entry present same]
    constructor
    · intro holds other inside matching
      have only : other = entry := table_distinct command other inside entry present
        (matching.symm.trans same)
      rw [only]
      exact holds
    · intro accepted
      exact accepted entry present same
  · have unmatched : ∀ entry ∈ command.table, ¬ SameWord payload entry.1 := by
      intro entry present same
      exact matched ⟨entry, present, same⟩
    refine iff_of_true (exact_of_unmatched name command payload world unmatched) ?_
    intro entry present same
    exact absurd same (unmatched entry present)

/-- The five On/Off commands are exact in every state. -/
theorem onoff_exact (name : CString) (command : TableCommand) (payload : Bytes) (world : World)
    (mode : command ≠ .mode) (fan : command ≠ .fan) : Exact name command payload world := by
  by_cases matched : ∃ entry ∈ command.table, SameWord payload entry.1
  · obtain ⟨entry, present, same⟩ := matched
    exact (exact_of_matched name command payload world entry present same).mpr
      (.inl (table_folded command mode fan entry present))
  · refine exact_of_unmatched name command payload world ?_
    intro entry present same
    exact matched ⟨entry, present, same⟩

/-- A fresh device does not start heating on the word `Heat` of its mode table. -/
theorem heat_ignored :
    ¬ ∀ (name : CString) (command : TableCommand) (payload : Bytes) (world : World),
      Reachable (step name) powerOn world → Exact name command payload world := by
  intro always
  have obeyed := always (cStr (lit "salon")) .mode (lit "Heat") powerOn ⟨[], rfl⟩
  have holds := (exact_of_matched _ .mode (lit "Heat") powerOn (lit "Heat", 4) (by decide)
    rfl).mp obeyed
  revert holds
  decide

end WhirlpoolAc.CommandTables
