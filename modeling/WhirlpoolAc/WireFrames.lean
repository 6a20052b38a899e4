import WhirlpoolAc.FieldEffects

/-!
# Frames on the wire

What the air conditioner receives is the sequence of bits the sender reads out of
the buffer, nothing else. A field of a transmission is therefore read back from
those bits. For the nine bytes of a frame this is the stored field, so statements
about transmitted frames reduce to statements about the stamped controller.

The run lemma at the end is the only induction over runs that frame properties
need: whatever every setting and every clock stamp preserves holds of the
controller behind each transmission.
-/

namespace WhirlpoolAc.WireFrames

open ByteStrings FrameLayout PackedFields PulseSender AirConditioner Firmware CommandRequests
  DeviceRuns PartialRuns

/-- The bits the sender reads for a transmission, in the order it emits them. -/
def wire (transmission : Transmission) : List Bool :=
  bitsFrom transmission.data.toList 0 transmission.numberOfBits.toNat

/-- The value a receiver finds in a field of a transmission. -/
def carried (transmission : Transmission) (field : BitField) : Nat :=
  readBits field.place (wire transmission)

/-- The bits the sender reads from a frame are its leading bits. -/
theorem bitsFrom_frame (data : WhirlpoolYJ1BData) (count : Nat) (inside : count ≤ 72) :
    bitsFrom data.toList 0 count = leadingBits data count := by
  rw [bitsFrom, leadingBits, List.range_eq_range']
  apply List.map_congr_left
  intro index member
  have stored : index / 8 < 9 := by
    have bounded := List.mem_range'_1.mp member
    omega
  simp [bit, stored]

/-- A stamped frame carries the stored fields of the stamped controller. -/
theorem carried_stamped (time : Tm) (ac : WhirlpoolYJ1B) (field : BitField) :
    carried (stamped time ac) field = (setClock time ac).field field := by
  have bits : wire (stamped time ac) = leadingBits (setClock time ac).m_data frameBits :=
    bitsFrom_frame (setClock time ac).m_data 68 (by decide)
  rw [carried, bits]
  exact readBits_frame field (setClock time ac).m_data

/-- An event transmits nothing, or it commits and transmits one stamped frame. -/
theorem frames_mem (now : Tm) (request : Request) (ac : WhirlpoolYJ1B)
    (transmission : Transmission) (member : transmission ∈ request.frames now ac) :
    request = .commit ∧ transmission = stamped now ac := by
  cases request with
  | ignored => cases member
  | overflow => cases member
  | assign setting => cases member
  | commit => exact ⟨rfl, List.mem_singleton.mp member⟩

/-- What settings and stamps preserve, every verdict preserves. -/
theorem change_preserves (invariant : WhirlpoolYJ1B → Prop)
    (settings : ∀ setting ac, invariant ac → invariant (Setting.apply setting ac))
    (stamps : ∀ time ac, invariant ac → invariant (setClock time ac))
    (now : Tm) (request : Request) (ac : WhirlpoolYJ1B) (holds : invariant ac) :
    invariant (request.change now ac) := by
  cases request with
  | ignored => exact holds
  | overflow => exact holds
  | assign setting => exact settings setting ac holds
  | commit => exact stamps now ac holds

/-- In a completed run from power-on, a property that settings and stamps preserve
holds of the controller, and every transmission is the stamp of a controller that
has it. -/
theorem run_controllers (name : CString) (invariant : WhirlpoolYJ1B → Prop)
    (settings : ∀ setting ac, invariant ac → invariant (Setting.apply setting ac))
    (stamps : ∀ time ac, invariant ac → invariant (setClock time ac))
    (start : invariant powerOn.g_whirpool) (events : List Event) (world : World)
    (ran : run (step name) powerOn events = some world) :
    invariant world.g_whirpool ∧
      ∀ transmission ∈ world.transmissions,
        ∃ time ac, invariant ac ∧ transmission = stamped time ac := by
  refine run_invariant (step name) (fun world => invariant world.g_whirpool ∧
      ∀ transmission ∈ world.transmissions,
        ∃ time ac, invariant ac ∧ transmission = stamped time ac) events ?_ powerOn world
    ⟨start, ?_⟩ ran
  · intro world event next _ holds stepped
    obtain ⟨_, rfl⟩ := step_some name world next event stepped
    refine ⟨change_preserves invariant settings stamps _ _ _ holds.1, ?_⟩
    intro transmission member
    rcases List.mem_append.mp member with earlier | fresh
    · exact holds.2 transmission earlier
    · have commits := frames_mem _ _ _ _ fresh
      exact ⟨event.now, world.g_whirpool, holds.1, commits.2⟩
  · intro transmission member
    cases member

end WhirlpoolAc.WireFrames
