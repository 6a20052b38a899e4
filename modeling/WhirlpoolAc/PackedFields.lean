import Mathlib.Data.Nat.Bitwise
import Mathlib.Data.BitVec

/-!
# Bit-fields of a packed word array

A storage is a fixed number of equally wide words. A place names a contiguous run
of bits inside one word, counted from the least significant bit, and carries the
proof that the run fits. Reading shifts and masks; writing clears the run under
its mask and ORs in the truncated value, which leaves every bit outside the run
as it was.

The same bits are also seen as one sequence: word by word, least significant bit
first. A serial sender transmits that sequence, so a place can be read back from
a transmitted prefix without the storage it came from.

Word width and word count are parameters; nothing here depends on a byte order
between words or on what the fields mean.
-/

namespace WhirlpoolAc.PackedFields

variable {words width : Nat}

/-- Fixed storage of `words` words, each of `width` bits. -/
abbrev Storage (words width : Nat) := Vector (BitVec width) words

/-- A run of `size` bits of one word, starting at bit `low`. The last field keeps
the run inside its word, so no place straddles a word boundary. -/
structure Place (words width : Nat) where
  word : Fin words
  low : Nat
  size : Nat
  inside : low + size ≤ width
deriving DecidableEq

/-- Ones exactly on the bits of the place. -/
def mask (place : Place words width) : BitVec width :=
  (BitVec.allOnes place.size).setWidth width <<< place.low

/-- The unsigned number stored in the place. -/
def read (place : Place words width) (storage : Storage words width) : Nat :=
  storage[place.word].toNat / 2 ^ place.low % 2 ^ place.size

/-- Store a number, truncated to the size of the place. -/
def write (place : Place words width) (value : Nat) (storage : Storage words width) :
    Storage words width :=
  storage.set place.word
    ((storage[place.word] &&& ~~~mask place) |||
      ((BitVec.ofNat width value <<< place.low) &&& mask place))

/-- Two places share no bit. -/
def Disjoint (first second : Place words width) : Prop :=
  first.word ≠ second.word ∨ first.low + first.size ≤ second.low ∨
    second.low + second.size ≤ first.low

instance (first second : Place words width) : Decidable (Disjoint first second) := by
  unfold Disjoint; infer_instance

/-- The mask selects the bits of the run and no other. -/
theorem mask_bit (place : Place words width) (index : Nat) :
    (mask place).getLsbD index =
      decide (place.low ≤ index ∧ index < place.low + place.size) := by
  have inside := place.inside
  simp only [mask, BitVec.getLsbD_shiftLeft, BitVec.getLsbD_setWidth, BitVec.getLsbD_allOnes]
  by_cases below : index < place.low
  · simp [below, Nat.not_le.mpr below]
  · have shifted : index - place.low < place.size ↔ index < place.low + place.size := by omega
    by_cases within : index < place.low + place.size
    · have bounded : index < width := by omega
      have bounded' : index - place.low < width := by omega
      simp [below, within, bounded, bounded', shifted, Nat.le_of_not_lt below]
    · simp [within, shifted]

/-- A read number is smaller than the size of its place allows. -/
theorem read_lt (place : Place words width) (storage : Storage words width) :
    read place storage < 2 ^ place.size :=
  Nat.mod_lt _ (Nat.two_pow_pos _)

/-- Bit `index` of a read number is the stored bit at that distance from the low end. -/
theorem read_testBit (place : Place words width) (storage : Storage words width) (index : Nat) :
    (read place storage).testBit index =
      (decide (index < place.size) && storage[place.word].getLsbD (place.low + index)) := by
  simp [read, Nat.testBit_mod_two_pow, Nat.testBit_div_two_pow, BitVec.getLsbD, Nat.add_comm]

/-- After a write each bit of the run comes from the value and every other stored
bit is the old one. All laws about reads after writes follow from this one. -/
theorem write_bit (place : Place words width) (value : Nat) (storage : Storage words width)
    (word : Fin words) (index : Nat) :
    (write place value storage)[word].getLsbD index =
      if word = place.word ∧ place.low ≤ index ∧ index < place.low + place.size
      then value.testBit (index - place.low) else storage[word].getLsbD index := by
  have inside := place.inside
  by_cases same : word = place.word
  · subst same
    simp only [write, Fin.getElem_fin, Vector.getElem_set_self, BitVec.getLsbD_or,
      BitVec.getLsbD_and, BitVec.getLsbD_not, mask_bit, BitVec.getLsbD_shiftLeft,
      BitVec.getLsbD_ofNat, true_and]
    by_cases selected : place.low ≤ index ∧ index < place.low + place.size
    · have bounded : index < width := by omega
      have bounded' : index - place.low < width := by omega
      simp [selected, bounded, bounded', Nat.not_lt.mpr selected.1]
    · by_cases bounded : index < width
      · simp [selected, bounded]
      · have beyond : storage[place.word.val].getLsbD index = false :=
          BitVec.getLsbD_of_ge _ _ (Nat.le_of_not_lt bounded)
        simp [selected, bounded, beyond]
  · have distinct : place.word.val ≠ word.val := fun equal => same (Fin.ext equal.symm)
    simp [write, same, Vector.getElem_set_ne _ _ distinct]

/-- Bit `index` of one word. -/
def wordBit (storage : Storage words width) (word : Fin words) (index : Nat) : Bool :=
  storage[word].getLsbD index

/-- Storages with the same bits are equal. -/
theorem storage_ext (first second : Storage words width)
    (same : ∀ word, ∀ index < width, wordBit first word index = wordBit second word index) :
    first = second := by
  apply Vector.ext
  intro word inside
  exact BitVec.eq_of_getLsbD_eq fun index within => same ⟨word, inside⟩ index within

/-- The place contains a bit of a word. -/
def Owns (place : Place words width) (word : Fin words) (index : Nat) : Prop :=
  word = place.word ∧ place.low ≤ index ∧ index < place.low + place.size

instance (place : Place words width) (word : Fin words) (index : Nat) :
    Decidable (Owns place word index) := by unfold Owns; infer_instance

/-- A write leaves the bits it does not own. -/
theorem wordBit_write_unowned (place : Place words width) (value : Nat)
    (storage : Storage words width) (word : Fin words) (index : Nat)
    (unowned : ¬ Owns place word index) :
    wordBit (write place value storage) word index = wordBit storage word index :=
  (write_bit place value storage word index).trans (if_neg unowned)

/-- A bit of a place is a bit of the number stored there. -/
theorem wordBit_owned (place : Place words width) (storage : Storage words width)
    (word : Fin words) (index : Nat) (owned : Owns place word index) :
    wordBit storage word index = (read place storage).testBit (index - place.low) := by
  obtain ⟨rfl, low, high⟩ := owned
  have within : index - place.low < place.size := by omega
  have position : place.low + (index - place.low) = index := by omega
  simp [wordBit, read_testBit, within, position]

/-- Reading back the written place gives the truncated value. -/
theorem read_write_same (place : Place words width) (value : Nat)
    (storage : Storage words width) :
    read place (write place value storage) = value % 2 ^ place.size := by
  apply Nat.eq_of_testBit_eq
  intro index
  rw [read_testBit, write_bit, Nat.testBit_mod_two_pow]
  by_cases within : index < place.size <;> simp [within]

/-- A write leaves every disjoint place as it was. -/
theorem read_write_disjoint (place other : Place words width) (value : Nat)
    (storage : Storage words width) (apart : Disjoint place other) :
    read place (write other value storage) = read place storage := by
  apply Nat.eq_of_testBit_eq
  intro index
  rw [read_testBit, read_testBit, write_bit]
  by_cases within : index < place.size
  · have outside : ¬ (place.word = other.word ∧ other.low ≤ place.low + index ∧
        place.low + index < other.low + other.size) := by
      rintro ⟨same, low, high⟩
      rcases apart with different | before | after
      · exact different same
      · omega
      · omega
    rw [if_neg outside]
  · simp [within]

/-- A second write to a place replaces the first. -/
theorem write_twice (place : Place words width) (first second : Nat)
    (storage : Storage words width) :
    write place second (write place first storage) = write place second storage := by
  apply storage_ext
  intro word index _
  by_cases owned : Owns place word index
  · rw [wordBit_owned _ _ word index owned, wordBit_owned _ _ word index owned,
      read_write_same, read_write_same]
  · rw [wordBit_write_unowned _ _ _ word index owned, wordBit_write_unowned _ _ _ word index owned,
      wordBit_write_unowned _ _ _ word index owned]

/-- Writing the number that is stored changes nothing. -/
theorem write_read (place : Place words width) (storage : Storage words width) :
    write place (read place storage) storage = storage := by
  apply storage_ext
  intro word index _
  by_cases owned : Owns place word index
  · rw [wordBit_owned _ _ word index owned, wordBit_owned _ _ word index owned, read_write_same,
      Nat.mod_eq_of_lt (read_lt place storage)]
  · exact wordBit_write_unowned _ _ _ word index owned

/-- Bit number `index` of the whole storage, least significant bit of word zero
first. A position past the storage reads as false; users establish the bound. -/
def bit (storage : Storage words width) (index : Nat) : Bool :=
  (storage[index / width]?.map fun word => word.getLsbD (index % width)).getD false

/-- The first `count` bits of the storage in sequence order. -/
def leadingBits (storage : Storage words width) (count : Nat) : List Bool :=
  (List.range count).map (bit storage)

/-- Position of the lowest bit of a place in the bit sequence. -/
def Place.offset (place : Place words width) : Nat := place.word * width + place.low

/-- The number a receiver of the bit sequence finds in a place. -/
def readBits (place : Place words width) (bits : List Bool) : Nat :=
  Nat.ofBits fun index : Fin place.size => bits.getD (place.offset + index) false

/-- A bit of a place is found at its offset in the sequence. -/
theorem bit_offset (place : Place words width) (storage : Storage words width) (index : Nat)
    (within : index < place.size) :
    bit storage (place.offset + index) = storage[place.word].getLsbD (place.low + index) := by
  have inside := place.inside
  have short : place.low + index < width := by omega
  have located : place.offset + index = (place.low + index) + width * place.word := by
    rw [Place.offset, Nat.mul_comm]
    omega
  have quotient : (place.offset + index) / width = place.word := by
    rw [located, Nat.add_mul_div_left _ _ (by omega), Nat.div_eq_of_lt short, Nat.zero_add]
  have remainder : (place.offset + index) % width = place.low + index := by
    rw [located, Nat.add_mul_mod_self_left, Nat.mod_eq_of_lt short]
  simp [bit, quotient, remainder]

/-- A transmitted prefix that covers a place carries exactly the stored number. -/
theorem readBits_leadingBits (place : Place words width) (storage : Storage words width)
    (count : Nat) (covered : place.offset + place.size ≤ count) :
    readBits place (leadingBits storage count) = read place storage := by
  apply Nat.eq_of_testBit_eq
  intro index
  rw [read_testBit]
  by_cases within : index < place.size
  · have sent : place.offset + index < count := by omega
    rw [readBits, Nat.testBit_ofBits_lt _ _ within]
    simp [leadingBits, sent, within, bit_offset place storage index within]
  · rw [readBits, Nat.testBit_ofBits_ge _ _ (Nat.le_of_not_lt within)]
    simp [within]

end WhirlpoolAc.PackedFields
