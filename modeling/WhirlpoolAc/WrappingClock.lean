import Mathlib.Data.List.Chain

/-!
# A rate gate on a wrapping clock

A millisecond counter of fixed width shows the true time modulo a power of two. A
gate compares the counter with the stamp of its last pass by wrapping subtraction
and passes when the difference exceeds an interval. The difference never exceeds
the true time in between, so two passes are truly further apart than the interval,
however often the counter wrapped around. The gate may miss an opportunity, never
shorten a pause.

The counter is read up to three times on a visit, so a visit has three true times;
between them and between visits any time may go by.
-/

namespace WhirlpoolAc.WrappingClock

variable {width : Nat}

/-- What a counter shows at a true time. -/
def shown (width time : Nat) : BitVec width := BitVec.ofNat width time

/-- Wrapping subtraction shows the time in between. -/
theorem shown_sub (earlier later : Nat) (ordered : earlier ≤ later) :
    shown width later - shown width earlier = shown width (later - earlier) := by
  have split : later = earlier + (later - earlier) := by omega
  calc shown width later - shown width earlier
      = BitVec.ofNat width (earlier + (later - earlier)) - BitVec.ofNat width earlier := by
        rw [← split]
        rfl
    _ = shown width (later - earlier) := by
        rw [BitVec.ofNat_add, BitVec.add_comm, BitVec.add_sub_cancel]
        rfl

/-- The counter's difference is at most the true time in between. -/
theorem elapsed_le (earlier later : Nat) (ordered : earlier ≤ later) :
    (shown width later - shown width earlier).toNat ≤ later - earlier := by
  rw [shown_sub earlier later ordered, shown, BitVec.toNat_ofNat]
  exact Nat.mod_le _ _

/-- A visit to the gate: the interval it asks for and the true times at which it
enters, compares the counter and stamps a pass. -/
structure Visit (width : Nat) where
  interval : BitVec width
  entered : Nat
  checked : Nat
  recorded : Nat
  checked_after : entered ≤ checked
  recorded_after : checked ≤ recorded

/-- The stamp a visit compares with. The first visit takes one on entering. -/
def reference (stamp : Option (BitVec width)) (visit : Visit width) : BitVec width :=
  stamp.getD (shown width visit.entered)

/-- The gate lets the visit pass. -/
def Opens (stamp : Option (BitVec width)) (visit : Visit width) : Prop :=
  visit.interval < shown width visit.checked - reference stamp visit

instance (stamp : Option (BitVec width)) (visit : Visit width) : Decidable (Opens stamp visit) :=
  inferInstanceAs (Decidable (_ < _))

/-- The stamp behind a visit. -/
def restamp (stamp : Option (BitVec width)) (visit : Visit width) : Option (BitVec width) :=
  if Opens stamp visit then some (shown width visit.recorded) else some (reference stamp visit)

/-- The visits that pass, in order. -/
def passing : Option (BitVec width) → List (Visit width) → List (Visit width)
  | _, [] => []
  | stamp, visit :: rest =>
      if Opens stamp visit then visit :: passing (restamp stamp visit) rest
      else passing (restamp stamp visit) rest

/-- Each visit enters no earlier than the one before it could have ended. -/
def Chronological : Nat → List (Visit width) → Prop
  | _, [] => True
  | now, visit :: rest => now ≤ visit.entered ∧ Chronological visit.recorded rest

/-- Each visit is recorded more than its own interval after the one before it. -/
def Spaced : Nat → List (Visit width) → Prop
  | _, [] => True
  | since, visit :: rest =>
      since + visit.interval.toNat < visit.recorded ∧ Spaced visit.recorded rest

/-- A visit that passes is recorded more than its interval after the stamp's time. -/
theorem opens_apart (since : Nat) (visit : Visit width) (ordered : since ≤ visit.entered)
    (opened : Opens (some (shown width since)) visit) :
    since + visit.interval.toNat < visit.recorded := by
  have exceeded : visit.interval.toNat < (shown width visit.checked - shown width since).toNat :=
    BitVec.lt_def.mp opened
  have bound : (shown width visit.checked - shown width since).toNat ≤ visit.checked - since :=
    elapsed_le since visit.checked (Nat.le_trans ordered visit.checked_after)
  have stamped := visit.recorded_after
  omega

/-- Behind a stamp, passing visits are spaced. Induction on the visits carries the
true time of the stamp: a visit that passes renews it, any other leaves it. -/
theorem passing_spaced_from (since now : Nat) (visits : List (Visit width)) (past : since ≤ now)
    (ordered : Chronological now visits) :
    Spaced since (passing (some (shown width since)) visits) := by
  induction visits generalizing since now with
  | nil => trivial
  | cons visit rest ih =>
    obtain ⟨entering, later⟩ := ordered
    by_cases opened : Opens (some (shown width since)) visit
    · have apart := opens_apart since visit (Nat.le_trans past entering) opened
      have rested := ih visit.recorded visit.recorded (Nat.le_refl _) later
      rw [passing, if_pos opened, restamp, if_pos opened]
      exact ⟨apart, rested⟩
    · have checking := visit.checked_after
      have recording := visit.recorded_after
      have waited := ih since visit.recorded (by omega) later
      rw [passing, if_neg opened, restamp, if_neg opened]
      exact waited

/-- A first visit behaves as if it found the stamp it takes on entering. -/
theorem passing_first (visit : Visit width) (rest : List (Visit width)) :
    passing none (visit :: rest) =
      passing (some (shown width visit.entered)) (visit :: rest) := rfl

/-- Spaced visits are pairwise apart, whatever the time they are spaced from. -/
theorem Spaced.isChain (since : Nat) (visits : List (Visit width)) (spaced : Spaced since visits) :
    visits.IsChain fun earlier later =>
      earlier.recorded + later.interval.toNat < later.recorded := by
  induction visits generalizing since with
  | nil => exact List.isChain_nil
  | cons visit rest ih =>
    have chained := ih visit.recorded spaced.2
    cases rest with
    | nil => exact List.isChain_singleton visit
    | cons next others => exact List.isChain_cons_cons.mpr ⟨spaced.2.1, chained⟩

/-- From the first visit on, successive passes are truly further apart than the
interval the later one asks for. -/
theorem passing_apart (now : Nat) (visits : List (Visit width))
    (ordered : Chronological now visits) :
    (passing none visits).IsChain fun earlier later =>
      earlier.recorded + later.interval.toNat < later.recorded := by
  cases visits with
  | nil => exact List.isChain_nil
  | cons visit rest =>
    have fromEntry : Chronological visit.entered (visit :: rest) := ⟨Nat.le_refl _, ordered.2⟩
    rw [passing_first]
    exact Spaced.isChain visit.entered _
      (passing_spaced_from visit.entered visit.entered _ (Nat.le_refl _) fromEntry)

end WhirlpoolAc.WrappingClock
