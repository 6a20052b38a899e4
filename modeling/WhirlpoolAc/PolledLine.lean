import Mathlib.Algebra.Group.Nat.Defs
import WhirlpoolAc.WrappingClock

/-!
# Polling a line

A program watches a line by asking again and again: a look at a wrapping counter, a look at
the line, and so on, each look at a true time that the surroundings choose. A wait ends when
the wanted level has been met a number of times, or when the counter says that too much time
has gone by.

A wait may last for any number of looks, so it gets an allowance of rounds. What is said of
it holds for every allowance that is large enough.
-/

namespace WhirlpoolAc.PolledLine

open WrappingClock

universe u v
variable {α : Type u} {β : Type v}

/-- A computation with an allowance comes to a result: every large enough allowance leads
to it. -/
def Returns (computation : Nat → Option α) (result : α) : Prop :=
  ∃ bound, ∀ fuel, bound ≤ fuel → computation fuel = some result

/-- A result that needs no allowance. -/
theorem Returns.pure (result : α) : Returns (fun _ => some result) result :=
  ⟨0, fun _ _ => rfl⟩

/-- Results compose. -/
theorem Returns.bind {first : Nat → Option α} {next : α → Nat → Option β} {middle : α} {result : β}
    (returns : Returns first middle) (continues : Returns (next middle) result) :
    Returns (fun fuel => (first fuel).bind fun value => next value fuel) result := by
  obtain ⟨bound, large⟩ := returns
  obtain ⟨more, larger⟩ := continues
  refine ⟨max bound more, fun fuel enough => ?_⟩
  have here := large fuel (Nat.le_trans (Nat.le_max_left _ _) enough)
  have there := larger fuel (Nat.le_trans (Nat.le_max_right _ _) enough)
  simp only [here, Option.bind_some, there]

/-- A loop that takes one round off its allowance returns what the rest of it returns. -/
theorem Returns.round {computation rest : Nat → Option α} {result : α}
    (step : ∀ fuel, computation (fuel + 1) = rest fuel) (returns : Returns rest result) :
    Returns computation result := by
  obtain ⟨bound, large⟩ := returns
  refine ⟨bound + 1, fun fuel enough => ?_⟩
  obtain ⟨fuel, rfl⟩ : ∃ less, fuel = less + 1 := ⟨fuel - 1, by omega⟩
  rw [step]
  exact large fuel (by omega)

/-- A computation has one result. -/
theorem Returns.unique {computation : Nat → Option α} {result other : α}
    (returns : Returns computation result) (again : Returns computation other) :
    result = other := by
  obtain ⟨bound, large⟩ := returns
  obtain ⟨more, larger⟩ := again
  have here := large (max bound more) (Nat.le_max_left _ _)
  exact Option.some.inj (here.symm.trans (larger (max bound more) (Nat.le_max_right _ _)))

/-- The same result by another name of the computation. -/
theorem Returns.congr {computation other : Nat → Option α} {result : α}
    (returns : Returns computation result) (same : ∀ fuel, other fuel = computation fuel) :
    Returns other result := by
  obtain ⟨bound, large⟩ := returns
  exact ⟨bound, fun fuel enough => (same fuel).trans (large fuel enough)⟩

/-- A line and the true times of the looks at the surroundings. Time never goes back, and
there is always a later look. -/
structure Line where
  level : Nat → Bool
  moment : Nat → Nat
  ordered : ∀ look, moment look ≤ moment (look + 1)
  endless : ∀ time, ∃ look, time ≤ moment look

variable {width : Nat}

/-- What the counter shows at a look. -/
def Line.counter (width : Nat) (line : Line) (look : Nat) : BitVec width :=
  shown width (line.moment look)

/-- The rounds of a wait: while the counter is less than the timeout past its start, look
for the level, until it has been met so often. -/
def waitLoop (line : Line) (state : Bool) (timeout : Nat) (start : BitVec width) :
    Nat → Nat → Nat → Option (Bool × Nat)
  | 0, _, _ => none
  | fuel + 1, count, look =>
      if (line.counter width look - start).toNat < timeout then
        if line.level (line.moment (look + 1)) = state then
          if count - 1 = 0 then some (false, look + 2)
          else waitLoop line state timeout start fuel (count - 1) (look + 2)
        else waitLoop line state timeout start fuel count (look + 2)
      else some (true, look + 1)

/-- From a look on, no two successive looks are further apart. -/
def Fine (line : Line) (step since : Nat) : Prop :=
  ∀ look, since ≤ look → line.moment (look + 1) ≤ line.moment look + step

/-- What is fine remains fine. -/
theorem Fine.later {line : Line} {step since : Nat} (fine : Fine line step since) (look : Nat)
    (later : since ≤ look) : Fine line step look :=
  fun other behind => fine other (Nat.le_trans later behind)

/-- Later looks are at later times. -/
theorem Line.moment_mono (line : Line) (first second : Nat) (later : first ≤ second) :
    line.moment first ≤ line.moment second := by
  induction second, later using Nat.le_induction with
  | base => exact Nat.le_refl _
  | succ look _ ih => exact Nat.le_trans ih (line.ordered look)

/-- The counter's difference over a time that its width can hold is that time. -/
theorem elapsed_eq (earlier later : Nat) (ordered : earlier ≤ later)
    (short : later - earlier < 2 ^ width) :
    (shown width later - shown width earlier).toNat = later - earlier := by
  rw [shown_sub earlier later ordered, shown, BitVec.toNat_ofNat, Nat.mod_eq_of_lt short]

/-- The counter at a look, past a true time. -/
theorem counter_sub (line : Line) (look since : Nat) (past : since ≤ line.moment look)
    (short : line.moment look < since + 2 ^ width) :
    (line.counter width look - shown width since).toNat = line.moment look - since :=
  elapsed_eq since _ past (by omega)

/-- Levels one after the other, each for a while, from a time on. -/
def Plays (line : Line) : Nat → List (Bool × Nat) → Prop
  | _, [] => True
  | start, (level, duration) :: rest =>
      (∀ time, start ≤ time → time < start + duration → line.level time = level) ∧
        Plays line (start + duration) rest

/-- What the line does around an edge: not the level up to it, the level for a while
behind it. -/
structure Edge (line : Line) (state : Bool) (since edge hold : Nat) : Prop where
  before : ∀ time, since ≤ time → time < edge → line.level time = !state
  behind : ∀ time, edge ≤ time → time < edge + hold → line.level time = state

/-- Two levels played one after the other are an edge between them. -/
theorem Plays.edge {line : Line} {start low high : Nat} {state : Bool} {rest : List (Bool × Nat)}
    (plays : Plays line start ((!state, low) :: (state, high) :: rest)) :
    Edge line state start (start + low) high :=
  ⟨plays.1, plays.2.1⟩

/-- An edge seen from later on. -/
theorem Edge.later {line : Line} {state : Bool} {since edge hold : Nat}
    (around : Edge line state since edge hold) (time : Nat) (later : since ≤ time) :
    Edge line state time edge hold :=
  ⟨fun other behind => around.before other (Nat.le_trans later behind), around.behind⟩

/-- The next look at the line is at most two steps away. -/
theorem Fine.two {line : Line} {step since : Nat} (fine : Fine line step since) (look : Nat)
    (known : since ≤ look) :
    line.moment (look + 1) ≤ line.moment look + step ∧
      line.moment (look + 2) ≤ line.moment look + 2 * step := by
  have first := fine look known
  have second : line.moment (look + 2) ≤ line.moment (look + 1) + step :=
    fine (look + 1) (Nat.le_succ_of_le known)
  exact ⟨first, by omega⟩

section Waiting

variable {line : Line} {state : Bool} {timeout step since edge hold known : Nat}

variable (state) in
/-- In time, a wait looks at the line. -/
theorem waitLoop_looks (fuel count look : Nat) (past : since ≤ line.moment look)
    (inTime : line.moment look < since + timeout) (narrow : timeout ≤ 2 ^ width) :
    waitLoop line state timeout (shown width since) (fuel + 1) count look =
      if line.level (line.moment (look + 1)) = state then
        if count - 1 = 0 then some (false, look + 2)
        else waitLoop line state timeout (shown width since) fuel (count - 1) (look + 2)
      else waitLoop line state timeout (shown width since) fuel count (look + 2) := by
  have elapsed : (line.counter width look - shown width since).toNat < timeout := by
    rw [counter_sub line look since past (by omega)]
    omega
  rw [waitLoop, if_pos elapsed]

/-- Out of time, a wait ends. -/
theorem waitLoop_late (fuel count look : Nat) (up : since + timeout ≤ line.moment look)
    (short : line.moment look < since + 2 ^ width) :
    waitLoop line state timeout (shown width since) (fuel + 1) count look =
      some (true, look + 1) := by
  have elapsed : ¬ (line.counter width look - shown width since).toNat < timeout := by
    rw [counter_sub line look since (by omega) short]
    omega
  rw [waitLoop, if_neg elapsed]

/-- Behind the edge every look meets the level. Induction on how often it has to be met. -/
theorem waitLoop_behind (fine : Fine line step known) (around : Edge line state since edge hold)
    (narrow : timeout ≤ 2 ^ width) (ordered : since ≤ edge) (count look spent : Nat)
    (from_known : known ≤ look) (past : edge ≤ line.moment look)
    (near : line.moment look ≤ edge + spent)
    (holds : spent + (count + 1) * (2 * step) < hold)
    (inTime : edge + spent + (count + 1) * (2 * step) < since + timeout) :
    ∃ last, look < last ∧ edge ≤ line.moment last ∧
      line.moment last ≤ edge + spent + (count + 1) * (2 * step) ∧
      Returns (fun fuel => waitLoop line state timeout (shown width since) fuel (count + 1)
        (look + 1)) (false, last + 1) := by
  induction count generalizing look spent with
  | zero =>
    obtain ⟨first, second⟩ := fine.two look from_known
    have later := line.moment_mono look (look + 1) (by omega)
    have latest := line.moment_mono look (look + 2) (by omega)
    have met : line.level (line.moment (look + 2)) = state :=
      around.behind _ (by omega) (by omega)
    refine ⟨look + 2, by omega, by omega, by omega, Returns.round (fun fuel => ?_) (.pure _)⟩
    rw [waitLoop_looks state fuel _ _ (by omega) (by omega) narrow, if_pos met, if_pos rfl]
  | succ count ih =>
    have more : (count + 1 + 1) * (2 * step) = (count + 1) * (2 * step) + 2 * step :=
      Nat.succ_mul _ _
    obtain ⟨first, second⟩ := fine.two look from_known
    have later := line.moment_mono look (look + 1) (by omega)
    have latest := line.moment_mono look (look + 2) (by omega)
    have met : line.level (line.moment (look + 2)) = state :=
      around.behind _ (by omega) (by omega)
    obtain ⟨last, behind, after, bound, returns⟩ := ih (look + 2) (spent + 2 * step) (by omega)
      (by omega) (by omega) (by omega) (by omega)
    refine ⟨last, by omega, after, by omega, Returns.round (fun fuel => ?_) returns⟩
    rw [waitLoop_looks state fuel _ _ (by omega) (by omega) narrow, if_pos met,
      if_neg (by omega)]
    rfl

/-- A wait that begins before an edge ends behind it, when the level has been met often
enough. Induction on the looks that are left up to the edge. -/
theorem waitLoop_seen (fine : Fine line step known) (around : Edge line state since edge hold)
    (narrow : timeout ≤ 2 ^ width) (count look : Nat) (from_known : known ≤ look)
    (begun : since ≤ line.moment look) (before : line.moment look ≤ edge)
    (holds : (count + 1) * (2 * step) < hold)
    (inTime : edge + (count + 1) * (2 * step) < since + timeout) :
    ∃ last, look < last ∧ edge ≤ line.moment last ∧
      line.moment last ≤ edge + (count + 1) * (2 * step) ∧
      Returns (fun fuel => waitLoop line state timeout (shown width since) fuel (count + 1)
        (look + 1)) (false, last + 1) := by
  obtain ⟨there, reached⟩ := line.endless edge
  obtain ⟨rounds, enough⟩ : ∃ rounds, there ≤ look + 2 * rounds := ⟨there, by omega⟩
  have atLeast : 2 * step ≤ (count + 1) * (2 * step) :=
    Nat.le_mul_of_pos_left (2 * step) (Nat.succ_pos count)
  induction rounds generalizing look with
  | zero =>
    have arrived := line.moment_mono there look (by omega)
    obtain ⟨last, behind, after, bound, returns⟩ := waitLoop_behind fine around narrow
      (by omega) count look 0 from_known (by omega) (by omega) (by omega) (by omega)
    exact ⟨last, behind, after, by omega, returns⟩
  | succ rounds ih =>
    obtain ⟨first, second⟩ := fine.two look from_known
    have later := line.moment_mono look (look + 1) (by omega)
    have latest := line.moment_mono (look + 1) (look + 2) (by omega)
    by_cases early : line.moment (look + 2) < edge
    · have other : line.level (line.moment (look + 2)) ≠ state := by
        rw [around.before _ (by omega) early]
        simp
      obtain ⟨last, behind, after, bound, returns⟩ :=
        ih (look + 2) (by omega) (by omega) (by omega) (by omega)
      refine ⟨last, by omega, after, bound, Returns.round (fun fuel => ?_) returns⟩
      rw [waitLoop_looks state fuel _ _ (by omega) (by omega) narrow, if_neg other]
    · have met : line.level (line.moment (look + 2)) = state :=
        around.behind _ (by omega) (by omega)
      cases count with
      | zero =>
        refine ⟨look + 2, by omega, by omega, by omega, Returns.round (fun fuel => ?_) (.pure _)⟩
        rw [waitLoop_looks state fuel _ _ (by omega) (by omega) narrow, if_pos met, if_pos rfl]
      | succ count =>
        have more : (count + 1 + 1) * (2 * step) = (count + 1) * (2 * step) + 2 * step :=
          Nat.succ_mul _ _
        obtain ⟨last, behind, after, bound, returns⟩ := waitLoop_behind fine around narrow
          (by omega) count (look + 2) (2 * step) (by omega) (by omega) (by omega) (by omega)
          (by omega)
        refine ⟨last, by omega, after, by omega, Returns.round (fun fuel => ?_) returns⟩
        rw [waitLoop_looks state fuel _ _ (by omega) (by omega) narrow, if_pos met,
          if_neg (by omega)]
        rfl

variable (state) in
/-- Whatever the line does, a wait ends, soon after its timeout at the latest. Induction on
the looks that are left up to it. -/
theorem waitLoop_ends (fine : Fine line step known) (narrow : timeout + 2 * step < 2 ^ width)
    (count look : Nat) (from_known : known ≤ look) (begun : since ≤ line.moment look)
    (recent : line.moment look ≤ since + timeout + step) :
    ∃ late last, look < last ∧ line.moment last ≤ since + timeout + 2 * step ∧
      Returns (fun fuel => waitLoop line state timeout (shown width since) fuel count
        (look + 1)) (late, last + 1) := by
  obtain ⟨there, reached⟩ := line.endless (since + timeout)
  obtain ⟨rounds, enough⟩ : ∃ rounds, there ≤ look + 1 + 2 * rounds := ⟨there, by omega⟩
  induction rounds generalizing look count with
  | zero =>
    have arrived := line.moment_mono there (look + 1) enough
    have first := fine look from_known
    exact ⟨true, look + 1, by omega, by omega,
      Returns.round (fun fuel => waitLoop_late fuel _ _ (by omega) (by omega)) (.pure _)⟩
  | succ rounds ih =>
    obtain ⟨first, second⟩ := fine.two look from_known
    have later := line.moment_mono look (look + 1) (by omega)
    have latest := line.moment_mono (look + 1) (look + 2) (by omega)
    by_cases inTime : line.moment (look + 1) < since + timeout
    · have next := fine (look + 1) (by omega)
      have soon : line.moment (look + 2) ≤ since + timeout + step := by
        have same : line.moment (look + 1 + 1) = line.moment (look + 2) := rfl
        omega
      have looks (fuel : Nat) := waitLoop_looks state fuel count (look + 1)
        (by omega) inTime (by omega : timeout ≤ 2 ^ width)
      by_cases met : line.level (line.moment (look + 2)) = state
      · by_cases enoughMet : count - 1 = 0
        · refine ⟨false, look + 2, by omega, by omega,
            Returns.round (fun fuel => ?_) (.pure _)⟩
          rw [looks, if_pos met, if_pos enoughMet]
        · obtain ⟨late, last, behind, bound, returns⟩ :=
            ih (count - 1) (look + 2) (by omega) (by omega) soon (by omega)
          refine ⟨late, last, by omega, bound, Returns.round (fun fuel => ?_) returns⟩
          rw [looks, if_pos met, if_neg enoughMet]
      · obtain ⟨late, last, behind, bound, returns⟩ :=
          ih count (look + 2) (by omega) (by omega) soon (by omega)
        refine ⟨late, last, by omega, bound, Returns.round (fun fuel => ?_) returns⟩
        rw [looks, if_neg met]
    · exact ⟨true, look + 1, by omega, by omega,
        Returns.round (fun fuel => waitLoop_late fuel _ _ (by omega) (by omega)) (.pure _)⟩

end Waiting

end WhirlpoolAc.PolledLine
