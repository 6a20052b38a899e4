import Mathlib.Algebra.Group.Nat.Defs
import Mathlib.Data.List.Range

/-!
# Loops over a machine-word counter

`for( uintN_t i = 0; i < limit; i++ ) body;` compares a counter of N bits with a
bound of any size. The loop below is that loop with an arbitrary body and an
allowance of iterations; it answers only when it ends within the allowance.

Below 2^N the counter reaches the bound and the loop is a fold over the numbers up
to it. From 2^N on the comparison never fails, and no allowance suffices.
-/

namespace WhirlpoolAc.CountedLoop

variable {width : Nat} {σ : Type}

/-- The loop from a given counter on. -/
def countedLoop (limit : Nat) (body : Nat → σ → σ) : Nat → BitVec width → σ → Option σ
  | 0, counter, state => if counter.toNat < limit then none else some state
  | allowed + 1, counter, state =>
      if counter.toNat < limit then
        countedLoop limit body allowed (counter + 1) (body counter.toNat state)
      else some state

/-- A counter below a bound that its width can hold is increased without wrapping. -/
theorem toNat_next (limit : Nat) (counter : BitVec width) (inside : limit < 2 ^ width)
    (below : counter.toNat < limit) : (counter + 1).toNat = counter.toNat + 1 := by
  have room : counter.toNat + 1 < 2 ^ width := by omega
  simpa [BitVec.toNat_add] using Nat.mod_eq_of_lt room

/-- With a bound inside the width, the loop ends after as many iterations as the
counter is short of the bound, and not before; the result is the fold of the body
over the counters in between.

Proof: induction on the allowance. A counter that has reached the bound ends the loop
at once. Otherwise the next counter is one closer to the bound. -/
theorem countedLoop_ends (limit : Nat) (body : Nat → σ → σ) (inside : limit < 2 ^ width)
    (allowed : Nat) (counter : BitVec width) (state : σ) (started : counter.toNat ≤ limit) :
    countedLoop limit body allowed counter state =
      if limit - counter.toNat ≤ allowed then
        some ((List.range' counter.toNat (limit - counter.toNat)).foldl
          (fun reached index => body index reached) state)
      else none := by
  induction allowed generalizing counter state with
  | zero =>
    by_cases below : counter.toNat < limit
    · have short : ¬ limit - counter.toNat ≤ 0 := by omega
      rw [countedLoop, if_pos below, if_neg short]
    · have reached : limit - counter.toNat = 0 := by omega
      simp [countedLoop, below, reached]
  | succ allowed ih =>
    by_cases below : counter.toNat < limit
    · have next := toNat_next limit counter inside below
      have distance : limit - counter.toNat = (limit - (counter + 1).toNat) + 1 := by omega
      rw [countedLoop, if_pos below, ih (counter + 1) (body counter.toNat state) (by omega),
        distance, List.range'_succ, List.foldl_cons, next]
      simp only [Nat.add_le_add_iff_right]
    · have reached : limit - counter.toNat = 0 := by omega
      simp [countedLoop, below, reached]

/-- With a bound the counter cannot hold, the loop never ends: every counter is below
it. -/
theorem countedLoop_never_ends (limit : Nat) (body : Nat → σ → σ) (outside : 2 ^ width ≤ limit)
    (allowed : Nat) (counter : BitVec width) (state : σ) :
    countedLoop limit body allowed counter state = none := by
  have below (counter : BitVec width) : counter.toNat < limit :=
    Nat.lt_of_lt_of_le counter.isLt outside
  induction allowed generalizing counter state with
  | zero => rw [countedLoop, if_pos (below counter)]
  | succ allowed ih => rw [countedLoop, if_pos (below counter), ih]

end WhirlpoolAc.CountedLoop
