import Mathlib.Logic.Basic

/-!
# Watched runs

A system with a partial step is watched from outside: beside its state there is a record
of what an observer notes of each step, such as the true times of events, which the system
itself does not know. An environment allows some steps and excludes others; it may depend
on the record. What holds in the beginning and is kept by every allowed step holds in every
reachable state, and fewer promises of the environment reach more states.

A watchdog looks at a clock again and again. A silence that began at some time is found by
the first look that comes when its limit is over. If looks are at most a pause apart and
one of two successive looks may be missed, a silence lasts at most the limit and two pauses.
-/

namespace WhirlpoolAc.WatchedRuns

universe u v w
variable {σ : Type u} {ε : Type v} {ω : Type w}

/-- A system and what is noted of its steps. -/
structure Watched (σ : Type u) (ε : Type v) (ω : Type w) where
  step : σ → ε → Option σ
  note : ω → σ → ε → σ → ω

/-- What the environment promises about a step. -/
abbrev Environment (σ : Type u) (ε : Type v) (ω : Type w) := ω → σ → ε → σ → Prop

/-- Some steps that the environment allows lead to the state with the record. -/
inductive Reaches (system : Watched σ ε ω) (allowed : Environment σ ε ω) (start : σ) (clean : ω) :
    σ → ω → Prop where
  | start : Reaches system allowed start clean start clean
  | step (state next : σ) (watch : ω) (event : ε)
      (before : Reaches system allowed start clean state watch)
      (stepped : system.step state event = some next)
      (promised : allowed watch state event next) :
      Reaches system allowed start clean next (system.note watch state event next)

variable {system : Watched σ ε ω} {allowed : Environment σ ε ω} {start state : σ}
  {clean watch : ω}

/-- What holds in the beginning and is kept by the allowed steps holds in every reachable
state. A step may use that its first state is reachable. -/
theorem Reaches.invariant (invariant : σ → ω → Prop) (initial : invariant start clean)
    (kept : ∀ state next watch event, Reaches system allowed start clean state watch →
      invariant state watch → system.step state event = some next →
      allowed watch state event next → invariant next (system.note watch state event next))
    (reached : Reaches system allowed start clean state watch) : invariant state watch := by
  induction reached with
  | start => exact initial
  | step state next watch event before stepped promised ih =>
    exact kept state next watch event before ih stepped promised

/-- An environment that promises less reaches more. -/
theorem Reaches.mono {weaker : Environment σ ε ω}
    (implied : ∀ watch state event next, allowed watch state event next →
      weaker watch state event next)
    (reached : Reaches system allowed start clean state watch) :
    Reaches system weaker start clean state watch := by
  induction reached with
  | start => exact .start
  | step state next watch event before stepped promised ih =>
    exact .step state next watch event ih stepped (implied watch state event next promised)

section Looks

variable {limit pause since later looked now : Nat} {awake sharp : Prop}

/-- A silence since a time, seen by the last look: it was within its limit, or the look was
missed and the next one will not be. -/
def Within (limit pause since looked : Nat) (awake : Prop) : Prop :=
  looked < since + limit ∨ looked < since + limit + pause ∧ awake

/-- The bound on a silence. -/
theorem Within.bound (within : Within limit pause since looked awake)
    (soon : now ≤ looked + pause) : now < since + limit + 2 * pause := by
  rcases within with inside | ⟨inside, _⟩
  · omega
  · omega

/-- A missed look. The one before it was not missed. -/
theorem Within.miss (within : Within limit pause since looked awake) (asleep : ¬ awake)
    (soon : now ≤ looked + pause) (alert : sharp) : Within limit pause since now sharp := by
  rcases within with inside | ⟨_, woken⟩
  · exact .inr ⟨by omega, alert⟩
  · exact absurd woken asleep

/-- Between two looks a silence may begin again, and the watchdog stays as awake as it was. -/
theorem Within.keep (within : Within limit pause since looked awake) (renewed : since ≤ later)
    (alert : awake → sharp) : Within limit pause later looked sharp := by
  rcases within with inside | ⟨inside, woken⟩
  · exact .inl (by omega)
  · exact .inr ⟨by omega, alert woken⟩

end Looks

end WhirlpoolAc.WatchedRuns
