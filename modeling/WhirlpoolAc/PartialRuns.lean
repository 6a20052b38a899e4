import Mathlib.Data.List.Basic

/-!
# Runs of a partial step function

A system consumes events one by one; a step without result ends the run, so a
completed run is one whose steps all have results. Properties of completed runs
reduce to single steps: an invariant of steps is an invariant of runs, and a step
simulation against a total abstract machine lifts to the folded events.
-/

namespace WhirlpoolAc.PartialRuns

universe u v w
variable {σ : Type u} {ε : Type v} {τ : Type w}

/-- Consume all events in order. -/
def run (step : σ → ε → Option σ) : σ → List ε → Option σ
  | state, [] => some state
  | state, event :: events => (step state event).bind fun next => run step next events

/-- Some completed run leads to the state. -/
def Reachable (step : σ → ε → Option σ) (initial state : σ) : Prop :=
  ∃ events, run step initial events = some state

/-- A completed nonempty run completes its first step and the rest. -/
theorem run_cons (step : σ → ε → Option σ) (state final : σ) (event : ε) (events : List ε) :
    run step state (event :: events) = some final ↔
      ∃ next, step state event = some next ∧ run step next events = some final := by
  simp [run, Option.bind_eq_some_iff]

/-- Runs compose at any cut of the events. -/
theorem run_append (step : σ → ε → Option σ) (state : σ) (first second : List ε) :
    run step state (first ++ second) =
      (run step state first).bind fun middle => run step middle second := by
  induction first generalizing state with
  | nil => rfl
  | cons event events ih =>
    cases stepped : step state event with
    | none => simp [run, stepped]
    | some next => simpa [run, stepped] using ih next

/-- A completed run passes through the states before and after each of its events. -/
theorem run_through (step : σ → ε → Option σ) (state final : σ) (before rest : List ε) (event : ε)
    (ran : run step state (before ++ event :: rest) = some final) :
    ∃ middle next, run step state before = some middle ∧ step middle event = some next ∧
      run step state (before ++ [event]) = some next := by
  rw [run_append] at ran
  obtain ⟨middle, ranBefore, ranRest⟩ := Option.bind_eq_some_iff.mp ran
  obtain ⟨next, stepped, _⟩ := (run_cons _ _ _ _ _).mp ranRest
  refine ⟨middle, next, ranBefore, stepped, ?_⟩
  rw [run_append, ranBefore]
  exact (run_cons _ _ _ _ _).mpr ⟨next, stepped, rfl⟩

/-- What the steps of a run preserve, the completed run preserves. A step may use that
its event is one of the run. -/
theorem run_invariant (step : σ → ε → Option σ) (invariant : σ → Prop) (events : List ε)
    (kept : ∀ state event next, event ∈ events → invariant state →
      step state event = some next → invariant next)
    (state final : σ) (start : invariant state)
    (ran : run step state events = some final) : invariant final := by
  induction events generalizing state with
  | nil =>
    cases ran
    exact start
  | cons event events ih =>
    obtain ⟨next, stepped, rest⟩ := (run_cons step state final event events).mp ran
    have later (state : σ) (event : ε) (next : σ) (member : event ∈ events) :=
      kept state event next (List.mem_cons_of_mem _ member)
    exact ih later next (kept state event next List.mem_cons_self start stepped) rest

/-- A relation that the steps of a run keep against an abstract machine relates the
end of the completed run to the abstract state after the same events. -/
theorem run_simulates (step : σ → ε → Option σ) (abstractStep : τ → ε → τ)
    (related : σ → τ → Prop) (events : List ε)
    (kept : ∀ state shadow event next, event ∈ events → related state shadow →
      step state event = some next → related next (abstractStep shadow event))
    (state final : σ) (shadow : τ) (start : related state shadow)
    (ran : run step state events = some final) :
    related final (events.foldl abstractStep shadow) := by
  induction events generalizing state shadow with
  | nil =>
    cases ran
    exact start
  | cons event events ih =>
    obtain ⟨next, stepped, rest⟩ := (run_cons step state final event events).mp ran
    have later (state : σ) (shadow : τ) (event : ε) (next : σ) (member : event ∈ events) :=
      kept state shadow event next (List.mem_cons_of_mem _ member)
    have first := kept state shadow event next List.mem_cons_self start stepped
    exact ih later next (abstractStep shadow event) first rest

end WhirlpoolAc.PartialRuns
