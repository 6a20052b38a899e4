import Mathlib.Data.List.Basic

/-!
# Streams read in portions

A reader receives a stream in segments that it did not choose and takes from the segment
at hand portions that it does choose, one item or as many as it can use at once. What it
does is recorded in entries; several small entries may say together what a large one says
alone, so entries are compared by their spelling.

A reader is divisible when a portion does what its items do one by one. Then the cuts
between the segments change neither the state nor the spelling, and a claim about a
stream needs to be proved for single items only.
-/

namespace WhirlpoolAc.PortionedStreams

universe u v w x
variable {σ : Type u} {β : Type v} {γ : Type w} {δ : Type x}

/-- One round of a reader on the rest of a segment: the state behind it, the size of the
portion it took and what it did. None when the round does not come back. -/
abbrev Round (σ : Type u) (β : Type v) (γ : Type w) := σ → List β → Option (σ × Nat × List γ)

/-- An outcome that comes after some entries. -/
def behind (entries : List γ) (outcome : Option (σ × List γ)) : Option (σ × List γ) :=
  outcome.map fun read => (read.1, entries ++ read.2)

/-- A failure has nothing behind it. -/
@[simp] theorem behind_none (entries : List γ) :
    behind entries (none : Option (σ × List γ)) = none := rfl

/-- A result has the later entries behind the earlier ones. -/
@[simp] theorem behind_some (entries : List γ) (read : σ × List γ) :
    behind entries (some read) = some (read.1, entries ++ read.2) := rfl

/-- Rounds until nothing is left of the segment. A round that takes nothing changes
nothing either and would be repeated for ever. -/
def rounds (round : Round σ β γ) : Nat → σ → List β → Option (σ × List γ)
  | _, state, [] => some (state, [])
  | 0, _, _ :: _ => none
  | fuel + 1, state, item :: items =>
      (round state (item :: items)).bind fun took =>
        behind took.2.2 (rounds round fuel took.1 ((item :: items).drop took.2.1))

/-- A segment is read to its end; every portion takes at least one item. No segment is
empty, and the first item of an empty one would lie behind it. -/
def segment (round : Round σ β γ) (state : σ) (items : List β) : Option (σ × List γ) :=
  if items = [] then none else rounds round items.length state items

/-- Segments are read one after the other. -/
def segments (round : Round σ β γ) : σ → List (List β) → Option (σ × List γ)
  | state, [] => some (state, [])
  | state, items :: rest =>
      (segment round state items).bind fun read => behind read.2 (segments round read.1 rest)

/-- A reader that gets every item in a segment of its own, with its entries spelled out. -/
def single (round : Round σ β γ) (spell : γ → List δ) : σ → List β → Option (σ × List δ)
  | state, [] => some (state, [])
  | state, item :: items =>
      (round state [item]).bind fun took =>
        behind (took.2.2.flatMap spell) (single round spell took.1 items)

/-- The outcome of a reader with its entries spelled out. -/
def spelled (spell : γ → List δ) (outcome : Option (σ × List γ)) : Option (σ × List δ) :=
  outcome.map fun read => (read.1, read.2.flatMap spell)

/-- Spelling an outcome that comes after some entries. -/
theorem spelled_behind (spell : γ → List δ) (entries : List γ) (outcome : Option (σ × List γ)) :
    spelled spell (behind entries outcome) =
      behind (entries.flatMap spell) (spelled spell outcome) := by
  cases outcome with
  | none => rfl
  | some read => simp [spelled]

/-- A round does what its portion does item by item, and stays away only where its first
item alone does. -/
structure Divisible (round : Round σ β γ) (spell : γ → List δ) : Prop where
  portion : ∀ state item items next taken entries,
    round state (item :: items) = some (next, taken, entries) →
      0 < taken ∧ single round spell state ((item :: items).take taken) =
        some (next, entries.flatMap spell)
  stuck : ∀ state item items, round state (item :: items) = none → round state [item] = none

/-- Reading the single items of a sequence that is put together. -/
theorem single_append (round : Round σ β γ) (spell : γ → List δ) (state : σ)
    (first second : List β) :
    single round spell state (first ++ second) =
      (single round spell state first).bind fun read =>
        behind read.2 (single round spell read.1 second) := by
  induction first generalizing state with
  | nil =>
    cases read : single round spell state second with
    | none => simp [single, read]
    | some outcome => simp [single, read]
  | cons item items ih =>
    cases taken : round state [item] with
    | none => simp [single, taken]
    | some outcome =>
      obtain ⟨next, used, entries⟩ := outcome
      cases front : single round spell next items with
      | none => simp [single, taken, ih, front]
      | some read =>
        obtain ⟨middle, later⟩ := read
        cases back : single round spell middle second with
        | none => simp [single, taken, ih, front, back]
        | some rest => simp [single, taken, ih, front, back]

/-- Rounds with enough fuel do what the items do one by one. Induction on the fuel; a
portion takes at least one item off both. -/
theorem rounds_single (round : Round σ β γ) (spell : γ → List δ)
    (divisible : Divisible round spell) (fuel : Nat) (state : σ) (items : List β)
    (enough : items.length ≤ fuel) :
    spelled spell (rounds round fuel state items) = single round spell state items := by
  induction fuel generalizing state items with
  | zero =>
    have none_left : items = [] := List.eq_nil_of_length_eq_zero (Nat.le_zero.mp enough)
    rw [none_left]
    rfl
  | succ fuel ih =>
    cases items with
    | nil => rfl
    | cons item rest =>
      cases result : round state (item :: rest) with
      | none =>
        have alone := divisible.stuck state item rest result
        simp [rounds, single, spelled, result, alone]
      | some outcome =>
        obtain ⟨next, taken, entries⟩ := outcome
        obtain ⟨positive, front⟩ := divisible.portion state item rest next taken entries result
        have shorter : ((item :: rest).drop taken).length ≤ fuel := by
          rw [List.length_drop]
          omega
        have back := ih next ((item :: rest).drop taken) shorter
        have whole := single_append round spell state ((item :: rest).take taken)
          ((item :: rest).drop taken)
        rw [List.take_append_drop, front, Option.bind_some, ← back] at whole
        rw [whole, rounds, result, Option.bind_some, spelled_behind]

/-- A divisible reader does with the segments of a stream what it does with the items of
the stream one by one. -/
theorem segments_single (round : Round σ β γ) (spell : γ → List δ)
    (divisible : Divisible round spell) (state : σ) (pieces : List (List β))
    (nonempty : ∀ piece ∈ pieces, piece ≠ []) :
    spelled spell (segments round state pieces) = single round spell state pieces.flatten := by
  induction pieces generalizing state with
  | nil => rfl
  | cons piece rest ih =>
    obtain ⟨present, others⟩ := List.forall_mem_cons.mp nonempty
    have front := rounds_single round spell divisible piece.length state piece (Nat.le_refl _)
    rw [List.flatten_cons, single_append, ← front, segments, segment, if_neg present]
    cases rounds round piece.length state piece with
    | none => rfl
    | some outcome =>
      obtain ⟨next, entries⟩ := outcome
      rw [Option.bind_some, spelled_behind, ih next others]
      rfl

/-- Cuts of one stream do not matter: both readers stop, or both end in one state with
entries that spell the same. -/
theorem segments_cut (round : Round σ β γ) (spell : γ → List δ)
    (divisible : Divisible round spell) (state : σ) (pieces others : List (List β))
    (nonempty : ∀ piece ∈ pieces, piece ≠ []) (nonempty' : ∀ piece ∈ others, piece ≠ [])
    (same : pieces.flatten = others.flatten) :
    spelled spell (segments round state pieces) = spelled spell (segments round state others) := by
  rw [segments_single round spell divisible state pieces nonempty,
    segments_single round spell divisible state others nonempty', same]

/-- What single items do, any segments of the same stream do up to spelling. -/
theorem segments_of_single (round : Round σ β γ) (spell : γ → List δ)
    (divisible : Divisible round spell) (state final : σ) (pieces : List (List β))
    (done : List δ) (nonempty : ∀ piece ∈ pieces, piece ≠ [])
    (read : single round spell state pieces.flatten = some (final, done)) :
    ∃ entries, segments round state pieces = some (final, entries) ∧
      entries.flatMap spell = done := by
  have agree := segments_single round spell divisible state pieces nonempty
  rw [read, spelled, Option.map_eq_some_iff] at agree
  obtain ⟨⟨last, entries⟩, result, spelling⟩ := agree
  cases spelling
  exact ⟨entries, result, rfl⟩

/-- The reader moves between two states over some items with a spelling. -/
def Reads (round : Round σ β γ) (spell : γ → List δ) (before : σ) (items : List β) (after : σ)
    (done : List δ) : Prop :=
  single round spell before items = some (after, done)

/-- Nothing is read from no items. -/
theorem Reads.nil (round : Round σ β γ) (spell : γ → List δ) (state : σ) :
    Reads round spell state [] state [] := rfl

/-- Readings compose. -/
theorem Reads.append {round : Round σ β γ} {spell : γ → List δ} {before middle after : σ}
    {first second : List β} {done later : List δ}
    (reads : Reads round spell before first middle done)
    (continues : Reads round spell middle second after later) :
    Reads round spell before (first ++ second) after (done ++ later) := by
  have front : single round spell before first = some (middle, done) := reads
  have back : single round spell middle second = some (after, later) := continues
  rw [Reads, single_append, front, Option.bind_some, back]
  rfl

/-- One item is read by its round. -/
theorem Reads.one {round : Round σ β γ} (spell : γ → List δ) {before after : σ} {item : β}
    {taken : Nat} {entries : List γ} (result : round before [item] = some (after, taken, entries)) :
    Reads round spell before [item] after (entries.flatMap spell) := by
  rw [Reads, single, result]
  simp [single]

/-- One item in front of others. -/
theorem Reads.cons {round : Round σ β γ} {spell : γ → List δ} {before middle after : σ}
    {item : β} {items : List β} {taken : Nat} {entries : List γ} {later : List δ}
    (result : round before [item] = some (middle, taken, entries))
    (continues : Reads round spell middle items after later) :
    Reads round spell before (item :: items) after (entries.flatMap spell ++ later) :=
  (Reads.one spell result).append continues

/-- A reader that stays away from fewer states does the same. -/
theorem Reads.mono {round larger : Round σ β γ} {spell : γ → List δ} {before after : σ}
    {items : List β} {done : List δ}
    (agree : ∀ state item took, round state [item] = some took → larger state [item] = some took)
    (reads : Reads round spell before items after done) :
    Reads larger spell before items after done := by
  have small : single round spell before items = some (after, done) := reads
  show single larger spell before items = some (after, done)
  induction items generalizing before done with
  | nil => exact small
  | cons item items ih =>
    rw [single] at small ⊢
    obtain ⟨took, first, rest⟩ := Option.bind_eq_some_iff.mp small
    obtain ⟨read, later, same⟩ := Option.map_eq_some_iff.mp rest
    cases same
    rw [agree before item took first, Option.bind_some, ih later later]
    rfl

/-- A reading passes through every point of its stream. -/
theorem Reads.split {round : Round σ β γ} {spell : γ → List δ} {before after : σ}
    {first second : List β} {done : List δ}
    (reads : Reads round spell before (first ++ second) after done) :
    ∃ middle early late, Reads round spell before first middle early ∧
      Reads round spell middle second after late ∧ done = early ++ late := by
  have whole : single round spell before (first ++ second) = some (after, done) := reads
  rw [single_append] at whole
  obtain ⟨⟨middle, early⟩, front, rest⟩ := Option.bind_eq_some_iff.mp whole
  obtain ⟨⟨last, late⟩, back, same⟩ := Option.map_eq_some_iff.mp rest
  cases same
  exact ⟨middle, early, late, front, back, rfl⟩

/-- What every single item preserves, a reading preserves. Induction on the items. -/
theorem Reads.preserves {round : Round σ β γ} {spell : γ → List δ} {before after : σ}
    {items : List β} {done : List δ} (invariant : σ → List δ → Prop)
    (step : ∀ state item next taken entries earlier, invariant state earlier →
      round state [item] = some (next, taken, entries) →
        invariant next (earlier ++ entries.flatMap spell))
    (reads : Reads round spell before items after done) (earlier : List δ)
    (start : invariant before earlier) : invariant after (earlier ++ done) := by
  have whole : single round spell before items = some (after, done) := reads
  induction items generalizing before done earlier with
  | nil =>
    cases whole
    rw [List.append_nil]
    exact start
  | cons item items ih =>
    rw [single] at whole
    obtain ⟨⟨next, taken, entries⟩, first, rest⟩ := Option.bind_eq_some_iff.mp whole
    obtain ⟨read, later, same⟩ := Option.map_eq_some_iff.mp rest
    cases same
    have moved := step before item next taken entries earlier start first
    have last := ih later _ moved later
    rw [List.append_assoc] at last
    exact last

/-- The reader takes exactly these portions of a stream, whatever lies behind them in their
segments. -/
inductive Consumes (round : Round σ β γ) : σ → List (List β) → σ → List γ → Prop
  | nil (state : σ) : Consumes round state [] state []
  | cons {before middle after : σ} {portion : List β} {portions : List (List β)}
      {entries later : List γ} (present : portion ≠ [])
      (result : ∀ rest, round before (portion ++ rest) = some (middle, portion.length, entries))
      (continues : Consumes round middle portions after later) :
      Consumes round before (portion :: portions) after (entries ++ later)

/-- Portions of two readings. -/
theorem Consumes.append {round : Round σ β γ} {before middle after : σ}
    {first second : List (List β)} {entries later : List γ}
    (front : Consumes round before first middle entries)
    (back : Consumes round middle second after later) :
    Consumes round before (first ++ second) after (entries ++ later) := by
  induction front with
  | nil state => exact back
  | cons present result continues ih =>
    rw [List.append_assoc]
    exact .cons present result (ih back)

/-- Portions can be parted. -/
theorem Consumes.split {round : Round σ β γ} {before after : σ} {first second : List (List β)}
    {entries : List γ} (consumes : Consumes round before (first ++ second) after entries) :
    ∃ middle early late, Consumes round before first middle early ∧
      Consumes round middle second after late ∧ entries = early ++ late := by
  induction first generalizing before entries with
  | nil => exact ⟨before, [], entries, .nil before, consumes, rfl⟩
  | cons portion portions ih =>
    cases consumes with
    | cons present result continues =>
      obtain ⟨middle, early, late, front, back, whole⟩ := ih continues
      refine ⟨middle, _ ++ early, late, .cons present result front, back, ?_⟩
      rw [whole, List.append_assoc]

/-- A reader that stays away from fewer states takes the same portions. -/
theorem Consumes.mono {round larger : Round σ β γ} {before after : σ}
    {portions : List (List β)} {entries : List γ}
    (agree : ∀ state items took, round state items = some took → larger state items = some took)
    (consumes : Consumes round before portions after entries) :
    Consumes larger before portions after entries := by
  induction consumes with
  | nil state => exact .nil state
  | cons present result continues ih =>
    exact .cons present (fun rest => agree _ _ _ (result rest)) ih

/-- The items of the portions, one by one. -/
theorem Consumes.reads {round : Round σ β γ} {spell : γ → List δ}
    (divisible : Divisible round spell) {before after : σ} {portions : List (List β)}
    {entries : List γ} (consumes : Consumes round before portions after entries) :
    Reads round spell before portions.flatten after (entries.flatMap spell) := by
  induction consumes with
  | nil state => exact Reads.nil round spell state
  | @cons before middle after portion portions entries later present result continues ih =>
    rw [List.flatten_cons, List.flatMap_append]
    refine Reads.append ?_ ih
    obtain ⟨item, items, rfl⟩ := List.exists_cons_of_ne_nil present
    have whole := result []
    rw [List.append_nil] at whole
    obtain ⟨_, single⟩ := divisible.portion _ _ _ _ _ _ whole
    rw [List.take_length] at single
    exact single

/-- Portions at the front of a segment. Induction on the portions. -/
theorem Consumes.rounds {round : Round σ β γ} {before after : σ} {portions : List (List β)}
    {entries : List γ} (consumes : Consumes round before portions after entries) (fuel : Nat)
    (enough : portions.flatten.length ≤ fuel) :
    PortionedStreams.rounds round fuel before portions.flatten = some (after, entries) := by
  induction consumes generalizing fuel with
  | nil state => cases fuel <;> rfl
  | @cons before middle after portion portions entries later present result continues ih =>
    have positive := List.length_pos_iff.mpr present
    rw [List.flatten_cons, List.length_append] at enough
    cases fuel with
    | zero => omega
    | succ fuel =>
      obtain ⟨item, items, shape⟩ := List.exists_cons_of_ne_nil present
      have stream : (portion :: portions).flatten = item :: (items ++ portions.flatten) := by
        rw [List.flatten_cons, shape]
        rfl
      have behind := ih fuel (by omega)
      have took := result portions.flatten
      rw [← List.flatten_cons, stream] at took
      rw [stream, PortionedStreams.rounds, took, Option.bind_some, ← stream, List.flatten_cons,
        List.drop_left, behind]
      rfl

/-- Segments that cut a stream between its portions and nowhere else: the reader does
exactly what the portions do. -/
theorem Consumes.segments {round : Round σ β γ} {before after : σ}
    {groups : List (List (List β))} {entries : List γ}
    (nonempty : ∀ group ∈ groups, group ≠ [])
    (consumes : Consumes round before groups.flatten after entries) :
    PortionedStreams.segments round before (groups.map List.flatten) = some (after, entries) := by
  induction groups generalizing before entries with
  | nil =>
    cases consumes
    rfl
  | cons group groups ih =>
    obtain ⟨present, others⟩ := List.forall_mem_cons.mp nonempty
    obtain ⟨middle, early, late, front, back, whole⟩ := Consumes.split consumes
    have read := front.rounds group.flatten.length (Nat.le_refl _)
    have some_item : group.flatten ≠ [] := by
      cases front with
      | nil => exact absurd rfl present
      | cons filled result continues =>
        intro empty
        rw [List.flatten_cons] at empty
        exact filled (List.append_eq_nil_iff.mp empty).1
    rw [List.map_cons, PortionedStreams.segments, segment, if_neg some_item, read,
      Option.bind_some, ih others back, whole]
    rfl

end WhirlpoolAc.PortionedStreams
