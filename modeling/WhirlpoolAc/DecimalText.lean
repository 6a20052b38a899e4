import Mathlib.Data.List.Basic

/-!
# Decimal numerals over an arbitrary alphabet

A numeral is written from its least significant end, as a do-while loop over the
quotient does, so zero has one digit. It is read as the longest run of digits at
the front of a sequence. Writing takes the symbol of each digit and reading takes
a partial digit value; nothing else is assumed about the alphabet, so one round
trip serves byte strings and text alike.
-/

namespace WhirlpoolAc.DecimalText

universe u
variable {α : Type u}

/-- Put the digits of `value` in front of what is already written. One unit of
fuel is spent on each digit. -/
def writeLoop (symbol : Nat → α) : Nat → Nat → List α → List α
  | 0, _, written => written
  | fuel + 1, value, written =>
      if value / 10 = 0 then symbol (value % 10) :: written
      else writeLoop symbol fuel (value / 10) (symbol (value % 10) :: written)

/-- The decimal numeral of a number. -/
def decimal (symbol : Nat → α) (value : Nat) : List α := writeLoop symbol (value + 1) value []

/-- Values of the digits at the front of a sequence, up to the first other symbol. -/
def digitRun (digit : α → Option Nat) : List α → List Nat
  | [] => []
  | first :: rest =>
      match digit first with
      | some value => value :: digitRun digit rest
      | none => []

/-- The number denoted by digits, most significant first. -/
def number (digits : List Nat) : Nat := digits.foldl (fun value digit => 10 * value + digit) 0

/-- Every symbol is written for the digit the loop computes, whatever the alphabet. -/
theorem writeLoop_map (symbol : Nat → α) (fuel value : Nat) (written : List Nat) :
    writeLoop symbol fuel value (written.map symbol) =
      (writeLoop id fuel value written).map symbol := by
  induction fuel generalizing value written with
  | zero => rfl
  | succ fuel ih =>
    by_cases last : value / 10 = 0
    · simp [writeLoop, last]
    · simpa [writeLoop, last] using ih (value / 10) (value % 10 :: written)

/-- The loop writes decimal digits only. -/
theorem writeLoop_digits (fuel value : Nat) (written : List Nat)
    (small : ∀ digit ∈ written, digit < 10) :
    ∀ digit ∈ writeLoop id fuel value written, digit < 10 := by
  induction fuel generalizing value written with
  | zero => exact small
  | succ fuel ih =>
    have extended : ∀ digit ∈ value % 10 :: written, digit < 10 := by
      intro digit member
      rcases List.mem_cons.mp member with rfl | earlier
      · exact Nat.mod_lt _ (by decide)
      · exact small digit earlier
    by_cases last : value / 10 = 0
    · simpa [writeLoop, last] using extended
    · simpa [writeLoop, last] using ih (value / 10) (value % 10 :: written) extended

/-- With enough fuel the written digits denote the value followed by what was
already there. The quotient decreases, so the value itself bounds the digits. -/
theorem writeLoop_foldl (fuel value : Nat) (written : List Nat) (enough : value < fuel) :
    (writeLoop id fuel value written).foldl (fun value digit => 10 * value + digit) 0 =
      written.foldl (fun value digit => 10 * value + digit) value := by
  induction fuel generalizing value written with
  | zero => omega
  | succ fuel ih =>
    by_cases last : value / 10 = 0
    · have single : value % 10 = value := by omega
      simp [writeLoop, last, single]
    · have joined : 10 * (value / 10) + value % 10 = value := Nat.div_add_mod value 10
      simp only [writeLoop, last, if_false, id_eq]
      rw [ih _ _ (by omega), List.foldl_cons, joined]

/-- Reading a run of written digits returns them and goes on behind them. -/
theorem digitRun_append (symbol : Nat → α) (digit : α → Option Nat)
    (reads : ∀ value < 10, digit (symbol value) = some value)
    (digits : List Nat) (small : ∀ value ∈ digits, value < 10) (rest : List α) :
    digitRun digit (digits.map symbol ++ rest) = digits ++ digitRun digit rest := by
  induction digits with
  | nil => rfl
  | cons first others ih =>
    have head : digit (symbol first) = some first := reads first (small first (by simp))
    have tail := ih fun value member => small value (by simp [member])
    simp [digitRun, head, tail]

/-- The digits of a numeral, independent of the alphabet. -/
def decimalDigits (value : Nat) : List Nat := writeLoop id (value + 1) value []

/-- A numeral is the symbol-wise image of its digits. -/
theorem decimal_eq_map (symbol : Nat → α) (value : Nat) :
    decimal symbol value = (decimalDigits value).map symbol := by
  simpa [decimal, decimalDigits] using writeLoop_map symbol (value + 1) value []

/-- The digits of a numeral are decimal digits. -/
theorem decimalDigits_lt (value : Nat) : ∀ digit ∈ decimalDigits value, digit < 10 :=
  writeLoop_digits (value + 1) value [] (by simp)

/-- The digits of a numeral denote its value. -/
theorem number_decimalDigits (value : Nat) : number (decimalDigits value) = value := by
  simpa [number, decimalDigits] using writeLoop_foldl (value + 1) value [] (by omega)

/-- A numeral is never empty, not even for zero. -/
theorem decimalDigits_ne_nil (value : Nat) : decimalDigits value ≠ [] := by
  have kept (fuel value : Nat) (written : List Nat) (nonempty : written ≠ []) :
      writeLoop id fuel value written ≠ [] := by
    induction fuel generalizing value written with
    | zero => exact nonempty
    | succ fuel ih =>
      by_cases last : value / 10 = 0
      · simp [writeLoop, last]
      · simpa [writeLoop, last] using ih (value / 10) (value % 10 :: written) (by simp)
  by_cases last : value / 10 = 0
  · simp [decimalDigits, writeLoop, last]
  · simpa [decimalDigits, writeLoop, last] using kept value (value / 10) [value % 10] (by simp)

/-- Reading a numeral in front of a non-digit returns exactly its digits. -/
theorem digitRun_decimal (symbol : Nat → α) (digit : α → Option Nat)
    (reads : ∀ value < 10, digit (symbol value) = some value) (value : Nat) (rest : List α)
    (stops : digitRun digit rest = []) :
    digitRun digit (decimal symbol value ++ rest) = decimalDigits value := by
  rw [decimal_eq_map, digitRun_append symbol digit reads _ (decimalDigits_lt value), stops,
    List.append_nil]

end WhirlpoolAc.DecimalText
