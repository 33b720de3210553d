import Mathlib.Data.List.Basic

/-! # Decimal numerals

Numbers as text: padded with zeros to a least width, and read back into a bounded type.
-/

namespace Numeral

/-- The digits of a number, with zeros in front up to a width (`{:03}`). -/
def padded (width n : Nat) : List Char :=
  List.replicate (width - (Nat.toDigits 10 n).length) '0' ++ Nat.toDigits 10 n

/-- A number below a bound, with or without a plus sign (`str::parse` of an unsigned type). -/
def parse (bound : Nat) (text : List Char) : Option Nat :=
  let digits := if text.head? = some '+' then text.tail else text
  if digits ≠ [] ∧ digits.all Char.isDigit then
    let n := Nat.ofDigitChars 10 digits 0
    if n < bound then some n else none
  else none

theorem isDigit_of_mem_padded {width n : Nat} {c : Char} (member : c ∈ padded width n) :
    c.isDigit := by
  rcases List.mem_append.mp member with zero | digit
  · rw [List.eq_of_mem_replicate zero]
    rfl
  · exact Nat.isDigit_of_mem_toDigits (by omega) (by omega) digit

theorem parse_padded (bound width n : Nat) :
    parse bound (padded width n) = if n < bound then some n else none := by
  have digits : (padded width n).all Char.isDigit := List.all_eq_true.mpr fun _ => isDigit_of_mem_padded
  have noSign : (padded width n).head? ≠ some '+' := by
    intro sign
    have digit := isDigit_of_mem_padded (List.mem_of_head? sign)
    exact absurd digit (by decide)
  have notEmpty : padded width n ≠ [] := by simp [padded]
  have value : Nat.ofDigitChars 10 (padded width n) 0 = n := by
    simp [padded, Nat.ofDigitChars_append]
  simp [parse, noSign, digits, notEmpty, value]

theorem parse_lt {bound n : Nat} {text : List Char} (read : parse bound text = some n) : n < bound := by
  simp only [parse, Option.ite_none_right_eq_some, Option.some.injEq] at read
  obtain ⟨-, below, rfl⟩ := read
  exact below

theorem padded_injective {width n m : Nat} (same : padded width n = padded width m) : n = m := by
  have read := congrArg (parse (max n m + 1)) same
  rw [parse_padded, parse_padded, if_pos (by omega), if_pos (by omega)] at read
  exact Option.some.inj read

/-- Numbers with a name in front. -/
theorem named_injective (name : String) : Function.Injective fun n : Nat => name ++ toString n := by
  intro n m same
  have texts := congrArg String.toList same
  have digits : Nat.toDigits 10 n = Nat.toDigits 10 m := by simpa [toString, Nat.repr] using texts
  have padded : padded 0 n = padded 0 m := by simpa [Numeral.padded] using digits
  exact padded_injective padded

end Numeral
