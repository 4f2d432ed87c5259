import Mathlib.Data.Nat.Digits.Defs
import Mathlib.Tactic.Ring

/-!
# Decimal numerals

Reading and writing natural numbers in base ten. Writing is core's `Nat.toDigits 10`;
`parseNat` reads a non-empty run of ASCII digits, and reads back what was written
(`parseNat_toDigits`).
-/

namespace Decimal

/-- The number a non-empty list of ASCII digits denotes. -/
def parseNat (cs : List Char) : Option Nat :=
  if cs ≠ [] ∧ cs.all Char.isDigit then some (Nat.ofDigitChars 10 cs 0) else none

theorem isDigit_of_mem_toDigits {n : Nat} {c : Char} (h : c ∈ Nat.toDigits 10 n) :
    c.isDigit = true :=
  Nat.isDigit_of_mem_toDigits (by decide) (by decide) h

/-- Reading back a written number. -/
theorem parseNat_toDigits (n : Nat) : parseNat (Nat.toDigits 10 n) = some n := by
  have hall : (Nat.toDigits 10 n).all Char.isDigit = true :=
    List.all_eq_true.mpr fun c hc => isDigit_of_mem_toDigits hc
  rw [parseNat, if_pos ⟨Nat.toDigits_ne_nil, hall⟩, Nat.ofDigitChars_ten_toDigits]

/-- A written number starts with a digit, so with no sign and no separator. -/
theorem ne_head_toDigits {n : Nat} {c : Char} {cs : List Char} (h : Nat.toDigits 10 n = c :: cs) :
    c.isDigit = true :=
  isDigit_of_mem_toDigits (h ▸ List.mem_cons_self)

end Decimal
