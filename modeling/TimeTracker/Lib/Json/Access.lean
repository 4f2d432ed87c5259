import Mathlib.Data.List.TakeWhile
import TimeTracker.Lib.Decimal
import TimeTracker.Lib.Json.Syntax

/-!
# Reading and building JSON values

The accessors a program uses on a parsed value, and the numbers it builds from integers.

* `Number.ofInt` writes an integer; its text is a JSON number because a numeral has no leading
  zero (`toDigits_head`).
* The accessors for a machine integer answer only when the number is written without fraction
  and exponent and fits.
-/

namespace Json

/-! ## Integers -/

/-- The text of an integer. -/
def intText : Int → List Char
  | .ofNat n => Nat.toDigits 10 n
  | .negSucc n => '-' :: Nat.toDigits 10 (n + 1)

/-- A numeral has no leading zero, except the numeral of zero. -/
theorem toDigits_head {n : Nat} (hn : 0 < n) :
    ∃ c cs, Nat.toDigits 10 n = c :: cs ∧ c ≠ '0' := by
  induction n using Nat.strongRecOn with
  | ind n ih =>
    by_cases hlt : n < 10
    · refine ⟨n.digitChar, [], Nat.toDigits_of_lt_base hlt, ?_⟩
      have hall : ∀ d : Fin 10, 0 < d.val → d.val.digitChar ≠ '0' := by decide
      exact hall ⟨n, hlt⟩ hn
    · -- the leading digit is that of the quotient
      have hsplit := Nat.toDigits_of_base_le (b := 10) (n := n) (by decide) (by omega)
      obtain ⟨c, cs, hquot, hc⟩ := ih (n / 10) (by omega) (by omega)
      rw [hquot, List.cons_append] at hsplit
      exact ⟨c, _, hsplit, hc⟩

/-- The decimal digits of a number have no zero in front, but for zero itself. -/
theorem isIntDigits_toDigits (n : Nat) : isIntDigits (Nat.toDigits 10 n) = true := by
  have hdigit : ∀ c ∈ Nat.toDigits 10 n, c.isDigit = true := fun _ =>
    Decimal.isDigit_of_mem_toDigits
  rcases Nat.eq_zero_or_pos n with rfl | hn
  · rfl
  · obtain ⟨c, cs, htext, hc⟩ := toDigits_head hn
    rw [htext] at hdigit ⊢
    have hhead : c.isDigit = true := hdigit c List.mem_cons_self
    have htail : cs.all Char.isDigit = true :=
      List.all_eq_true.mpr fun d hd => hdigit d (List.mem_cons_of_mem c hd)
    unfold isIntDigits
    split
    · next heq => cases heq
    · rfl
    · next heq =>
      cases heq
      simp [hc, hhead, htail]

/-- They are digits and nothing else. -/
theorem takeWhile_toDigits (n : Nat) :
    (Nat.toDigits 10 n).takeWhile Char.isDigit = Nat.toDigits 10 n :=
  List.takeWhile_eq_self_iff.mpr fun _ => Decimal.isDigit_of_mem_toDigits

/-- So they are a number in the sense of JSON, -/
theorem isUnsigned_toDigits (n : Nat) : isUnsigned (Nat.toDigits 10 n) = true := by
  have hdrop : (Nat.toDigits 10 n).dropWhile Char.isDigit = [] :=
    List.dropWhile_eq_nil_iff.mpr fun _ => Decimal.isDigit_of_mem_toDigits
  rw [isUnsigned, takeWhile_toDigits, hdrop, isIntDigits_toDigits]
  rfl

/-- with or without the sign it may have. -/
theorem isNumber_toDigits (n : Nat) : isNumber (Nat.toDigits 10 n) = true := by
  have hunsigned := isUnsigned_toDigits n
  cases htext : Nat.toDigits 10 n with
  | nil => exact absurd htext Nat.toDigits_ne_nil
  | cons c cs =>
    have hc := Decimal.ne_head_toDigits htext
    rw [htext] at hunsigned
    unfold isNumber
    split
    · next heq =>
      cases heq
      exact absurd hc (by decide)
    · exact hunsigned

/-- And so is the text of any integer. -/
theorem isNumber_intText (i : Int) : isNumber (intText i) = true := by
  cases i with
  | ofNat n => exact isNumber_toDigits n
  | negSucc n => exact isUnsigned_toDigits (n + 1)

/-- An integer, as a JSON number. -/
def Number.ofInt (i : Int) : Number := ⟨intText i, isNumber_intText i⟩

/-- The integer a number's text stands for. A text with a fraction or an exponent is not one,
and `-0` is not one either. -/
def parseInt : List Char → Option Int
  | '-' :: ds => (Decimal.parseNat ds).bind fun k => if k = 0 then none else some (-(k : Int))
  | ds => (Decimal.parseNat ds).map Int.ofNat

/-! ## Accessors -/

namespace Value

/-- An integer, as a JSON value. -/
def int (i : Int) : Value := .num (.ofInt i)

/-- `null`, or the value. -/
def option {α : Type} (f : α → Value) : Option α → Value
  | some a => f a
  | none => .null

def asStr : Value → Option String
  | .str s => some s
  | _ => none

def asBool : Value → Option Bool
  | .bool b => some b
  | _ => none

def asArray : Value → Option (List Value)
  | .arr elements => some elements
  | _ => none

def asObject : Value → Option (List (String × Value))
  | .obj members => some members
  | _ => none

/-- The value as a signed 64-bit integer. -/
def asI64 : Value → Option Int
  | .num n => (parseInt n.text).filter fun i => -9223372036854775808 ≤ i && i < 9223372036854775808
  | _ => none

/-- The value as an unsigned 64-bit integer. -/
def asU64 : Value → Option Nat
  | .num n => ((parseInt n.text).filter fun i => 0 ≤ i && i < 18446744073709551616).map Int.toNat
  | _ => none

end Value

/-- The value of a member. Of several members with one name the last counts, as when they are
inserted into a map one after the other. -/
def lookup {α : Type} (members : List (String × α)) (key : String) : Option α :=
  (members.reverse.find? fun member => member.1 == key).map Prod.snd

/-- The members of a map ordered by its keys. -/
def sortMembers (members : List (String × Value)) : List (String × Value) :=
  members.mergeSort fun a b => a.1 ≤ b.1

end Json
