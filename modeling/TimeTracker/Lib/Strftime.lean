import Mathlib.Logic.Function.Basic
import TimeTracker.Lib.Decimal

/-!
# Formats of dates and times

A format such as `%Y-%m-%d` as a list of items (`items`), and what the items print and read.

* A number is printed with leading zeros. It is read with any number of digits up to its width;
  whitespace in front of it is skipped. A year outside `0..9999` has a sign, and after a sign all
  digits are read.
* `Parsed` collects the numbers that have been read. A number that is out of range, or that
  contradicts an earlier one, is refused.
* **`parse_print`**: reading with the items that have been printed gives the numbers back, where
  the text after an item cannot be taken for a part of it (`ReadsBack`).
-/

namespace Strftime

/-! ## Items -/

/-- The numbers of a date and a time. -/
inductive Field where
  | year
  | month
  | day
  | hour
  | minute
  | second
  | nanosecond
deriving DecidableEq

inductive Item where
  | literal (c : Char)
  /-- whitespace: printed as it is, and read as any whitespace, or none -/
  | space (text : List Char)
  | numeric (field : Field)
  /-- nothing, or a point and the decimals of the second -/
  | fraction
deriving DecidableEq

/-- The digits of a number that are printed, and the most that are read. -/
def Field.width : Field → Nat
  | .year => 4
  | .nanosecond => 9
  | _ => 2

/-- The values that are accepted; second 60 is a leap second. -/
def Field.inRange (v : Int) : Field → Bool
  | .year => -2147483648 ≤ v && v ≤ 2147483647
  | .month => 1 ≤ v && v ≤ 12
  | .day => 1 ≤ v && v ≤ 31
  | .hour => 0 ≤ v && v ≤ 23
  | .minute => 0 ≤ v && v ≤ 59
  | .second => 0 ≤ v && v ≤ 60
  | .nanosecond => 0 ≤ v && v ≤ 999999999

/-- The characters with the Unicode property `White_Space`. -/
def isWhiteSpace (c : Char) : Bool :=
  let n := c.toNat
  (9 ≤ n && n ≤ 13) || n = 32 || n = 133 || n = 160 || n = 5760 || (8192 ≤ n && n ≤ 8202) ||
    n = 8232 || n = 8233 || n = 8239 || n = 8287 || n = 12288

/-- The items of a format; `none` where it has a specifier that is not one of these. -/
def items : List Char → Option (List Item)
  | [] => some []
  | '%' :: 'Y' :: format => (items format).map (.numeric .year :: ·)
  | '%' :: 'm' :: format => (items format).map (.numeric .month :: ·)
  | '%' :: 'd' :: format => (items format).map (.numeric .day :: ·)
  | '%' :: 'H' :: format => (items format).map (.numeric .hour :: ·)
  | '%' :: 'M' :: format => (items format).map (.numeric .minute :: ·)
  | '%' :: 'S' :: format => (items format).map (.numeric .second :: ·)
  | '%' :: 'f' :: format => (items format).map (.numeric .nanosecond :: ·)
  | '%' :: '.' :: 'f' :: format => (items format).map (.fraction :: ·)
  | '%' :: _ => none
  | c :: format =>
    (items format).map ((if isWhiteSpace c then .space [c] else .literal c) :: ·)

/-! ## Printing -/

/-- A number with leading zeros. -/
def printNumber (width n : Nat) : List Char := (Nat.toDigits 10 n).leftpad width '0'

def Field.print (v : Int) : Field → List Char
  | .year =>
    if 0 ≤ v ∧ v ≤ 9999 then printNumber 4 v.toNat
    else (if v < 0 then '-' else '+') :: printNumber 4 v.natAbs
  | field => printNumber field.width v.toNat

/-- As few of 0, 3, 6 and 9 decimals as there are. -/
def printFraction (nano : Nat) : List Char :=
  if nano = 0 then []
  else if nano % 1000000 = 0 then '.' :: printNumber 3 (nano / 1000000)
  else if nano % 1000 = 0 then '.' :: printNumber 6 (nano / 1000)
  else '.' :: printNumber 9 nano

def Item.print (fields : Field → Int) : Item → List Char
  | .literal c => [c]
  | .space text => text
  | .numeric field => field.print (fields field)
  | .fraction => printFraction (fields .nanosecond).toNat

def print (fields : Field → Int) (items : List Item) : List Char :=
  items.flatMap (Item.print fields)

/-! ## Reading -/

def trimStart (s : List Char) : List Char := s.dropWhile isWhiteSpace

/-- A number of at least one digit and at most `max`. -/
def scanNumber (max : Nat) (s : List Char) : Option (Nat × List Char) :=
  let digits := (s.takeWhile Char.isDigit).take max
  if digits = [] then none else some (Nat.ofDigitChars 10 digits 0, s.drop digits.length)

/-- A number with a sign has any number of digits. -/
def scanSigned (max : Nat) : List Char → Option (Int × List Char)
  | '-' :: s => (scanNumber s.length s).map fun (n, rest) => (-(n : Int), rest)
  | '+' :: s => (scanNumber s.length s).map fun (n, rest) => ((n : Int), rest)
  | s => (scanNumber max s).map fun (n, rest) => ((n : Int), rest)

/-- Up to nine decimals; more are skipped. -/
def scanNanosecond (s : List Char) : Option (Int × List Char) :=
  (scanNumber 9 s).map fun (n, rest) =>
    ((n * 10 ^ (9 - (s.length - rest.length)) : Nat), rest.dropWhile Char.isDigit)

def Field.scan (s : List Char) : Field → Option (Int × List Char)
  | .year => scanSigned Field.year.width s
  | field => (scanNumber field.width s).map fun (n, rest) => ((n : Int), rest)

/-- The numbers that have been read. -/
abbrev Parsed := Field → Option Int

def Parsed.set (parsed : Parsed) (field : Field) (v : Int) : Option Parsed :=
  if field.inRange v ∧ (parsed field).all (· = v) then
    some (Function.update parsed field (some v))
  else none

def parseFraction (parsed : Parsed) : List Char → Option (Parsed × List Char)
  | '.' :: s =>
    (scanNanosecond s).bind fun (v, rest) =>
      (parsed.set .nanosecond v).map fun parsed => (parsed, rest)
  | s => some (parsed, s)

def Item.parse (parsed : Parsed) (s : List Char) : Item → Option (Parsed × List Char)
  | .literal c =>
    match s with
    | c' :: s => if c = c' then some (parsed, s) else none
    | [] => none
  | .space _ => some (parsed, trimStart s)
  | .numeric field =>
    (field.scan (trimStart s)).bind fun (v, rest) =>
      (parsed.set field v).map fun parsed => (parsed, rest)
  | .fraction => parseFraction parsed s

def parseItems : List Item → Parsed → List Char → Option (Parsed × List Char)
  | [], parsed, s => some (parsed, s)
  | item :: items, parsed, s =>
    (item.parse parsed s).bind fun (parsed, rest) => parseItems items parsed rest

/-- The numbers of a text, which is to be read to its end. -/
def parse (items : List Item) (s : List Char) : Option Parsed :=
  match parseItems items (fun _ => none) s with
  | some (parsed, []) => some parsed
  | _ => none

/-! ## Numbers are read back -/

/-- A text that does not go on with a digit. -/
def NoDigitNext (rest : List Char) : Prop := ∀ c ∈ rest.head?, c.isDigit = false

section
variable {width n max : Nat} {digits rest : List Char}

theorem not_isWhiteSpace_of_isDigit {c : Char} (h : c.isDigit = true) :
    isWhiteSpace c = false := by
  have hdigit : 48 ≤ c.toNat ∧ c.toNat ≤ 57 := by
    simpa [Char.isDigit, UInt32.le_iff_toNat_le] using h
  unfold isWhiteSpace
  simp
  omega

theorem isDigit_of_mem_printNumber {c : Char} (h : c ∈ printNumber width n) :
    c.isDigit = true := by
  rcases List.mem_append.mp h with h | h
  · rw [List.eq_of_mem_replicate h]
    rfl
  · exact Decimal.isDigit_of_mem_toDigits h

theorem printNumber_ne_nil : printNumber width n ≠ [] :=
  List.append_ne_nil_of_right_ne_nil _ Nat.toDigits_ne_nil

/-- Where the number fits, it is printed with exactly its width. -/
theorem length_printNumber (hwidth : 0 < width) (h : n < 10 ^ width) :
    (printNumber width n).length = width := by
  have hle := (Nat.length_toDigits_le_iff (by decide) hwidth).mpr h
  rw [printNumber, List.length_leftpad]
  omega

theorem ofDigitChars_printNumber : Nat.ofDigitChars 10 (printNumber width n) 0 = n := by
  rw [printNumber, List.leftpad, Nat.ofDigitChars_append, Nat.ofDigitChars_replicate_zero,
    Nat.mul_zero, Nat.ofDigitChars_ten_toDigits]

theorem takeWhile_of_noDigitNext (h : NoDigitNext rest) : rest.takeWhile Char.isDigit = [] := by
  cases rest with
  | nil => rfl
  | cons c rest => simp [h c rfl]

/-- Digits are read up to the next character that is none, or up to the width. -/
theorem scanNumber_append (hne : digits ≠ []) (hdigits : ∀ c ∈ digits, c.isDigit = true)
    (hmax : digits.length = max ∨ digits.length ≤ max ∧ NoDigitNext rest) :
    scanNumber max (digits ++ rest) = some (Nat.ofDigitChars 10 digits 0, rest) := by
  have htake : ((digits ++ rest).takeWhile Char.isDigit).take max = digits := by
    rw [List.takeWhile_append_of_pos hdigits]
    rcases hmax with hmax | ⟨hmax, hrest⟩
    · rw [← hmax, List.take_left]
    · rw [takeWhile_of_noDigitNext hrest, List.append_nil, List.take_of_length_le hmax]
  unfold scanNumber
  simp only [htake, if_neg hne, List.drop_left]

/-- A number with leading zeros is read back. -/
theorem scanNumber_printNumber (rest : List Char) (hwidth : 0 < width) (h : n < 10 ^ width) :
    scanNumber width (printNumber width n ++ rest) = some (n, rest) := by
  rw [scanNumber_append printNumber_ne_nil (fun _ => isDigit_of_mem_printNumber)
    (.inl (length_printNumber hwidth h)), ofDigitChars_printNumber]

/-- Without a bound it is read to its end. -/
theorem scanNumber_printNumber_of_le (hmax : (printNumber width n).length ≤ max)
    (hrest : NoDigitNext rest) :
    scanNumber max (printNumber width n ++ rest) = some (n, rest) := by
  rw [scanNumber_append printNumber_ne_nil (fun _ => isDigit_of_mem_printNumber)
    (.inr ⟨hmax, hrest⟩), ofDigitChars_printNumber]

/-- Decimals are read back as nanoseconds. -/
theorem scanNanosecond_printNumber (hwidth : 0 < width) (hle : width ≤ 9) (h : n < 10 ^ width)
    (hrest : NoDigitNext rest) :
    scanNanosecond (printNumber width n ++ rest) =
      some (((n * 10 ^ (9 - width) : Nat) : Int), rest) := by
  have hlength := length_printNumber hwidth h
  have hskip : rest.dropWhile Char.isDigit = rest := by
    cases rest with
    | nil => rfl
    | cons c rest => simp [hrest c rfl]
  rw [scanNanosecond, scanNumber_printNumber_of_le (by omega) hrest, Option.map_some]
  simp only [List.length_append, hlength, Nat.add_sub_cancel, hskip]

theorem noDigitNext_nil : NoDigitNext [] := fun _ hc => by cases hc

theorem noDigitNext_cons {c : Char} (h : c.isDigit = false) : NoDigitNext (c :: rest) := by
  intro c' hc
  cases hc
  exact h

theorem noSpaceNext_cons {c : Char} (h : isWhiteSpace c = false) :
    ∀ c' ∈ (c :: rest).head?, isWhiteSpace c' = false := by
  intro c' hc
  cases hc
  exact h

/-- A text that starts with no whitespace has none to skip. -/
theorem trimStart_of_noSpaceNext (h : ∀ c ∈ rest.head?, isWhiteSpace c = false) :
    trimStart rest = rest := by
  cases rest with
  | nil => rfl
  | cons c rest =>
    rw [trimStart, List.dropWhile_cons, h c rfl]
    rfl

/-- A digit is no whitespace. -/
theorem trimStart_printNumber : trimStart (printNumber width n ++ rest) =
    printNumber width n ++ rest := by
  cases htext : printNumber width n with
  | nil => exact absurd htext printNumber_ne_nil
  | cons c cs =>
    have hc : c.isDigit = true := isDigit_of_mem_printNumber (htext ▸ List.mem_cons_self)
    exact trimStart_of_noSpaceNext (noSpaceNext_cons (not_isWhiteSpace_of_isDigit hc))

end

/-! ## Items are read back -/

section
variable {fields : Field → Int} {parsed : Parsed} {rest : List Char} {v : Int}

/-- Digits are read without a sign. -/
theorem scanSigned_printNumber {width n max : Nat} :
    scanSigned max (printNumber width n ++ rest) =
      (scanNumber max (printNumber width n ++ rest)).map fun (n, rest) => ((n : Int), rest) := by
  cases htext : printNumber width n with
  | nil => exact absurd htext printNumber_ne_nil
  | cons c cs =>
    have hc : c.isDigit = true := isDigit_of_mem_printNumber (htext ▸ List.mem_cons_self)
    rw [List.cons_append]
    unfold scanSigned
    split
    · next heq =>
      cases heq
      exact absurd hc (by decide)
    · next heq =>
      cases heq
      exact absurd hc (by decide)
    · rfl

/-- A year is read back, up to the next character that is no digit. -/
theorem scan_print_year (hrest : NoDigitNext rest) :
    Field.year.scan (trimStart (Field.year.print v ++ rest)) = some (v, rest) := by
  show scanSigned 4 (trimStart ((if 0 ≤ v ∧ v ≤ 9999 then _ else _) ++ rest)) = _
  by_cases hfour : 0 ≤ v ∧ v ≤ 9999
  · have hscan : scanNumber 4 (printNumber 4 v.toNat ++ rest) = some (v.toNat, rest) :=
      scanNumber_printNumber rest (by decide) (by omega)
    rw [if_pos hfour, trimStart_printNumber, scanSigned_printNumber, hscan, Option.map_some]
    simp only [Int.toNat_of_nonneg hfour.1]
  · have hscan : scanNumber (printNumber 4 v.natAbs ++ rest).length
        (printNumber 4 v.natAbs ++ rest) = some (v.natAbs, rest) :=
      scanNumber_printNumber_of_le (by rw [List.length_append]; omega) hrest
    rw [if_neg hfour]
    by_cases hneg : v < 0
    · have habs : -(v.natAbs : Int) = v := by omega
      rw [if_pos hneg]
      show (scanNumber (printNumber 4 v.natAbs ++ rest).length
        (printNumber 4 v.natAbs ++ rest)).map _ = _
      rw [hscan, Option.map_some]
      simp only [habs]
    · have habs : (v.natAbs : Int) = v := by omega
      rw [if_neg hneg]
      show (scanNumber (printNumber 4 v.natAbs ++ rest).length
        (printNumber 4 v.natAbs ++ rest)).map _ = _
      rw [hscan, Option.map_some]
      simp only [habs]

/-- The values of a field have no more digits than its width, and no sign. -/
theorem Field.lt_of_inRange {field : Field} (hfield : field ≠ .year)
    (h : field.inRange v = true) : 0 ≤ v ∧ v.toNat < 10 ^ field.width := by
  cases field with
  | year => exact absurd rfl hfield
  | _ =>
    simp only [inRange, Bool.and_eq_true, decide_eq_true_eq] at h
    simp only [width]
    omega

/-- A number is read back. -/
theorem Field.scan_print {field : Field} (h : field.inRange v = true)
    (hrest : field = .year → NoDigitNext rest) :
    field.scan (trimStart (field.print v ++ rest)) = some (v, rest) := by
  by_cases hyear : field = .year
  · subst hyear
    exact scan_print_year (hrest rfl)
  · obtain ⟨hpos, hlt⟩ := Field.lt_of_inRange hyear h
    have hwidth : 0 < field.width := by cases field <;> decide
    have hscan := scanNumber_printNumber rest hwidth hlt
    have hread : ∀ s, field.scan s =
        (scanNumber field.width s).map fun (n, rest) => ((n : Int), rest) := by
      cases field with
      | year => exact absurd rfl hyear
      | _ => exact fun _ => rfl
    have hprint : field.print v = printNumber field.width v.toNat := by
      cases field with
      | year => exact absurd rfl hyear
      | _ => rfl
    rw [hread, hprint, trimStart_printNumber, hscan, Option.map_some]
    simp only [Int.toNat_of_nonneg hpos]

/-- The decimals of a second are read back. -/
theorem scanNanosecond_printFraction (nano : Nat) (hpos : nano ≠ 0) (hlt : nano < 1000000000)
    (hrest : NoDigitNext rest) : ∃ digits, printFraction nano = '.' :: digits ∧
      scanNanosecond (digits ++ rest) = some ((nano : Int), rest) := by
  unfold printFraction
  rw [if_neg hpos]
  by_cases hmilli : nano % 1000000 = 0
  · refine ⟨_, if_pos hmilli, ?_⟩
    rw [scanNanosecond_printNumber (by decide) (by decide) (by omega) hrest]
    have hnano : nano / 1000000 * 10 ^ (9 - 3) = nano := by omega
    rw [hnano]
  · rw [if_neg hmilli]
    by_cases hmicro : nano % 1000 = 0
    · refine ⟨_, if_pos hmicro, ?_⟩
      rw [scanNanosecond_printNumber (by decide) (by decide) (by omega) hrest]
      have hnano : nano / 1000 * 10 ^ (9 - 6) = nano := by omega
      rw [hnano]
    · refine ⟨_, if_neg hmicro, ?_⟩
      rw [scanNanosecond_printNumber (by decide) (by decide) (by omega) hrest]
      have hnano : nano * 10 ^ (9 - 9) = nano := by omega
      rw [hnano]

/-- The numbers an item can print. -/
def Item.Fits (fields : Field → Int) : Item → Prop
  | .literal _ => True
  | .space text => ∀ c ∈ text, isWhiteSpace c = true
  | .numeric field => field.inRange (fields field) = true
  | .fraction => Field.nanosecond.inRange (fields .nanosecond) = true

/-- The text after an item cannot be taken for a part of it. -/
def Item.EndsBefore (rest : List Char) : Item → Prop
  | .space _ => ∀ c ∈ rest.head?, isWhiteSpace c = false
  | .numeric .year => NoDigitNext rest
  | .fraction => NoDigitNext rest ∧ rest.head? ≠ some '.'
  | _ => True

/-- The items read what they have printed, in front of this text. -/
def ReadsBack (fields : Field → Int) : List Item → List Char → Prop
  | [], _ => True
  | item :: items, rest =>
    item.Fits fields ∧ item.EndsBefore (print fields items ++ rest) ∧
      ReadsBack fields items rest

theorem readsBack_append {items items' : List Item} :
    ReadsBack fields (items ++ items') rest ↔
      ReadsBack fields items (print fields items' ++ rest) ∧ ReadsBack fields items' rest := by
  induction items with
  | nil => exact (and_iff_right trivial).symm
  | cons item items ih =>
    have hprint : print fields (items ++ items') ++ rest =
        print fields items ++ (print fields items' ++ rest) := by
      rw [print, List.flatMap_append, List.append_assoc]
      rfl
    show _ ∧ item.EndsBefore (print fields (items ++ items') ++ rest) ∧
      ReadsBack fields (items ++ items') rest ↔ (_ ∧ _ ∧ _) ∧ _
    rw [ih, hprint, and_assoc, and_assoc]

/-- What has been read are the numbers that have been printed. -/
def Parsed.Agrees (parsed : Parsed) (fields : Field → Int) : Prop :=
  ∀ field v, parsed field = some v → v = fields field

/-- The numbers an item adds to those that have been read. -/
def Item.record (fields : Field → Int) (parsed : Parsed) : Item → Parsed
  | .numeric field => Function.update parsed field (some (fields field))
  | .fraction =>
    if fields .nanosecond = 0 then parsed
    else Function.update parsed .nanosecond (some (fields .nanosecond))
  | _ => parsed

theorem Parsed.Agrees.update (h : parsed.Agrees fields) (field : Field) :
    Parsed.Agrees (Function.update parsed field (some (fields field))) fields := by
  intro field' v hv
  by_cases heq : field' = field
  · rw [heq, Function.update_self] at hv
    rw [heq, ← Option.some.inj hv]
  · rw [Function.update_of_ne heq] at hv
    exact h field' v hv

theorem Parsed.Agrees.record (h : parsed.Agrees fields) (item : Item) :
    (item.record fields parsed).Agrees fields := by
  cases item with
  | literal c => exact h
  | space text => exact h
  | numeric field => exact h.update field
  | fraction =>
    show Parsed.Agrees (if fields .nanosecond = 0 then _ else _) fields
    split
    · exact h
    · exact h.update .nanosecond

theorem Parsed.Agrees.set (h : parsed.Agrees fields) {field : Field}
    (hrange : field.inRange (fields field) = true) :
    parsed.set field (fields field) =
      some (Function.update parsed field (some (fields field))) := by
  have hold : (parsed field).all (· = fields field) = true := by
    cases hfield : parsed field with
    | none => rfl
    | some v => simpa using h field v hfield
  exact if_pos ⟨hrange, hold⟩

/-- The decimals of a second, which are nothing at a whole second. -/
theorem Item.parse_print_fraction (hfits : Item.fraction.Fits fields)
    (hends : Item.fraction.EndsBefore rest) (hagrees : parsed.Agrees fields) :
    Item.fraction.parse parsed (Item.fraction.print fields ++ rest) =
      some (Item.fraction.record fields parsed, rest) := by
  have hrange : 0 ≤ fields .nanosecond ∧ fields .nanosecond ≤ 999999999 := by
    simpa [Item.Fits, Field.inRange] using hfits
  by_cases hzero : fields .nanosecond = 0
  · have hnothing : Item.fraction.print fields = [] := by
      simp only [Item.print, hzero]
      rfl
    have hrecord : Item.fraction.record fields parsed = parsed := if_pos hzero
    rw [hnothing, hrecord, List.nil_append]
    show parseFraction parsed rest = some (parsed, rest)
    unfold parseFraction
    split
    · next s => exact absurd rfl hends.2
    · rfl
  · obtain ⟨digits, hprint, hscan⟩ := scanNanosecond_printFraction
      (fields .nanosecond).toNat (by omega) (by omega) hends.1
    have htext : Item.fraction.print fields = '.' :: digits := hprint
    have hrecord : Item.fraction.record fields parsed =
        Function.update parsed .nanosecond (some (fields .nanosecond)) := if_neg hzero
    rw [Int.toNat_of_nonneg hrange.1] at hscan
    rw [htext, hrecord, List.cons_append]
    show (scanNanosecond (digits ++ rest)).bind _ = _
    rw [hscan, Option.bind_some]
    show (parsed.set .nanosecond (fields .nanosecond)).map _ = _
    rw [hagrees.set hfits]
    rfl

/-- **An item reads what it has printed.** -/
theorem Item.parse_print {item : Item} (hfits : item.Fits fields) (hends : item.EndsBefore rest)
    (hagrees : parsed.Agrees fields) :
    item.parse parsed (item.print fields ++ rest) = some (item.record fields parsed, rest) := by
  cases item with
  | literal c => exact if_pos rfl
  | space text =>
    show some (parsed, trimStart (text ++ rest)) = some (parsed, rest)
    rw [trimStart, List.dropWhile_append_of_pos hfits, ← trimStart,
      trimStart_of_noSpaceNext hends]
  | numeric field =>
    show (field.scan (trimStart (field.print (fields field) ++ rest))).bind _ = _
    have hyear : field = .year → NoDigitNext rest := by
      rintro rfl
      exact hends
    rw [Field.scan_print hfits hyear, Option.bind_some]
    show (parsed.set field (fields field)).map _ = _
    rw [hagrees.set hfits]
    rfl
  | fraction => exact Item.parse_print_fraction hfits hends hagrees

/-- The items at the front of a format read what they have printed, and leave the rest to the
others. -/
theorem parseItems_print {items : List Item} (rest' : List Item) :
    ∀ {parsed : Parsed}, ReadsBack fields items rest → parsed.Agrees fields →
      parseItems (items ++ rest') parsed (print fields items ++ rest) =
        parseItems rest' (items.foldl (Item.record fields) parsed) rest := by
  induction items with
  | nil => exact fun _ _ => rfl
  | cons item items ih =>
    rintro parsed ⟨hfits, hends, hreads⟩ hagrees
    show (item.parse parsed ((item.print fields ++ print fields items) ++ rest)).bind _ = _
    rw [List.append_assoc, Item.parse_print hfits hends hagrees, Option.bind_some]
    exact ih hreads (hagrees.record item)

/-- **What has been printed is read back.** -/
theorem parse_print {items : List Item} (h : ReadsBack fields items []) :
    parse items (print fields items) =
      some (items.foldl (Item.record fields) fun _ => none) := by
  have hnothing : Parsed.Agrees (fun _ => none) fields := fun _ _ hv => by cases hv
  have hread := parseItems_print [] h hnothing
  rw [List.append_nil, List.append_nil] at hread
  unfold parse
  rw [hread]
  rfl

end

end Strftime
