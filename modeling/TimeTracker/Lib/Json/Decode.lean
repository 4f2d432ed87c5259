import TimeTracker.Lib.Json.Access

/-!
# Reading records

The values a derived deserialiser accepts. A record is an object with its fields under their names,
in any order and among others, or an array with the fields in the order of their declaration.

* A field that may be absent is `null` or missing then; any other field has to be there.
* A field that is there twice is an error.
* **`decodeOption_option`**, **`decodeArray_map`** and the lemmas between: what has been built with
  the functions of `Value` is read back.
-/

namespace Json

/-! ## Values -/

/-- A deserialiser; `none` is its error. -/
abbrev Decoder (α : Type) := Value → Option α

/-- An integer with these bounds. -/
def decodeInt (low high : Int) : Decoder Int
  | .num n => (parseInt n.text).filter fun i => low ≤ i && i ≤ high
  | _ => none

def decodeI32 : Decoder Int := decodeInt (-2147483648) 2147483647

/-- A string that is parsed. -/
def decodeParsed {α : Type} (parse : String → Option α) : Decoder α
  | .str s => parse s
  | _ => none

/-- `null`, or the value. -/
def decodeOption {α : Type} (decode : Decoder α) : Decoder (Option α)
  | .null => some none
  | value => (decode value).map some

def decodeArray {α : Type} (decode : Decoder α) : Decoder (List α)
  | .arr elements => elements.mapM decode
  | _ => none

/-! ## Records -/

/-- The members of a record with these fields. -/
def recordMembers (fields : List String) : Value → Option (List (String × Value))
  | .obj members =>
    if ((members.map Prod.fst).filter fun key => key ∈ fields).Nodup then some members else none
  | .arr elements => if elements.length = fields.length then some (fields.zip elements) else none
  | _ => none

def decodeField {α : Type} (decode : Decoder α) (members : List (String × Value)) (key : String) :
    Option α :=
  (lookup members key).bind decode

/-- A field that may be absent. -/
def decodeOptionField {α : Type} (decode : Decoder α) (members : List (String × Value))
    (key : String) : Option (Option α) :=
  match lookup members key with
  | some value => decodeOption decode value
  | none => some none

/-- An object in which no name is there twice. -/
theorem recordMembers_obj (fields : List String) {members : List (String × Value)}
    (hnodup : (members.map Prod.fst).Nodup) :
    recordMembers fields (.obj members) = some members :=
  if_pos (hnodup.filter _)

section
variable {α : Type} {decode : Decoder α} (members : List (String × Value)) (key : String)
  (value : Value)

/-- The field of a record is the member of its name. -/
theorem decodeField_of_lookup (h : lookup members key = some value) :
    decodeField decode members key = decode value := by
  rw [decodeField, h, Option.bind_some]

/-- And so is an optional one, if it is there. -/
theorem decodeOptionField_of_lookup (h : lookup members key = some value) :
    decodeOptionField decode members key = decodeOption decode value := by
  unfold decodeOptionField
  rw [h]

end

/-! ## What has been built is read back -/

/-- An integer is read back from its text. -/
theorem parseInt_intText (i : Int) : parseInt (intText i) = some i := by
  cases i with
  | ofNat n =>
    have hunsigned : parseInt (Nat.toDigits 10 n) =
        (Decimal.parseNat (Nat.toDigits 10 n)).map Int.ofNat := by
      unfold parseInt
      split
      · next htext =>
        have hdigit := Decimal.ne_head_toDigits htext
        exact absurd hdigit (by decide)
      · rfl
    show parseInt (Nat.toDigits 10 n) = _
    rw [hunsigned, Decimal.parseNat_toDigits]
    rfl
  | negSucc n =>
    show (Decimal.parseNat (Nat.toDigits 10 (n + 1))).bind _ = _
    rw [Decimal.parseNat_toDigits, Option.bind_some, if_neg (Nat.succ_ne_zero n)]
    rfl

/-- An integer within the bounds is read back, -/
theorem decodeInt_int {low high i : Int} (hlow : low ≤ i) (hhigh : i ≤ high) :
    decodeInt low high (.int i) = some i := by
  show (parseInt (intText i)).filter _ = some i
  rw [parseInt_intText, Option.filter_some, if_pos (by simp [hlow, hhigh])]

/-- as a 64-bit one -/
theorem asI64_int {i : Int} (hlow : -9223372036854775808 ≤ i) (hhigh : i < 9223372036854775808) :
    (Value.int i).asI64 = some i := by
  show (parseInt (intText i)).filter _ = some i
  rw [parseInt_intText, Option.filter_some, if_pos (by simp [hlow, hhigh])]

/-- An optional value is read back. -/
theorem decodeOption_option {α : Type} {decode : Decoder α} {f : α → Value} {o : Option α}
    (hnull : ∀ a ∈ o, f a ≠ .null) (hread : ∀ a ∈ o, decode (f a) = some a) :
    decodeOption decode (.option f o) = some o := by
  cases o with
  | none => rfl
  | some a =>
    have ha := hnull a rfl
    show decodeOption decode (f a) = some (some a)
    unfold decodeOption
    split
    · next heq => exact absurd heq ha
    · rw [hread a rfl, Option.map_some]

/-- or a 32-bit one. -/
theorem decodeI32_int {i : Int} (h : -2147483648 ≤ i ∧ i ≤ 2147483647) :
    decodeI32 (.int i) = some i :=
  decodeInt_int h.1 h.2

/-- `null` is read as `None`, so an optional integer is read back, -/
theorem decodeOption_i32 {o : Option Int} (h : ∀ i ∈ o, -2147483648 ≤ i ∧ i ≤ 2147483647) :
    decodeOption decodeI32 (.option .int o) = some o :=
  decodeOption_option (fun _ _ h => by cases h) fun i hi => decodeI32_int (h i hi)

/-- an optional string -/
theorem decodeOption_str (o : Option String) :
    decodeOption Value.asStr (.option .str o) = some o :=
  decodeOption_option (fun _ _ h => by cases h) fun _ _ => rfl

/-- and an optional truth value. -/
theorem decodeOption_bool (o : Option Bool) :
    decodeOption Value.asBool (.option .bool o) = some o :=
  decodeOption_option (fun _ _ h => by cases h) fun _ _ => rfl

/-- The elements of an array are read one by one. -/
theorem decodeArray_map {α β : Type} {decode : Decoder β} {f : α → Value} {g : α → β}
    {as : List α} (h : ∀ a ∈ as, decode (f a) = some (g a)) :
    decodeArray decode (.arr (as.map f)) = some (as.map g) := by
  show (as.map f).mapM decode = _
  induction as with
  | nil => rfl
  | cons a as ih =>
    rw [List.map_cons, List.mapM_cons, h a List.mem_cons_self,
      ih fun a' ha' => h a' (List.mem_cons_of_mem a ha')]
    rfl

end Json
