import TimeTracker.Lib.Json.Syntax

/-!
# What is printed is parsed

The parser reads a printed value as that value, and a string between two quotation marks as
itself exactly if it holds no quotation mark, no backslash and no control character. The second
half rests on lengths: no escape is shorter than two characters, so a string body that stands
for as many characters as it has contains none (`stringBody_length`).

* **`reads_print`**: the text of a value is read as that value.
* **`reads_member_print`**: the same for an object with one member, written with a space after
  the colon.
* **`reads_raw_iff`**: a text copied between quotation marks is read as itself exactly if it is
  plain.
-/

namespace Json

/-! ## Strings -/

/-- A character that stands for itself in a string. -/
def isPlain (c : Char) : Bool := c ≠ '"' && c ≠ '\\' && 32 ≤ c.toNat

/-- A text in which every character stands for itself. -/
def plain (s : String) : Bool := s.toList.all isPlain

theorem isPlain_iff {c : Char} : isPlain c = true ↔ c ≠ '"' ∧ c ≠ '\\' ∧ 32 ≤ c.toNat := by
  simp [isPlain, and_assoc]

theorem plain_append (s t : String) : plain (s ++ t) = (plain s && plain t) := by
  rw [plain, String.toList_append, List.all_append]
  rfl

theorem isPlain_of_isDigit {c : Char} (h : c.isDigit = true) : isPlain c = true := by
  rw [isPlain_iff]
  refine ⟨?_, ?_, ?_⟩
  · rintro rfl
    cases h
  · rintro rfl
    cases h
  · simp only [Char.isDigit, Bool.and_eq_true, decide_eq_true_eq] at h
    have hle : 48 ≤ c.toNat := UInt32.le_iff_toNat_le.mp h.1
    omega

theorem escapeChar_of_isPlain {c : Char} (h : isPlain c = true) : escapeChar c = [c] := by
  obtain ⟨hquote, hbackslash, hctl⟩ := isPlain_iff.mp h
  have hne : ∀ d : Char, d.toNat < 32 → c ≠ d := by
    rintro d hd rfl
    omega
  rw [escapeChar, if_neg hquote, if_neg hbackslash, if_neg (by omega), if_neg (by omega),
    if_neg (hne '\n' (by decide)), if_neg (hne '\r' (by decide)), if_neg (hne '\t' (by decide)),
    if_neg (by omega)]

/-- A plain text is not changed by the escaping. -/
theorem escape_of_plain {cs : List Char} (h : cs.all isPlain = true) : escape cs = cs := by
  induction cs with
  | nil => rfl
  | cons c cs ih =>
    rw [List.all_cons, Bool.and_eq_true] at h
    rw [escape, List.flatMap_cons, escapeChar_of_isPlain h.1]
    exact congrArg (c :: ·) (ih h.2)

/-- The text of a plain string is that string between quotation marks. -/
theorem printString_of_plain {s : String} (h : plain s = true) :
    printString s = '"' :: s.toList ++ ['"'] := by
  rw [printString, escape_of_plain h]

theorem hexValue_hexDigit {n : Nat} (h : n < 16) : hexValue (hexDigit n) = some n := by
  have hall : ∀ n : Fin 16, hexValue (hexDigit n) = some n := by decide
  exact hall ⟨n, h⟩

/-- The escape of a control character is read back. -/
theorem unescape_control {c : Char} (h : c.toNat < 32) (cs : List Char) :
    unescape ('u' :: '0' :: '0' :: hexDigit (c.toNat / 16) :: hexDigit (c.toNat % 16) :: cs) =
      some (c, cs) := by
  have hzero : hexValue '0' = some 0 := by decide
  have hhigh := hexValue_hexDigit (n := c.toNat / 16) (by omega)
  have hlow := hexValue_hexDigit (n := c.toNat % 16) (by omega)
  have hhex : hex4 '0' '0' (hexDigit (c.toNat / 16)) (hexDigit (c.toNat % 16)) =
      some c.toNat := by
    rw [hex4, hzero, hhigh, hlow]
    show some (((0 * 16 + 0) * 16 + c.toNat / 16) * 16 + c.toNat % 16) = some c.toNat
    congr 1
    omega
  rw [unescape, hhex]
  have hlt : ¬ (0xD800 ≤ c.toNat ∧ c.toNat < 0xDC00) := by omega
  have hlt' : ¬ (0xDC00 ≤ c.toNat ∧ c.toNat < 0xE000) := by omega
  simp only [hlt, hlt', if_false, Char.ofNat_toNat]

/-- One character of a string is read back. -/
theorem stringBody_escapeChar (c : Char) (fuel : Nat) (cs : List Char) :
    stringBody (fuel + 1) (escapeChar c ++ cs) =
      (stringBody fuel cs).map fun (s, rest) => (c :: s, rest) := by
  have hshort : ∀ e : Char, unescapeChar e = some c → stringBody (fuel + 1) ('\\' :: e :: cs) =
      (stringBody fuel cs).map fun (s, rest) => (c :: s, rest) := by
    intro e he
    have hu : e ≠ 'u' := by
      rintro rfl
      cases he
    have hun : unescape (e :: cs) = some (c, cs) := by
      unfold unescape
      split
      · next heq => cases heq; exact absurd rfl hu
      · next heq => cases heq; rw [he]; rfl
      · next heq => cases heq
    rw [stringBody, if_neg (by decide), if_pos rfl, hun]
    simp only [Option.bind_eq_bind, Option.bind_some]
    cases stringBody fuel cs <;> rfl
  by_cases hquote : c = '"'
  · subst hquote
    exact hshort '"' rfl
  by_cases hbackslash : c = '\\'
  · subst hbackslash
    exact hshort '\\' rfl
  have hofNat : ∀ n, c.toNat = n → Char.ofNat n = c := by
    rintro n rfl
    exact Char.ofNat_toNat c
  rw [escapeChar, if_neg hquote, if_neg hbackslash]
  by_cases h8 : c.toNat = 8
  · rw [if_pos h8]
    exact hshort 'b' (congrArg some (hofNat 8 h8))
  by_cases h12 : c.toNat = 12
  · rw [if_neg h8, if_pos h12]
    exact hshort 'f' (congrArg some (hofNat 12 h12))
  rw [if_neg h8, if_neg h12]
  by_cases hn : c = '\n'
  · subst hn
    exact hshort 'n' rfl
  by_cases hr : c = '\r'
  · subst hr
    exact hshort 'r' rfl
  by_cases ht : c = '\t'
  · subst ht
    exact hshort 't' rfl
  rw [if_neg hn, if_neg hr, if_neg ht]
  by_cases hctl : c.toNat < 32
  · rw [if_pos hctl]
    show stringBody (fuel + 1) ('\\' :: 'u' :: '0' :: '0' :: hexDigit (c.toNat / 16) ::
      hexDigit (c.toNat % 16) :: cs) = _
    rw [stringBody, if_neg (by decide), if_pos rfl, unescape_control hctl]
    simp only [Option.bind_eq_bind, Option.bind_some]
    cases stringBody fuel cs <;> rfl
  · rw [if_neg hctl, List.singleton_append, stringBody, if_neg hquote, if_neg hbackslash,
      if_neg hctl]
    cases stringBody fuel cs <;> rfl

/-- A string body is read back, up to its closing quotation mark. -/
theorem stringBody_escape (s rest : List Char) :
    ∀ fuel, s.length < fuel → stringBody fuel (escape s ++ '"' :: rest) = some (s, rest) := by
  induction s with
  | nil =>
    intro fuel hfuel
    cases fuel with
    | zero => cases hfuel
    | succ fuel => rfl
  | cons c s ih =>
    intro fuel hfuel
    cases fuel with
    | zero => cases hfuel
    | succ fuel =>
      rw [List.length_cons] at hfuel
      rw [escape, List.flatMap_cons, List.append_assoc, stringBody_escapeChar]
      have hrest := ih fuel (by omega)
      rw [escape] at hrest
      rw [hrest]
      rfl

theorem length_escapeChar_pos (c : Char) : 0 < (escapeChar c).length := by
  unfold escapeChar
  split_ifs <;> simp

theorem length_le_escape (s : List Char) : s.length ≤ (escape s).length := by
  induction s with
  | nil => exact Nat.le_refl 0
  | cons c s ih =>
    have hpos := length_escapeChar_pos c
    rw [escape, List.flatMap_cons, List.length_append, List.length_cons]
    rw [escape] at ih
    omega

/-- A printed string is read back. -/
theorem parseString_printString (s : String) (rest : List Char) :
    parseString (escape s.toList ++ '"' :: rest) = some (s, rest) := by
  have hlen := length_le_escape s.toList
  have hbody : stringBody (escape s.toList ++ '"' :: rest).length
      (escape s.toList ++ '"' :: rest) = some (s.toList, rest) := by
    refine stringBody_escape s.toList rest _ ?_
    rw [List.length_append, List.length_cons]
    omega
  rw [parseString, hbody]
  show some (String.ofList s.toList, rest) = some (s, rest)
  rw [String.ofList_toList]

/-- What an escape stands for is shorter than the escape. -/
theorem unescape_length {cs rest : List Char} {c : Char} (h : unescape cs = some (c, rest)) :
    rest.length < cs.length := by
  unfold unescape at h
  split at h
  · split at h
    · cases h
    · split at h
      · split at h
        · split at h
          · cases h
          · split at h
            · obtain ⟨-, rfl⟩ := Prod.mk.inj (Option.some.inj h)
              simp only [List.length_cons]
              omega
            · cases h
        · cases h
      · split at h
        · cases h
        · obtain ⟨-, rfl⟩ := Prod.mk.inj (Option.some.inj h)
          simp only [List.length_cons]
          omega
  · obtain ⟨c', -, heq⟩ := Option.map_eq_some_iff.mp h
    cases heq
    exact Nat.lt_succ_self _
  · cases h

/-- **A string body is at least as long as what it stands for**, with its closing quotation
mark, and as long only if every character stands for itself. -/
theorem stringBody_length {fuel : Nat} : ∀ {cs s rest : List Char},
    stringBody fuel cs = some (s, rest) →
      s.length + rest.length + 1 ≤ cs.length ∧
      (cs.length ≤ s.length + rest.length + 1 →
        cs = s ++ '"' :: rest ∧ s.all isPlain = true) := by
  induction fuel with
  | zero => intro cs s rest h; cases h
  | succ fuel ih =>
    intro cs s rest h
    cases cs with
    | nil => cases h
    | cons c cs =>
      rw [stringBody] at h
      split at h
      · next hquote =>
        cases h
        subst hquote
        exact ⟨by simp, fun _ => ⟨rfl, rfl⟩⟩
      · next hquote =>
        split at h
        · -- an escape: what is left is too short for equality
          obtain ⟨⟨d, cs'⟩, hunescape, h⟩ := Option.bind_eq_some_iff.mp h
          obtain ⟨⟨s', rest'⟩, hbody, h⟩ := Option.bind_eq_some_iff.mp h
          cases h
          have hlt := unescape_length hunescape
          have hle := (ih hbody).1
          simp only [List.length_cons]
          refine ⟨by omega, fun hge => ?_⟩
          omega
        · next hbackslash =>
          split at h
          · cases h
          · next hctl =>
            obtain ⟨⟨s', rest'⟩, hbody, h⟩ := Option.bind_eq_some_iff.mp h
            cases h
            obtain ⟨hle, heq⟩ := ih hbody
            simp only [List.length_cons]
            refine ⟨by omega, fun hge => ?_⟩
            obtain ⟨hcs, hplain⟩ := heq (by omega)
            refine ⟨congrArg (c :: ·) hcs, ?_⟩
            rw [List.all_cons, hplain, Bool.and_true, isPlain_iff]
            exact ⟨hquote, hbackslash, Nat.not_lt.mp hctl⟩

/-! ## Numbers -/

theorem isNumberChar_of_isDigit {c : Char} (h : c.isDigit = true) : isNumberChar c = true := by
  simp [isNumberChar, h]

theorem all_isNumberChar_of_isDigits {cs : List Char} (h : isDigits cs = true) :
    cs.all isNumberChar = true := by
  rw [isDigits, Bool.and_eq_true] at h
  refine List.all_eq_true.mpr fun c hc => isNumberChar_of_isDigit ?_
  exact List.all_eq_true.mp h.2 c hc

theorem all_isNumberChar_of_isExponent {cs : List Char} (h : isExponent cs = true) :
    cs.all isNumberChar = true := by
  have he : ∀ e : Char, (e = 'e' || e = 'E') = true → isNumberChar e = true := by
    intro e he
    rw [Bool.or_eq_true, decide_eq_true_iff, decide_eq_true_iff] at he
    rcases he with rfl | rfl <;> rfl
  unfold isExponent at h
  split at h
  · rfl
  · rw [Bool.and_eq_true] at h
    rw [List.all_cons, List.all_cons, he _ h.1, all_isNumberChar_of_isDigits h.2]
    rfl
  · rw [Bool.and_eq_true] at h
    rw [List.all_cons, List.all_cons, he _ h.1, all_isNumberChar_of_isDigits h.2]
    rfl
  · rw [Bool.and_eq_true] at h
    rw [List.all_cons, he _ h.1, all_isNumberChar_of_isDigits h.2]
    rfl

/-- A run of digits and what follows it. -/
theorem all_isNumberChar_of_dropWhile {cs : List Char}
    (h : (cs.dropWhile Char.isDigit).all isNumberChar = true) :
    cs.all isNumberChar = true := by
  rw [← List.takeWhile_append_dropWhile (p := Char.isDigit) (l := cs), List.all_append, h,
    Bool.and_true]
  refine List.all_eq_true.mpr fun c hc => isNumberChar_of_isDigit ?_
  exact List.all_eq_true.mp List.all_takeWhile c hc

theorem all_isNumberChar_of_isFraction {cs : List Char} (h : isFraction cs = true) :
    cs.all isNumberChar = true := by
  unfold isFraction at h
  split at h
  · rw [Bool.and_eq_true] at h
    rw [List.all_cons, all_isNumberChar_of_dropWhile (all_isNumberChar_of_isExponent h.2)]
    rfl
  · exact all_isNumberChar_of_isExponent h

theorem all_isNumberChar_of_isUnsigned {cs : List Char} (h : isUnsigned cs = true) :
    cs.all isNumberChar = true := by
  rw [isUnsigned, Bool.and_eq_true] at h
  exact all_isNumberChar_of_dropWhile (all_isNumberChar_of_isFraction h.2)

/-- A number is a run of number characters. -/
theorem all_isNumberChar_of_isNumber {cs : List Char} (h : isNumber cs = true) :
    cs.all isNumberChar = true := by
  unfold isNumber at h
  split at h
  · rw [List.all_cons, all_isNumberChar_of_isUnsigned h]
    rfl
  · exact all_isNumberChar_of_isUnsigned h

theorem isDigit_head_of_isUnsigned {cs : List Char} (h : isUnsigned cs = true) :
    ∃ c rest, cs = c :: rest ∧ c.isDigit = true := by
  rw [isUnsigned, Bool.and_eq_true] at h
  cases cs with
  | nil => cases h.1
  | cons c rest =>
    refine ⟨c, rest, rfl, ?_⟩
    cases hc : c.isDigit with
    | true => rfl
    | false =>
      rw [List.takeWhile_cons, hc] at h
      cases h.1

/-- A number starts with a minus sign or a digit. -/
theorem head_of_isNumber {cs : List Char} (h : isNumber cs = true) :
    ∃ c rest, cs = c :: rest ∧ (c = '-' ∨ c.isDigit = true) := by
  unfold isNumber at h
  split at h
  · next rest => exact ⟨'-', rest, rfl, .inl rfl⟩
  · obtain ⟨c, rest, rfl, hc⟩ := isDigit_head_of_isUnsigned h
    exact ⟨c, rest, rfl, .inr hc⟩

/-! ## White space and delimiters -/

/-- The text does not go on as a number. -/
def delimited (rest : List Char) : Prop := ∀ c ∈ rest.head?, isNumberChar c = false

theorem delimited_nil : delimited [] := by
  intro c hc
  cases hc

theorem delimited_cons {c : Char} (h : isNumberChar c = false) (cs : List Char) :
    delimited (c :: cs) := by
  intro d hd
  cases hd
  exact h

theorem skipWs_cons {c : Char} (h : isWs c = false) (cs : List Char) :
    skipWs (c :: cs) = c :: cs := by
  rw [skipWs, List.dropWhile_cons, h]
  rfl

theorem expect_cons {c : Char} (h : isWs c = false) (cs : List Char) :
    expect c (c :: cs) = some cs := by
  rw [expect, skipWs_cons h]
  exact if_pos rfl

theorem expect_cons_ne {c d : Char} (h : isWs d = false) (hne : d ≠ c) (cs : List Char) :
    expect c (d :: cs) = none := by
  rw [expect, skipWs_cons h]
  exact if_neg hne

/-- White space before a value is skipped. -/
theorem parseValue_space (fuel : Nat) (cs : List Char) :
    parseValue fuel (' ' :: cs) = parseValue fuel cs := by
  have hskip : skipWs (' ' :: cs) = skipWs cs := rfl
  have hexpect : ∀ c, expect c (' ' :: cs) = expect c cs := by
    intro c
    rw [expect, hskip, expect]
  cases fuel with
  | zero => rw [parseValue, parseValue]
  | succ fuel => rw [parseValue, parseValue, hexpect, hexpect, hexpect, hskip]

/-- A character a value can start with. -/
structure Starts (c : Char) : Prop where
  ws : isWs c = false
  bracket : c ≠ ']'
  brace : c ≠ '}'

/-- The text of a value starts with no white space and no closing bracket. -/
theorem print_starts (v : Value) : ∃ c cs, print v = c :: cs ∧ Starts c := by
  cases v with
  | null => exact ⟨_, _, by rw [print], by decide, by decide, by decide⟩
  | bool b => cases b <;> exact ⟨_, _, by rw [print], by decide, by decide, by decide⟩
  | num n =>
    obtain ⟨c, rest, htext, hc⟩ := head_of_isNumber n.valid
    refine ⟨c, rest, by rw [print, htext], ?_⟩
    rcases hc with rfl | hc
    · exact ⟨by decide, by decide, by decide⟩
    · have hne : ∀ d : Char, d.isDigit = false → c ≠ d := by
        rintro d hd rfl
        rw [hc] at hd
        cases hd
      refine ⟨?_, hne _ (by decide), hne _ (by decide)⟩
      simp [isWs, hne ' ' (by decide), hne '\n' (by decide), hne '\r' (by decide),
        hne '\t' (by decide)]
  | str s => exact ⟨_, _, by rw [print, printString, List.cons_append], by decide, by decide,
      by decide⟩
  | arr vs => cases vs <;> exact ⟨_, _, by rw [print], by decide, by decide, by decide⟩
  | obj ms => cases ms <;> exact ⟨_, _, by rw [print], by decide, by decide, by decide⟩

/-- A printed number is read back. -/
theorem parseNumber_text (n : Number) {rest : List Char} (h : delimited rest) :
    parseNumber (n.text ++ rest) = some (.num n, rest) := by
  have hall := List.all_eq_true.mp (all_isNumberChar_of_isNumber n.valid)
  have htake : (n.text ++ rest).takeWhile isNumberChar = n.text := by
    rw [List.takeWhile_append_of_pos hall]
    cases rest with
    | nil => simp
    | cons c rest => rw [List.takeWhile_cons, h c rfl]; simp
  have hdrop : (n.text ++ rest).dropWhile isNumberChar = rest := by
    rw [List.dropWhile_append_of_pos hall]
    cases rest with
    | nil => rfl
    | cons c rest => rw [List.dropWhile_cons, h c rfl]; rfl
  rw [parseNumber, dif_pos (by rw [htake]; exact n.valid)]
  simp only [htake, hdrop]

/-- A printed number is no literal. -/
theorem parseScalar_text (n : Number) {rest : List Char} (h : delimited rest) :
    parseScalar (n.text ++ rest) = some (.num n, rest) := by
  rw [← parseNumber_text n h]
  obtain ⟨c, cs, htext, hc⟩ := head_of_isNumber n.valid
  rw [htext, List.cons_append]
  have hne : ∀ d : Char, d ≠ '-' → d.isDigit = false → c ≠ d := by
    rintro d hminus hdigit rfl
    rcases hc with hc | hc
    · exact hminus hc
    · rw [hc] at hdigit
      cases hdigit
  have hn := hne 'n' (by decide) (by decide)
  have ht := hne 't' (by decide) (by decide)
  have hf := hne 'f' (by decide) (by decide)
  unfold parseScalar
  split
  · next heq => exact absurd (List.cons.inj heq).1 hn
  · next heq => exact absurd (List.cons.inj heq).1 ht
  · next heq => exact absurd (List.cons.inj heq).1 hf
  · rfl

/-! ## Values -/

/-- A value that starts with a character other than `"`, `[` and `{` is a scalar. -/
theorem parseValue_scalar {c : Char} (hws : isWs c = false) (hquote : c ≠ '"')
    (hbracket : c ≠ '[') (hbrace : c ≠ '{') (fuel : Nat) (cs : List Char) :
    parseValue (fuel + 1) (c :: cs) = parseScalar (c :: cs) := by
  rw [parseValue, expect_cons_ne hws hquote, expect_cons_ne hws hbracket,
    expect_cons_ne hws hbrace, skipWs_cons hws]

/-- A string between quotation marks is a value. -/
theorem parseValue_quote {cs rest : List Char} {s : String}
    (h : parseString cs = some (s, rest)) (fuel : Nat) :
    parseValue (fuel + 1) ('"' :: cs) = some (.str s, rest) := by
  rw [parseValue, expect_cons (by decide)]
  simp only [h]
  rfl

theorem parseValue_arr {c : Char} {cs rest : List Char} {vs : List Value} {fuel : Nat}
    (hc : Starts c) (h : parseElements fuel (c :: cs) = some (vs, rest)) :
    parseValue (fuel + 1) ('[' :: c :: cs) = some (.arr vs, rest) := by
  rw [parseValue, expect_cons_ne (by decide) (by decide), expect_cons (by decide)]
  simp only [expect_cons_ne hc.ws hc.bracket, h]
  rfl

theorem parseValue_obj {cs rest : List Char} {ms : List (String × Value)} {fuel : Nat}
    (h : parseMembers fuel ('"' :: cs) = some (ms, rest)) :
    parseValue (fuel + 1) ('{' :: '"' :: cs) = some (.obj ms, rest) := by
  rw [parseValue, expect_cons_ne (by decide) (by decide),
    expect_cons_ne (by decide) (by decide), expect_cons (by decide)]
  have hbrace : expect '}' ('"' :: cs) = none := expect_cons_ne (by decide) (by decide) cs
  simp only [hbrace, h]
  rfl

theorem parseElements_last {cs rest : List Char} {v : Value} {fuel : Nat}
    (h : parseValue fuel cs = some (v, ']' :: rest)) :
    parseElements (fuel + 1) cs = some ([v], rest) := by
  have hcomma : expect ',' (']' :: rest) = none := expect_cons_ne (by decide) (by decide) rest
  have hclose : expect ']' (']' :: rest) = some rest := expect_cons (by decide) rest
  rw [parseElements, h]
  simp only [Option.bind_eq_bind, Option.bind_some, hcomma, hclose]
  rfl

theorem parseElements_more {cs cs' rest : List Char} {v : Value} {vs : List Value} {fuel : Nat}
    (h : parseValue fuel cs = some (v, ',' :: cs'))
    (h' : parseElements fuel cs' = some (vs, rest)) :
    parseElements (fuel + 1) cs = some (v :: vs, rest) := by
  have hcomma : expect ',' (',' :: cs') = some cs' := expect_cons (by decide) cs'
  rw [parseElements, h]
  simp only [Option.bind_eq_bind, Option.bind_some, hcomma, h']
  rfl

theorem parseMembers_last {cs cs' rest : List Char} {k : String} {v : Value} {fuel : Nat}
    (hk : parseString cs = some (k, ':' :: cs'))
    (h : parseValue fuel cs' = some (v, '}' :: rest)) :
    parseMembers (fuel + 1) ('"' :: cs) = some ([(k, v)], rest) := by
  have hquote : expect '"' ('"' :: cs) = some cs := expect_cons (by decide) cs
  have hcolon : expect ':' (':' :: cs') = some cs' := expect_cons (by decide) cs'
  have hcomma : expect ',' ('}' :: rest) = none := expect_cons_ne (by decide) (by decide) rest
  have hclose : expect '}' ('}' :: rest) = some rest := expect_cons (by decide) rest
  rw [parseMembers, hquote]
  simp only [Option.bind_eq_bind, Option.bind_some, hk, hcolon, h, hcomma, hclose]
  rfl

theorem parseMembers_more {cs cs' cs'' rest : List Char} {k : String} {v : Value}
    {ms : List (String × Value)} {fuel : Nat} (hk : parseString cs = some (k, ':' :: cs'))
    (h : parseValue fuel cs' = some (v, ',' :: cs''))
    (h' : parseMembers fuel cs'' = some (ms, rest)) :
    parseMembers (fuel + 1) ('"' :: cs) = some ((k, v) :: ms, rest) := by
  have hquote : expect '"' ('"' :: cs) = some cs := expect_cons (by decide) cs
  have hcolon : expect ':' (':' :: cs') = some cs' := expect_cons (by decide) cs'
  have hcomma : expect ',' (',' :: cs'') = some cs'' := expect_cons (by decide) cs''
  rw [parseMembers, hquote]
  simp only [Option.bind_eq_bind, Option.bind_some, hk, hcolon, h, hcomma, h']
  rfl

mutual

/-- **A printed value is read back**, whatever follows it. The induction is on the value; the
fuel only has to reach to the end of its text. -/
theorem parseValue_print : ∀ (v : Value) (fuel : Nat) (rest : List Char),
    (print v).length ≤ fuel → delimited rest → parseValue fuel (print v ++ rest) = some (v, rest)
  | v, 0, rest, hfuel, _ => by
    obtain ⟨c, cs, hprint, -⟩ := print_starts v
    rw [hprint] at hfuel
    cases hfuel
  | .null, fuel + 1, rest, _, _ => by
    rw [print]
    exact parseValue_scalar (by decide) (by decide) (by decide) (by decide) fuel _
  | .bool true, fuel + 1, rest, _, _ => by
    rw [print]
    exact parseValue_scalar (by decide) (by decide) (by decide) (by decide) fuel _
  | .bool false, fuel + 1, rest, _, _ => by
    rw [print]
    exact parseValue_scalar (by decide) (by decide) (by decide) (by decide) fuel _
  | .num n, fuel + 1, rest, _, hrest => by
    obtain ⟨c, cs, htext, hc⟩ := head_of_isNumber n.valid
    have hne : ∀ d : Char, d ≠ '-' → d.isDigit = false → c ≠ d := by
      rintro d hminus hdigit rfl
      rcases hc with hc | hc
      · exact hminus hc
      · rw [hc] at hdigit
        cases hdigit
    obtain ⟨d, ds, hprint, hd⟩ := print_starts (.num n)
    rw [print, htext] at hprint
    cases hprint
    have hscalar := parseScalar_text n hrest
    rw [print]
    rw [htext, List.cons_append] at hscalar ⊢
    rw [parseValue_scalar hd.ws (hne _ (by decide) (by decide)) (hne _ (by decide) (by decide))
      (hne _ (by decide) (by decide)), hscalar]
  | .str s, fuel + 1, rest, _, _ => by
    rw [print, printString, List.cons_append, List.cons_append, List.append_assoc]
    exact parseValue_quote (parseString_printString s rest) fuel
  | .arr [], fuel + 1, rest, _, _ => by
    rw [print, parseValue]
    rfl
  | .arr (v :: vs), fuel + 1, rest, hfuel, _ => by
    rw [print, List.length_cons] at hfuel
    have helements := parseElements_print v vs fuel rest (by omega)
    obtain ⟨c, cs, hprint, hc⟩ := print_starts v
    rw [print]
    rw [hprint] at helements ⊢
    exact parseValue_arr hc helements
  | .obj [], fuel + 1, rest, _, _ => by
    rw [print, parseValue]
    rfl
  | .obj ((k, v) :: ms), fuel + 1, rest, hfuel, _ => by
    rw [print, List.length_cons] at hfuel
    have hmembers := parseMembers_print k v ms fuel rest (by omega)
    rw [print]
    rw [printString] at hmembers ⊢
    exact parseValue_obj hmembers

theorem parseElements_print : ∀ (v : Value) (vs : List Value) (fuel : Nat)
    (rest : List Char),
    (print v ++ printElements vs).length ≤ fuel →
      parseElements fuel (print v ++ printElements vs ++ rest) = some (v :: vs, rest)
  | v, vs, 0, rest, hfuel => by
    obtain ⟨c, cs, hprint, -⟩ := print_starts v
    rw [hprint] at hfuel
    cases hfuel
  | v, [], fuel + 1, rest, hfuel => by
    rw [printElements, List.length_append] at hfuel
    have hvalue := parseValue_print v fuel (']' :: rest)
      (by simp only [List.length_singleton] at hfuel; omega)
      (delimited_cons (by decide) rest)
    rw [printElements, List.append_assoc]
    exact parseElements_last hvalue
  | v, w :: vs, fuel + 1, rest, hfuel => by
    rw [printElements, List.length_append, List.length_cons] at hfuel
    have hvalue := parseValue_print v fuel
      (',' :: (print w ++ printElements vs ++ rest)) (by omega)
      (delimited_cons (by decide) _)
    have helements := parseElements_print w vs fuel rest (by omega)
    rw [printElements, List.append_assoc]
    exact parseElements_more hvalue helements

theorem parseMembers_print : ∀ (k : String) (v : Value) (ms : List (String × Value))
    (fuel : Nat) (rest : List Char),
    (printString k ++ ':' :: (print v ++ printMembers ms)).length ≤ fuel →
      parseMembers fuel (printString k ++ ':' :: (print v ++ printMembers ms) ++ rest) =
        some ((k, v) :: ms, rest)
  | k, v, ms, 0, rest, hfuel => by
    rw [printString] at hfuel
    cases hfuel
  | k, v, [], fuel + 1, rest, hfuel => by
    rw [printMembers, List.length_append, List.length_cons, List.length_append] at hfuel
    have hvalue := parseValue_print v fuel ('}' :: rest) (by omega)
      (delimited_cons (by decide) rest)
    have hkey := parseString_printString k (':' :: (print v ++ '}' :: rest))
    rw [printMembers, printString]
    simp only [List.cons_append, List.append_assoc, List.nil_append]
    exact parseMembers_last hkey hvalue
  | k, v, (l, w) :: ms, fuel + 1, rest, hfuel => by
    rw [printMembers, List.length_append, List.length_cons, List.length_append,
      List.length_cons] at hfuel
    have hvalue := parseValue_print v fuel
      (',' :: (printString l ++ ':' :: (print w ++ printMembers ms) ++ rest)) (by omega)
      (delimited_cons (by decide) _)
    have hmembers := parseMembers_print l w ms fuel rest (by omega)
    have hkey := parseString_printString k (':' :: (print v ++
      ',' :: (printString l ++ ':' :: (print w ++ printMembers ms) ++ rest)))
    rw [printMembers, printString]
    simp only [List.cons_append, List.append_assoc, List.nil_append] at hvalue hmembers hkey ⊢
    exact parseMembers_more hkey hvalue hmembers

end

/-! ## Whole texts -/

/-- **A printed value is read as that value.** -/
theorem reads_print (v : Value) : Reads (print v) v := by
  have hparse := parseValue_print v (print v).length [] (Nat.le_refl _) delimited_nil
  rw [List.append_nil] at hparse
  exact ⟨_, _, hparse, rfl⟩

/-- An object with one member, whose value is read from `cs`. -/
theorem reads_member {k : String} {cs : List Char} {v : Value} (fuel : Nat)
    (h : parseValue fuel cs = some (v, ['}'])) :
    Reads ('{' :: (printString k ++ ':' :: cs)) (.obj [(k, v)]) := by
  have hkey : parseString (escape k.toList ++ '"' :: ':' :: cs) = some (k, ':' :: cs) :=
    parseString_printString k (':' :: cs)
  have hmembers := parseMembers_last hkey h
  refine ⟨fuel + 2, [], ?_, rfl⟩
  rw [printString, List.cons_append, List.cons_append, List.append_assoc]
  exact parseValue_obj hmembers

/-- **An object with one member, written with a space**: the value is printed. -/
theorem reads_member_print (k : String) (v : Value) :
    Reads ('{' :: (printString k ++ ':' :: ' ' :: (print v ++ ['}']))) (.obj [(k, v)]) := by
  refine reads_member (print v).length ?_
  rw [parseValue_space]
  exact parseValue_print v _ _ (Nat.le_refl _) (delimited_cons (by decide) [])

/-! ## Texts that stand for themselves -/

theorem parseMembers_ne_nil {fuel : Nat} {cs rest : List Char} {ms : List (String × Value)}
    (h : parseMembers fuel cs = some (ms, rest)) : ms ≠ [] := by
  cases fuel with
  | zero => cases h
  | succ fuel =>
    rw [parseMembers] at h
    obtain ⟨cs₁, -, h⟩ := Option.bind_eq_some_iff.mp h
    obtain ⟨⟨k, cs₂⟩, -, h⟩ := Option.bind_eq_some_iff.mp h
    obtain ⟨cs₃, -, h⟩ := Option.bind_eq_some_iff.mp h
    obtain ⟨⟨v, cs₄⟩, -, h⟩ := Option.bind_eq_some_iff.mp h
    dsimp only at h
    split at h
    · obtain ⟨⟨ms', rest'⟩, -, h⟩ := Option.bind_eq_some_iff.mp h
      cases h
      exact List.cons_ne_nil _ _
    · obtain ⟨rest', -, h⟩ := Option.bind_eq_some_iff.mp h
      cases h
      exact List.cons_ne_nil _ _

theorem expect_length {c : Char} {cs rest : List Char} (h : expect c cs = some rest) :
    rest.length < cs.length := by
  have hskip : (skipWs cs).length ≤ cs.length := (List.dropWhile_suffix _).length_le
  rw [expect] at h
  split at h
  · next d rest' heq =>
    split at h
    · cases h
      rw [heq, List.length_cons] at hskip
      omega
    · cases h
  · cases h

/-- What an object that starts with a member is read as. -/
theorem parseValue_obj_inv {fuel : Nat} {cs rest : List Char} {v : Value}
    (h : parseValue fuel ('{' :: '"' :: cs) = some (v, rest)) :
    ∃ fuel' ms, v = .obj ms ∧ parseMembers fuel' ('"' :: cs) = some (ms, rest) := by
  cases fuel with
  | zero => cases h
  | succ fuel =>
    have hbrace : expect '}' ('"' :: cs) = none := expect_cons_ne (by decide) (by decide) cs
    rw [parseValue, expect_cons_ne (by decide) (by decide),
      expect_cons_ne (by decide) (by decide), expect_cons (by decide)] at h
    simp only [hbrace] at h
    obtain ⟨⟨ms, rest'⟩, hmembers, h⟩ := Option.bind_eq_some_iff.mp h
    cases h
    exact ⟨fuel, ms, rfl, hmembers⟩

/-- What a single member is read as. -/
theorem parseMembers_inv {fuel : Nat} {cs cs' rest : List Char} {k k' : String} {v : Value}
    (hk : parseString cs = some (k, ':' :: cs'))
    (h : parseMembers fuel ('"' :: cs) = some ([(k', v)], rest)) :
    ∃ fuel' rest', parseValue fuel' cs' = some (v, rest') ∧ expect '}' rest' = some rest := by
  cases fuel with
  | zero => cases h
  | succ fuel =>
    have hquote : expect '"' ('"' :: cs) = some cs := expect_cons (by decide) cs
    have hcolon : expect ':' (':' :: cs') = some cs' := expect_cons (by decide) cs'
    rw [parseMembers, hquote] at h
    simp only [Option.bind_eq_bind, Option.bind_some, hk, hcolon] at h
    obtain ⟨⟨w, rest'⟩, hvalue, h⟩ := Option.bind_eq_some_iff.mp h
    dsimp only at h
    split at h
    · -- a second member
      obtain ⟨⟨ms, _⟩, hmore, h⟩ := Option.bind_eq_some_iff.mp h
      cases h
      exact absurd rfl (parseMembers_ne_nil hmore)
    · obtain ⟨rest'', hclose, h⟩ := Option.bind_eq_some_iff.mp h
      cases h
      exact ⟨fuel, rest', hvalue, hclose⟩

/-- The first member is followed by a comma or by the closing brace. -/
theorem parseMembers_first {fuel : Nat} {cs cs' rest : List Char} {k : String}
    {ms : List (String × Value)} (hk : parseString cs = some (k, ':' :: cs'))
    (h : parseMembers fuel ('"' :: cs) = some (ms, rest)) :
    ∃ fuel' v rest', parseValue fuel' cs' = some (v, rest') ∧
      (expect ',' rest' ≠ none ∨ expect '}' rest' ≠ none) := by
  cases fuel with
  | zero => cases h
  | succ fuel =>
    have hquote : expect '"' ('"' :: cs) = some cs := expect_cons (by decide) cs
    have hcolon : expect ':' (':' :: cs') = some cs' := expect_cons (by decide) cs'
    rw [parseMembers, hquote] at h
    simp only [Option.bind_eq_bind, Option.bind_some, hk, hcolon] at h
    obtain ⟨⟨w, rest'⟩, hvalue, h⟩ := Option.bind_eq_some_iff.mp h
    refine ⟨fuel, w, rest', hvalue, ?_⟩
    dsimp only at h
    split at h
    · next heq => exact .inl (by rw [heq]; exact Option.some_ne_none _)
    · obtain ⟨rest'', hclose, -⟩ := Option.bind_eq_some_iff.mp h
      exact .inr (by rw [hclose]; exact Option.some_ne_none _)

/-- What a value that starts with a quotation mark is read as. -/
theorem parseValue_quote_inv {fuel : Nat} {cs rest : List Char} {v : Value}
    (h : parseValue fuel ('"' :: cs) = some (v, rest)) :
    ∃ s, v = .str s ∧ parseString cs = some (s, rest) := by
  cases fuel with
  | zero => cases h
  | succ fuel =>
    rw [parseValue, expect_cons (by decide)] at h
    obtain ⟨⟨s, rest'⟩, hstring, h⟩ := Option.bind_eq_some_iff.mp h
    cases h
    exact ⟨s, rfl, hstring⟩

/-- **A string put between quotation marks as it is** is read as itself, as the only member of
its object, exactly if it is plain. -/
theorem reads_raw_iff (k m : String) :
    Reads ('{' :: (printString k ++ ':' :: ' ' :: '"' :: (m.toList ++ ['"', '}'])))
      (.obj [(k, .str m)]) ↔ plain m = true := by
  constructor
  · rintro ⟨fuel, rest, h, -⟩
    rw [printString, List.cons_append, List.cons_append, List.append_assoc] at h
    obtain ⟨fuel', ms, hobj, hmembers⟩ := parseValue_obj_inv h
    cases hobj
    obtain ⟨fuel'', rest', hvalue, hclose⟩ :=
      parseMembers_inv (parseString_printString k _) hmembers
    rw [parseValue_space] at hvalue
    obtain ⟨s, heq, hstring⟩ := parseValue_quote_inv hvalue
    cases heq
    obtain ⟨⟨body, rest''⟩, hbody, heq⟩ := Option.map_eq_some_iff.mp hstring
    cases heq
    -- the closing brace is left, so the string has used up all of `m` and its closing mark
    obtain ⟨hle, hplain⟩ := stringBody_length hbody
    have hbrace := expect_length hclose
    rw [String.toList_ofList, List.length_append] at hle hplain
    simp only [List.length_cons, List.length_nil] at hle hplain
    rw [plain, String.toList_ofList]
    exact (hplain (by omega)).2
  · intro hplain
    refine reads_member 1 ?_
    rw [parseValue_space]
    refine parseValue_quote ?_ 0
    have hstring := parseString_printString m ['}']
    rw [escape_of_plain hplain] at hstring
    exact hstring

/-- A quotation mark inside such a string ends it, and the text is no JSON unless a comma or a
brace follows. -/
theorem not_reads_raw {k : String} {before after : List Char} {c : Char}
    (hbefore : before.all isPlain = true) (hws : isWs c = false) (hcomma : c ≠ ',')
    (hbrace : c ≠ '}') (v : Value) :
    ¬ Reads ('{' :: (printString k ++ ':' :: ' ' :: '"' :: (before ++ '"' :: c :: after))) v := by
  rintro ⟨fuel, rest, h, -⟩
  rw [printString, List.cons_append, List.cons_append, List.append_assoc] at h
  obtain ⟨fuel', ms, rfl, hmembers⟩ := parseValue_obj_inv h
  obtain ⟨fuel'', w, rest', hvalue, hnext⟩ :=
    parseMembers_first (parseString_printString k _) hmembers
  rw [parseValue_space] at hvalue
  obtain ⟨s, -, hstring⟩ := parseValue_quote_inv hvalue
  have hread := parseString_printString (String.ofList before) (c :: after)
  rw [String.toList_ofList, escape_of_plain hbefore, hstring] at hread
  cases hread
  rcases hnext with h | h
  · exact h (expect_cons_ne hws hcomma after)
  · exact h (expect_cons_ne hws hbrace after)

/-- The text of an object is not empty. -/
theorem toText_obj_isEmpty (ms : List (String × Value)) : (toText (.obj ms)).isEmpty = false := by
  rw [toText, String.isEmpty_eq_false_iff, Ne, ← String.toList_inj, String.toList_ofList]
  cases ms <;> simp [print]

end Json
