import TimeTracker.Lib.Json.RoundTrip

/-!
# The fuel of the parser

The fuel of `parseValue` is spent once for each value, element and member, and each of them
takes at least one character. So more fuel changes nothing (`parseValue_mono`), as much fuel as
characters were read is enough (`consumes`), and `parseChars` finds every value that
any amount of fuel finds.

* **`reads_iff`**: a text is one of `v` exactly if `parseChars` returns `v`.
* **`parse_toText`**: `parse` undoes `toText`.
-/

namespace Json

/-! ## More fuel

A parse that has succeeded never looked at the fuel that was left, so it succeeds in the same way
with more. -/

/-- One more unit changes no result. The three functions call one another with one unit less, so the
induction is on the fuel and for the three at once. -/
theorem parse_succ (fuel : Nat) :
    (∀ cs r, parseValue fuel cs = some r → parseValue (fuel + 1) cs = some r) ∧
    (∀ cs r, parseElements fuel cs = some r → parseElements (fuel + 1) cs = some r) ∧
    (∀ cs r, parseMembers fuel cs = some r → parseMembers (fuel + 1) cs = some r) := by
  induction fuel with
  | zero =>
    refine ⟨fun cs r h => ?_, fun cs r h => ?_, fun cs r h => ?_⟩ <;> cases h
  | succ fuel ih =>
    obtain ⟨ihvalue, ihelements, ihmembers⟩ := ih
    refine ⟨fun cs r h => ?_, fun cs r h => ?_, fun cs r h => ?_⟩
    · rw [parseValue] at h ⊢
      cases hquote : expect '"' cs with
      | some cs' => rw [hquote] at h; exact h
      | none =>
        rw [hquote] at h
        cases hbracket : expect '[' cs with
        | some cs' =>
          rw [hbracket] at h
          dsimp only at h ⊢
          cases hclose : expect ']' cs' with
          | some rest => rw [hclose] at h; exact h
          | none =>
            rw [hclose] at h
            obtain ⟨⟨vs, rest⟩, helements, h⟩ := Option.bind_eq_some_iff.mp h
            exact Option.bind_eq_some_iff.mpr ⟨_, ihelements _ _ helements, h⟩
        | none =>
          rw [hbracket] at h
          cases hbrace : expect '{' cs with
          | some cs' =>
            rw [hbrace] at h
            dsimp only at h ⊢
            cases hclose : expect '}' cs' with
            | some rest => rw [hclose] at h; exact h
            | none =>
              rw [hclose] at h
              obtain ⟨⟨ms, rest⟩, hmembers, h⟩ := Option.bind_eq_some_iff.mp h
              exact Option.bind_eq_some_iff.mpr ⟨_, ihmembers _ _ hmembers, h⟩
          | none => rw [hbrace] at h; exact h
    · rw [parseElements] at h ⊢
      obtain ⟨⟨v, cs'⟩, hvalue, h⟩ := Option.bind_eq_some_iff.mp h
      refine Option.bind_eq_some_iff.mpr ⟨_, ihvalue _ _ hvalue, ?_⟩
      dsimp only at h ⊢
      cases hcomma : expect ',' cs' with
      | none => rw [hcomma] at h; exact h
      | some cs'' =>
        rw [hcomma] at h
        obtain ⟨⟨vs, rest⟩, helements, h⟩ := Option.bind_eq_some_iff.mp h
        exact Option.bind_eq_some_iff.mpr ⟨_, ihelements _ _ helements, h⟩
    · rw [parseMembers] at h ⊢
      obtain ⟨cs₁, hquote, h⟩ := Option.bind_eq_some_iff.mp h
      refine Option.bind_eq_some_iff.mpr ⟨_, hquote, ?_⟩
      obtain ⟨⟨k, cs₂⟩, hkey, h⟩ := Option.bind_eq_some_iff.mp h
      refine Option.bind_eq_some_iff.mpr ⟨_, hkey, ?_⟩
      obtain ⟨cs₃, hcolon, h⟩ := Option.bind_eq_some_iff.mp h
      refine Option.bind_eq_some_iff.mpr ⟨_, hcolon, ?_⟩
      obtain ⟨⟨v, cs₄⟩, hvalue, h⟩ := Option.bind_eq_some_iff.mp h
      refine Option.bind_eq_some_iff.mpr ⟨_, ihvalue _ _ hvalue, ?_⟩
      dsimp only at h ⊢
      cases hcomma : expect ',' cs₄ with
      | none => rw [hcomma] at h; exact h
      | some cs₅ =>
        rw [hcomma] at h
        obtain ⟨⟨ms, rest⟩, hmembers, h⟩ := Option.bind_eq_some_iff.mp h
        exact Option.bind_eq_some_iff.mpr ⟨_, ihmembers _ _ hmembers, h⟩

section
variable {fuel fuel' : Nat} {cs rest : List Char}

/-- A value that is found is found with any greater amount of fuel. -/
theorem parseValue_mono {v : Value} (hle : fuel ≤ fuel')
    (h : parseValue fuel cs = some (v, rest)) : parseValue fuel' cs = some (v, rest) := by
  induction hle with
  | refl => exact h
  | step _ ih => exact (parse_succ _).1 _ _ ih

/-- The same for the elements of an array, -/
theorem parseElements_mono {vs : List Value} (hle : fuel ≤ fuel')
    (h : parseElements fuel cs = some (vs, rest)) : parseElements fuel' cs = some (vs, rest) := by
  induction hle with
  | refl => exact h
  | step _ ih => exact (parse_succ _).2.1 _ _ ih

/-- and for the members of an object. -/
theorem parseMembers_mono {ms : List (String × Value)} (hle : fuel ≤ fuel')
    (h : parseMembers fuel cs = some (ms, rest)) : parseMembers fuel' cs = some (ms, rest) := by
  induction hle with
  | refl => exact h
  | step _ ih => exact (parse_succ _).2.2 _ _ ih

end

/-! ## Enough fuel

Every call that spends a unit reads at least one character (`Consumes`). So the length of what was
read bounds the fuel that is needed, and `parseChars`, which starts with one unit more than there
are characters, never runs out. -/

/-- The closing quote, at least, is read. -/
theorem parseString_length {cs rest : List Char} {s : String}
    (h : parseString cs = some (s, rest)) : rest.length < cs.length := by
  obtain ⟨⟨body, rest'⟩, hbody, heq⟩ := Option.map_eq_some_iff.mp h
  cases heq
  have hle := (stringBody_length hbody).1
  omega

/-- A number has a digit or a sign at its head. -/
theorem parseNumber_length {cs rest : List Char} {v : Value}
    (h : parseNumber cs = some (v, rest)) : rest.length < cs.length := by
  rw [parseNumber] at h
  split at h
  · next hnumber =>
    cases h
    obtain ⟨c, text, htext, -⟩ := head_of_isNumber hnumber
    have hsplit := congrArg List.length
      (List.takeWhile_append_dropWhile (p := isNumberChar) (l := cs))
    rw [htext, List.length_append, List.length_cons] at hsplit
    omega
  · cases h

/-- Every scalar takes a character: `null`, `true` and `false` by their length, a number by its
head. -/
theorem parseScalar_length {cs rest : List Char} {v : Value}
    (h : parseScalar cs = some (v, rest)) : rest.length < cs.length := by
  unfold parseScalar at h
  split at h
  · cases h
    simp only [List.length_cons]
    omega
  · cases h
    simp only [List.length_cons]
    omega
  · cases h
    simp only [List.length_cons]
    omega
  · exact parseNumber_length h

/-- The fuel a parse needs is at most the number of characters it reads, and it reads some. -/
def Consumes {α : Type*} (parse : Nat → List Char → Option (α × List Char)) (fuel : Nat) : Prop :=
  ∀ cs a rest, parse fuel cs = some (a, rest) → rest.length < cs.length ∧
    parse (cs.length - rest.length) cs = some (a, rest)

/-- A value spends one unit and takes one character, a quote, a bracket, a brace or the head of a
scalar; what is inside an array or an object is left to the other two parts. -/
theorem consumes_value {fuel : Nat} (helements : Consumes parseElements fuel)
    (hmembers : Consumes parseMembers fuel) : Consumes parseValue (fuel + 1) := by
  intro cs v rest h
  rw [parseValue] at h
  -- whichever branch is taken, one unit of fuel is left for it
  have hunit : rest.length < cs.length → ∃ n, cs.length - rest.length = n + 1 :=
    fun hlt => ⟨cs.length - rest.length - 1, by omega⟩
  cases hquote : expect '"' cs with
  | some cs' =>
    rw [hquote] at h
    obtain ⟨⟨s, rest'⟩, hstring, hv⟩ := Option.bind_eq_some_iff.mp h
    have hrest : rest' = rest := (Prod.mk.inj (Option.some.inj hv)).2
    have hlt := expect_length hquote
    have hlt' := parseString_length hstring
    rw [hrest] at hlt'
    obtain ⟨n, hn⟩ := hunit (by omega)
    rw [hn, parseValue, hquote]
    exact ⟨by omega, h⟩
  | none =>
    rw [hquote] at h
    cases hbracket : expect '[' cs with
    | some cs' =>
      rw [hbracket] at h
      dsimp only at h
      have hlt := expect_length hbracket
      cases hclose : expect ']' cs' with
      | some rest' =>
        rw [hclose] at h
        have hrest : rest' = rest := (Prod.mk.inj (Option.some.inj h)).2
        have hlt' := expect_length hclose
        rw [hrest] at hlt'
        obtain ⟨n, hn⟩ := hunit (by omega)
        rw [hn, parseValue, hquote, hbracket]
        dsimp only
        rw [hclose]
        exact ⟨by omega, h⟩
      | none =>
        rw [hclose] at h
        obtain ⟨⟨vs, rest'⟩, hparse, hv⟩ := Option.bind_eq_some_iff.mp h
        have hrest : rest' = rest := (Prod.mk.inj (Option.some.inj hv)).2
        obtain ⟨hlt', henough⟩ := helements _ _ _ hparse
        rw [hrest] at hlt' henough
        obtain ⟨n, hn⟩ := hunit (by omega)
        rw [hn, parseValue, hquote, hbracket]
        dsimp only
        rw [hclose]
        refine ⟨by omega, Option.bind_eq_some_iff.mpr ⟨(vs, rest), ?_, hrest ▸ hv⟩⟩
        exact parseElements_mono (by omega) henough
    | none =>
      rw [hbracket] at h
      cases hbrace : expect '{' cs with
      | some cs' =>
        rw [hbrace] at h
        dsimp only at h
        have hlt := expect_length hbrace
        cases hclose : expect '}' cs' with
        | some rest' =>
          rw [hclose] at h
          have hrest : rest' = rest := (Prod.mk.inj (Option.some.inj h)).2
          have hlt' := expect_length hclose
          rw [hrest] at hlt'
          obtain ⟨n, hn⟩ := hunit (by omega)
          rw [hn, parseValue, hquote, hbracket, hbrace]
          dsimp only
          rw [hclose]
          exact ⟨by omega, h⟩
        | none =>
          rw [hclose] at h
          obtain ⟨⟨ms, rest'⟩, hparse, hv⟩ := Option.bind_eq_some_iff.mp h
          have hrest : rest' = rest := (Prod.mk.inj (Option.some.inj hv)).2
          obtain ⟨hlt', henough⟩ := hmembers _ _ _ hparse
          rw [hrest] at hlt' henough
          obtain ⟨n, hn⟩ := hunit (by omega)
          rw [hn, parseValue, hquote, hbracket, hbrace]
          dsimp only
          rw [hclose]
          refine ⟨by omega, Option.bind_eq_some_iff.mpr ⟨(ms, rest), ?_, hrest ▸ hv⟩⟩
          exact parseMembers_mono (by omega) henough
      | none =>
        rw [hbrace] at h
        have hlt := parseScalar_length h
        have hskip : (skipWs cs).length ≤ cs.length := (List.dropWhile_suffix _).length_le
        obtain ⟨n, hn⟩ := hunit (by omega)
        rw [hn, parseValue, hquote, hbracket, hbrace]
        exact ⟨by omega, h⟩

/-- An element spends one unit and is followed by a comma or the closing bracket, so the characters
of the first one pay for it, and those of the others for the rest. -/
theorem consumes_elements {fuel : Nat} (hvalue : Consumes parseValue fuel)
    (helements : Consumes parseElements fuel) : Consumes parseElements (fuel + 1) := by
  intro cs vs rest h
  rw [parseElements] at h
  obtain ⟨⟨v, cs'⟩, hv, h⟩ := Option.bind_eq_some_iff.mp h
  obtain ⟨hlt, henough⟩ := hvalue _ _ _ hv
  dsimp only at h
  have hunit : rest.length < cs'.length → ∃ n, cs.length - rest.length = n + 1 ∧
      cs.length - cs'.length ≤ n := fun _ => ⟨cs.length - rest.length - 1, by omega, by omega⟩
  cases hcomma : expect ',' cs' with
  | some cs'' =>
    rw [hcomma] at h
    obtain ⟨⟨vs', rest'⟩, hparse, h⟩ := Option.bind_eq_some_iff.mp h
    have hrest : rest' = rest := (Prod.mk.inj (Option.some.inj h)).2
    have hlt' := expect_length hcomma
    obtain ⟨hlt'', henough'⟩ := helements _ _ _ hparse
    rw [hrest] at hlt'' henough'
    obtain ⟨n, hn, hle⟩ := hunit (by omega)
    rw [hn, parseElements]
    refine ⟨by omega, Option.bind_eq_some_iff.mpr ⟨_, parseValue_mono hle henough, ?_⟩⟩
    dsimp only
    rw [hcomma]
    refine Option.bind_eq_some_iff.mpr ⟨(vs', rest), ?_, hrest ▸ h⟩
    exact parseElements_mono (by omega) henough'
  | none =>
    rw [hcomma] at h
    obtain ⟨rest', hclose, hv⟩ := Option.bind_eq_some_iff.mp h
    have hrest : rest' = rest := (Prod.mk.inj (Option.some.inj hv)).2
    have hlt' := expect_length hclose
    rw [hrest] at hlt'
    obtain ⟨n, hn, hle⟩ := hunit (by omega)
    rw [hn, parseElements]
    refine ⟨by omega, Option.bind_eq_some_iff.mpr ⟨_, parseValue_mono hle henough, ?_⟩⟩
    dsimp only
    rw [hcomma]
    exact h

/-- What follows a member `k` of value `v`: more members, or the closing brace. -/
def afterMember (fuel : Nat) (k : String) (v : Value) (cs : List Char) :
    Option (List (String × Value) × List Char) :=
  match expect ',' cs with
  | some cs => do
    let (ms, rest) ← parseMembers fuel cs
    return ((k, v) :: ms, rest)
  | none => do
    let rest ← expect '}' cs
    return ([(k, v)], rest)

/-- A member takes its key and the colon as well, which only makes the bound easier to meet. -/
theorem consumes_members {fuel : Nat} (hvalue : Consumes parseValue fuel)
    (hmembers : Consumes parseMembers fuel) : Consumes parseMembers (fuel + 1) := by
  intro cs ms rest h
  rw [parseMembers] at h
  obtain ⟨cs₁, hquote, h⟩ := Option.bind_eq_some_iff.mp h
  obtain ⟨⟨k, cs₂⟩, hkey, h⟩ := Option.bind_eq_some_iff.mp h
  obtain ⟨cs₃, hcolon, h⟩ := Option.bind_eq_some_iff.mp h
  obtain ⟨⟨v, cs₄⟩, hv, h⟩ := Option.bind_eq_some_iff.mp h
  have hlt₁ := expect_length hquote
  have hlt₂ := parseString_length hkey
  have hlt₃ := expect_length hcolon
  obtain ⟨hlt, henough⟩ := hvalue _ _ _ hv
  dsimp only at hlt₃ h
  have hunit : rest.length < cs₄.length → ∃ n, cs.length - rest.length = n + 1 ∧
      cs₃.length - cs₄.length ≤ n := fun _ => ⟨cs.length - rest.length - 1, by omega, by omega⟩
  -- the member and what follows it, with the fuel that is left
  have hmember : ∀ n, cs₃.length - cs₄.length ≤ n →
      afterMember n k v cs₄ = some (ms, rest) → parseMembers (n + 1) cs = some (ms, rest) := by
    intro n hle hmore
    rw [parseMembers]
    refine Option.bind_eq_some_iff.mpr ⟨_, hquote, ?_⟩
    refine Option.bind_eq_some_iff.mpr ⟨_, hkey, ?_⟩
    refine Option.bind_eq_some_iff.mpr ⟨_, hcolon, ?_⟩
    exact Option.bind_eq_some_iff.mpr ⟨_, parseValue_mono hle henough, hmore⟩
  cases hcomma : expect ',' cs₄ with
  | some cs₅ =>
    rw [hcomma] at h
    obtain ⟨⟨ms', rest'⟩, hparse, h⟩ := Option.bind_eq_some_iff.mp h
    have hrest : rest' = rest := (Prod.mk.inj (Option.some.inj h)).2
    have hlt' := expect_length hcomma
    obtain ⟨hlt'', henough'⟩ := hmembers _ _ _ hparse
    rw [hrest] at hlt'' henough'
    obtain ⟨n, hn, hle⟩ := hunit (by omega)
    rw [hn]
    refine ⟨by omega, hmember n hle ?_⟩
    rw [afterMember, hcomma]
    refine Option.bind_eq_some_iff.mpr ⟨(ms', rest), ?_, hrest ▸ h⟩
    exact parseMembers_mono (by omega) henough'
  | none =>
    rw [hcomma] at h
    obtain ⟨rest', hclose, hv⟩ := Option.bind_eq_some_iff.mp h
    have hrest : rest' = rest := (Prod.mk.inj (Option.some.inj hv)).2
    have hlt' := expect_length hclose
    rw [hrest] at hlt'
    obtain ⟨n, hn, hle⟩ := hunit (by omega)
    rw [hn]
    refine ⟨by omega, hmember n hle ?_⟩
    rw [afterMember, hcomma]
    exact h

/-- All three together, by induction on the fuel: each part needs the two others at one unit
less. -/
theorem consumes (fuel : Nat) : Consumes parseValue fuel ∧ Consumes parseElements fuel ∧
    Consumes parseMembers fuel := by
  induction fuel with
  | zero =>
    refine ⟨?_, ?_, ?_⟩ <;> intro cs a rest h <;> cases h
  | succ fuel ih =>
    obtain ⟨ihvalue, ihelements, ihmembers⟩ := ih
    exact ⟨consumes_value ihelements ihmembers, consumes_elements ihvalue ihelements,
      consumes_members ihvalue ihmembers⟩

/-- **The parser finds the value of every text that has one.** -/
theorem reads_iff {cs : List Char} {v : Value} : Reads cs v ↔ parseChars cs = some v := by
  constructor
  · rintro ⟨fuel, rest, h, hend⟩
    have henough := ((consumes fuel).1 cs v rest h).2
    rw [parseChars, parseValue_mono (by omega) henough]
    exact if_pos hend
  · intro h
    unfold parseChars at h
    split at h
    · next w rest hparse =>
      split at h
      · next hend =>
        cases h
        exact ⟨_, rest, hparse, hend⟩
      · cases h
    · cases h

/-- The same for strings. -/
theorem parse_eq_some_iff {s : String} {v : Value} : parse s = some v ↔ Reads s.toList v :=
  reads_iff.symm

/-- **The text of a value is parsed as that value.** -/
theorem parse_toText (v : Value) : parse (toText v) = some v := by
  rw [parse_eq_some_iff, toText, String.toList_ofList]
  exact reads_print v

end Json
