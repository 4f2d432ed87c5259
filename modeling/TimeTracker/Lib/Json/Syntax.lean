import Mathlib.Data.Nat.Notation
import Mathlib.Tactic.Common

/-!
# JSON values and their texts

JSON values, the compact text a serialiser writes for a value (`toText`), and a parser that
accepts the texts of the JSON grammar (`parse`). An object is the list of its members, in the
order and with the repetitions of the text.

* A `Number` is kept as its text, with the proof that the text is a JSON number, so a number
  that has no text cannot be built.
* Strings are escaped the way a serialiser with no special options does: the quotation mark,
  the backslash and the control characters, nothing else.
* The parser runs on the characters of the text. Its fuel bounds the nesting and the length of
  arrays and objects. `parse` takes the length of the text for it; `Reads` puts no bound on it.
-/

namespace Json

/-! ## Numbers -/

/-- The digits of a JSON integer: no leading zero. -/
def isIntDigits : List Char → Bool
  | [] => false
  | ['0'] => true
  | c :: cs => c ≠ '0' && c.isDigit && cs.all Char.isDigit

/-- A non-empty run of digits. -/
def isDigits (cs : List Char) : Bool := cs ≠ [] && cs.all Char.isDigit

/-- Nothing, or `e`, an optional sign and digits. -/
def isExponent : List Char → Bool
  | [] => true
  | e :: '-' :: cs => (e = 'e' || e = 'E') && isDigits cs
  | e :: '+' :: cs => (e = 'e' || e = 'E') && isDigits cs
  | e :: cs => (e = 'e' || e = 'E') && isDigits cs

/-- What follows the integer part of a number. -/
def isFraction : List Char → Bool
  | '.' :: cs => isDigits (cs.takeWhile Char.isDigit) && isExponent (cs.dropWhile Char.isDigit)
  | cs => isExponent cs

def isUnsigned (cs : List Char) : Bool :=
  isIntDigits (cs.takeWhile Char.isDigit) && isFraction (cs.dropWhile Char.isDigit)

/-- The JSON grammar of a number. -/
def isNumber : List Char → Bool
  | '-' :: cs => isUnsigned cs
  | cs => isUnsigned cs

/-- A JSON number, as its text. -/
structure Number where
  text : List Char
  valid : isNumber text = true
deriving DecidableEq

/-- The characters a number can contain. -/
def isNumberChar (c : Char) : Bool :=
  c.isDigit || c = '-' || c = '+' || c = '.' || c = 'e' || c = 'E'

/-! ## Values -/

inductive Value where
  | null
  | bool (b : Bool)
  | num (n : Number)
  | str (s : String)
  | arr (elements : List Value)
  | obj (members : List (String × Value))

/-! ## Printing -/

def hexDigit (n : Nat) : Char := (Nat.digitChar n)

/-- The text of one character of a string. -/
def escapeChar (c : Char) : List Char :=
  if c = '"' then ['\\', '"']
  else if c = '\\' then ['\\', '\\']
  else if c.toNat = 8 then ['\\', 'b']
  else if c.toNat = 12 then ['\\', 'f']
  else if c = '\n' then ['\\', 'n']
  else if c = '\r' then ['\\', 'r']
  else if c = '\t' then ['\\', 't']
  else if c.toNat < 32 then
    ['\\', 'u', '0', '0', hexDigit (c.toNat / 16), hexDigit (c.toNat % 16)]
  else [c]

def escape (cs : List Char) : List Char := cs.flatMap escapeChar

def printString (s : String) : List Char := '"' :: escape s.toList ++ ['"']

mutual

/-- The compact text of a value. -/
def print : Value → List Char
  | .null => ['n', 'u', 'l', 'l']
  | .bool true => ['t', 'r', 'u', 'e']
  | .bool false => ['f', 'a', 'l', 's', 'e']
  | .num n => n.text
  | .str s => printString s
  | .arr [] => ['[', ']']
  | .arr (v :: vs) => '[' :: (print v ++ printElements vs)
  | .obj [] => ['{', '}']
  | .obj ((k, v) :: ms) => '{' :: (printString k ++ ':' :: (print v ++ printMembers ms))

/-- The elements after the first one, and the closing bracket. -/
def printElements : List Value → List Char
  | [] => [']']
  | v :: vs => ',' :: (print v ++ printElements vs)

/-- The members after the first one, and the closing brace. -/
def printMembers : List (String × Value) → List Char
  | [] => ['}']
  | (k, v) :: ms => ',' :: (printString k ++ ':' :: (print v ++ printMembers ms))

end

/-- The compact text of a value, as a string. -/
def toText (v : Value) : String := String.ofList (print v)

/-! ## Parsing -/

def isWs (c : Char) : Bool := c = ' ' || c = '\n' || c = '\r' || c = '\t'

def skipWs (cs : List Char) : List Char := cs.dropWhile isWs

/-- White space and then the character `c`. -/
def expect (c : Char) (cs : List Char) : Option (List Char) :=
  match skipWs cs with
  | d :: rest => if d = c then some rest else none
  | [] => none

def hexValue (c : Char) : Option Nat :=
  if c.isDigit then some (c.toNat - 48)
  else if 'a' ≤ c ∧ c ≤ 'f' then some (c.toNat - 87)
  else if 'A' ≤ c ∧ c ≤ 'F' then some (c.toNat - 55)
  else none

def hex4 (a b c d : Char) : Option Nat := do
  let a ← hexValue a
  let b ← hexValue b
  let c ← hexValue c
  let d ← hexValue d
  return ((a * 16 + b) * 16 + c) * 16 + d

/-- The character after a backslash, as an escape that stands for one character. -/
def unescapeChar (c : Char) : Option Char :=
  if c = '"' || c = '\\' || c = '/' then some c
  else if c = 'b' then some (Char.ofNat 8)
  else if c = 'f' then some (Char.ofNat 12)
  else if c = 'n' then some '\n'
  else if c = 'r' then some '\r'
  else if c = 't' then some '\t'
  else none

/-- The text after a backslash: the character it stands for, and the rest. A high surrogate
must be followed by a low one. -/
def unescape : List Char → Option (Char × List Char)
  | 'u' :: a :: b :: c :: d :: rest =>
    match hex4 a b c d with
    | none => none
    | some n =>
      if 0xD800 ≤ n ∧ n < 0xDC00 then
        match rest with
        | '\\' :: 'u' :: a' :: b' :: c' :: d' :: rest' =>
          match hex4 a' b' c' d' with
          | none => none
          | some n' =>
            if 0xDC00 ≤ n' ∧ n' < 0xE000 then
              some (Char.ofNat (0x10000 + (n - 0xD800) * 1024 + (n' - 0xDC00)), rest')
            else none
        | _ => none
      else if 0xDC00 ≤ n ∧ n < 0xE000 then none
      else some (Char.ofNat n, rest)
  | c :: rest => (unescapeChar c).map fun c => (c, rest)
  | [] => none

/-- The characters of a string after its opening quotation mark. -/
def stringBody : Nat → List Char → Option (List Char × List Char)
  | 0, _ => none
  | _ + 1, [] => none
  | fuel + 1, c :: cs =>
    if c = '"' then some ([], cs)
    else if c = '\\' then do
      let (c, cs) ← unescape cs
      let (s, rest) ← stringBody fuel cs
      return (c :: s, rest)
    else if c.toNat < 32 then none
    else do
      let (s, rest) ← stringBody fuel cs
      return (c :: s, rest)

/-- A string after its opening quotation mark. -/
def parseString (cs : List Char) : Option (String × List Char) :=
  (stringBody cs.length cs).map fun (s, rest) => (String.ofList s, rest)

def parseNumber (cs : List Char) : Option (Value × List Char) :=
  if h : isNumber (cs.takeWhile isNumberChar) = true then
    some (.num ⟨cs.takeWhile isNumberChar, h⟩, cs.dropWhile isNumberChar)
  else none

/-- The values that contain no other value, strings apart. -/
def parseScalar : List Char → Option (Value × List Char)
  | 'n' :: 'u' :: 'l' :: 'l' :: rest => some (.null, rest)
  | 't' :: 'r' :: 'u' :: 'e' :: rest => some (.bool true, rest)
  | 'f' :: 'a' :: 'l' :: 's' :: 'e' :: rest => some (.bool false, rest)
  | cs => parseNumber cs

mutual

def parseValue : Nat → List Char → Option (Value × List Char)
  | 0, _ => none
  | fuel + 1, cs =>
    match expect '"' cs with
    | some cs => do
      let (s, rest) ← parseString cs
      return (.str s, rest)
    | none =>
      match expect '[' cs with
      | some cs =>
        match expect ']' cs with
        | some rest => some (.arr [], rest)
        | none => do
          let (vs, rest) ← parseElements fuel cs
          return (.arr vs, rest)
      | none =>
        match expect '{' cs with
        | some cs =>
          match expect '}' cs with
          | some rest => some (.obj [], rest)
          | none => do
            let (ms, rest) ← parseMembers fuel cs
            return (.obj ms, rest)
        | none => parseScalar (skipWs cs)

/-- One or more elements, and the closing bracket. -/
def parseElements : Nat → List Char → Option (List Value × List Char)
  | 0, _ => none
  | fuel + 1, cs => do
    let (v, cs) ← parseValue fuel cs
    match expect ',' cs with
    | some cs =>
      let (vs, rest) ← parseElements fuel cs
      return (v :: vs, rest)
    | none =>
      let rest ← expect ']' cs
      return ([v], rest)

/-- One or more members, and the closing brace. -/
def parseMembers : Nat → List Char → Option (List (String × Value) × List Char)
  | 0, _ => none
  | fuel + 1, cs => do
    let cs ← expect '"' cs
    let (k, cs) ← parseString cs
    let cs ← expect ':' cs
    let (v, cs) ← parseValue fuel cs
    match expect ',' cs with
    | some cs =>
      let (ms, rest) ← parseMembers fuel cs
      return ((k, v) :: ms, rest)
    | none =>
      let rest ← expect '}' cs
      return ([(k, v)], rest)

end

/-- A text of a value: one value, with white space around it. No bound on the fuel. -/
def Reads (cs : List Char) (v : Value) : Prop :=
  ∃ fuel rest, parseValue fuel cs = some (v, rest) ∧ skipWs rest = []

/-- The value of a whole text. -/
def parseChars (cs : List Char) : Option Value :=
  match parseValue (cs.length + 1) cs with
  | some (v, rest) => if skipWs rest = [] then some v else none
  | none => none

def parse (s : String) : Option Value := parseChars s.toList

end Json
