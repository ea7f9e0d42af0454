import SpecJit.Json.Basic

/-!
# JSON text

`Json.parse?` reads one value and accepts nothing after it but blanks; `Json.render` writes one
without blanks. The reader is strict: no leading zeros, no control characters inside strings. An
unpaired surrogate makes a string ill-formed, but the text goes on after it. An integer outside the
range of 64-bit integers (signed below zero, unsigned above) is not kept as an integer, and neither
is `-0`.

Reading goes in two steps: `Token.scan` cuts the text into tokens, and `Json.ofTokens` folds the
tokens over a stack of open brackets.
-/

namespace SpecJit.Json

/-! ## Tokens -/

/-- How a string is written. -/
inductive Spelling where
  /-- as it is -/
  | plain
  /-- with an escape -/
  | escaped
  /-- with an unpaired surrogate, so that it has no text -/
  | illFormed
deriving DecidableEq, Inhabited, Repr

/-- How several strings are written, taken together. -/
def Spelling.join : Spelling → Spelling → Spelling
  | .illFormed, _ | _, .illFormed => .illFormed
  | .escaped, _ | _, .escaped => .escaped
  | .plain, .plain => .plain

/-- A lexical unit. -/
inductive Token where
  | leftBracket
  | rightBracket
  | leftBrace
  | rightBrace
  | comma
  | colon
  | str (s : String) (spelling : Spelling)
  | leaf (j : Json)
deriving Inhabited

def isBlank (c : Char) : Bool := c == ' ' || c == '\n' || c == '\t' || c == '\r'

def hexDigit? (c : Char) : Option Nat :=
  if c.isDigit then some (c.toNat - '0'.toNat)
  else if 'a' ≤ c ∧ c ≤ 'f' then some (c.toNat - 'a'.toNat + 10)
  else if 'A' ≤ c ∧ c ≤ 'F' then some (c.toNat - 'A'.toNat + 10)
  else none

/-- The 16-bit unit written by four hexadecimal digits. -/
def unit? (a b c d : Char) : Option Nat := do
  let a ← hexDigit? a
  let b ← hexDigit? b
  let c ← hexDigit? c
  let d ← hexDigit? d
  return ((a * 16 + b) * 16 + c) * 16 + d

/-- The character behind a one-letter escape. -/
def escaped? : Char → Option Char
  | '"' => some '"'
  | '\\' => some '\\'
  | '/' => some '/'
  | 'b' => some '\x08'
  | 'f' => some '\x0c'
  | 'n' => some '\n'
  | 'r' => some '\r'
  | 't' => some '\t'
  | _ => none

/-- The character beyond the 16-bit range that two surrogates stand for. -/
def paired (lead trail : Nat) : Char :=
  Char.ofNat (0x10000 + (lead - 0xD800) * 0x400 + (trail - 0xDC00))

/-- The spelling after something other than the surrogate that `lead` waits for. -/
def Spelling.alone (spelling : Spelling) (lead : Option Nat) : Spelling :=
  if lead.isSome then .illFormed else spelling

/-- Reads the inside of a string up to its closing quote. `acc` holds the characters so far, last
first, and `lead` a surrogate that is to be followed by another one. -/
def scanString (acc : List Char) (spelling : Spelling) (lead : Option Nat) :
    List Char → Option ((String × Spelling) × List Char)
  | [] => none
  | '"' :: rest => some ((String.ofList acc.reverse, spelling.alone lead), rest)
  | '\\' :: 'u' :: a :: b :: c :: d :: rest =>
    match unit? a b c d with
    | none => none
    | some u =>
      let written := (spelling.alone lead).join .escaped
      if 0xD800 ≤ u ∧ u < 0xDC00 then scanString acc written (some u) rest
      else if 0xDC00 ≤ u ∧ u < 0xE000 then
        match lead with
        | some l => scanString (paired l u :: acc) (spelling.join .escaped) none rest
        | none => scanString acc .illFormed none rest
      else scanString (Char.ofNat u :: acc) written none rest
  | '\\' :: c :: rest =>
    match escaped? c with
    | some e => scanString (e :: acc) ((spelling.alone lead).join .escaped) none rest
    | none => none
  | c :: rest =>
    if c.toNat < 0x20 then none else scanString (c :: acc) (spelling.alone lead) none rest

def digitsValue (digits : List Char) : Nat :=
  digits.foldl (fun n c => 10 * n + (c.toNat - '0'.toNat)) 0

/-- The fraction of a number, empty when there is none. -/
def scanFraction : List Char → Option (List Char × List Char)
  | '.' :: rest =>
    let digits := rest.takeWhile Char.isDigit
    if digits.isEmpty then none else some ('.' :: digits, rest.dropWhile Char.isDigit)
  | rest => some ([], rest)

/-- The exponent of a number, empty when there is none. -/
def scanExponent : List Char → Option (List Char × List Char)
  | e :: rest =>
    if e == 'e' || e == 'E' then
      let (sign, rest) := match rest with
        | '+' :: r => (['+'], r)
        | '-' :: r => (['-'], r)
        | r => ([], r)
      let digits := rest.takeWhile Char.isDigit
      if digits.isEmpty then none else some (e :: sign ++ digits, rest.dropWhile Char.isDigit)
    else some ([], e :: rest)
  | [] => some ([], [])

/-- A number without fraction and exponent is an integer when 64 bits hold it. -/
def ofDigits (negative : Bool) (digits : List Char) : Json :=
  let n := digitsValue digits
  if negative then
    if n == 0 || n > 0x8000000000000000 then .real (String.ofList ('-' :: digits)) else .int
      (-(n : Int))
  else if n < 0x10000000000000000 then .int n
  else .real (String.ofList digits)

/-- Reads a number. -/
def scanNumber (s : List Char) : Option (Json × List Char) := do
  let (negative, s) := match s with
    | '-' :: r => (true, r)
    | r => (false, r)
  let digits := s.takeWhile Char.isDigit
  if digits.isEmpty then none
  if digits.length > 1 && digits.head? == some '0' then none
  let (fraction, s) ← scanFraction (s.dropWhile Char.isDigit)
  let (exponent, s) ← scanExponent s
  if fraction.isEmpty && exponent.isEmpty then some (ofDigits negative digits, s)
  else
    let sign := if negative then ['-'] else []
    some (.real (String.ofList (sign ++ digits ++ fraction ++ exponent)), s)

/-- The first token of a text that starts with no blank, and what follows it. -/
def scanToken : List Char → Option (Token × List Char)
  | '[' :: rest => some (.leftBracket, rest)
  | ']' :: rest => some (.rightBracket, rest)
  | '\x7b' :: rest => some (.leftBrace, rest)
  | '\x7d' :: rest => some (.rightBrace, rest)
  | ',' :: rest => some (.comma, rest)
  | ':' :: rest => some (.colon, rest)
  | '"' :: rest =>
    (scanString [] .plain none rest).map fun ((s, spelling), rest) => (.str s spelling, rest)
  | 'n' :: 'u' :: 'l' :: 'l' :: rest => some (.leaf .null, rest)
  | 't' :: 'r' :: 'u' :: 'e' :: rest => some (.leaf (.bool true), rest)
  | 'f' :: 'a' :: 'l' :: 's' :: 'e' :: rest => some (.leaf (.bool false), rest)
  | rest => (scanNumber rest).map fun (j, rest) => (.leaf j, rest)

/-- The tokens of a text. Every token takes a character, so the length of the text is enough
`fuel`. -/
def scanTokens (acc : List Token) : Nat → List Char → Option (List Token)
  | 0, _ => none
  | fuel + 1, s =>
    match s.dropWhile isBlank with
    | [] => some acc.reverse
    | rest =>
      match scanToken rest with
      | some (t, rest) => scanTokens (t :: acc) fuel rest
      | none => none

/-! ## Values -/

/-- The value of a string. -/
def ofString (s : String) : Spelling → Json
  | .plain | .escaped => .str s
  | .illFormed => .illFormed

/-- The members of an open object, last first, and how their keys are written. -/
structure Members where
  members : List (String × Json) := []
  keys : Spelling := .plain
deriving Inhabited

/-- The object with the given members. -/
def Members.close (m : Members) : Json :=
  match m.keys with
  | .plain => .obj m.members.reverse
  | .escaped => .objEscaped m.members.reverse
  | .illFormed => .illFormed

def Members.push (m : Members) (key : String) (j : Json) : Members :=
  { m with members := (key, j) :: m.members }

def Members.spelled (m : Members) (spelling : Spelling) : Members :=
  { m with keys := m.keys.join spelling }

/-- An open bracket and what it holds so far, last first. -/
inductive Frame where
  | arr (items : List Json)
  | obj (members : Members) (key : String)

/-- What the tokens read so far allow next. -/
inductive Expect where
  /-- a value -/
  | value
  /-- a value, or the end of the array just opened -/
  | firstItem
  /-- a key, or the end of the object just opened -/
  | firstKey
  /-- a key -/
  | key (members : Members)
  /-- the colon after a key -/
  | colon (members : Members) (key : String)
  /-- a comma or a closing bracket after the value `j` -/
  | after (j : Json)

/-- Folds tokens into a value; `stack` holds the open brackets, innermost first. -/
def ofTokens : Expect → List Frame → List Token → Option Json
  | .after j, [], [] => some j
  | _, _, [] => none
  | .firstItem, stack, .rightBracket :: ts => ofTokens (.after (.arr [])) stack ts
  | .firstItem, stack, .leaf j :: ts => ofTokens (.after j) (.arr [] :: stack) ts
  | .firstItem, stack, .str s spelling :: ts =>
    ofTokens (.after (ofString s spelling)) (.arr [] :: stack) ts
  | .firstItem, stack, .leftBracket :: ts => ofTokens .firstItem (.arr [] :: stack) ts
  | .firstItem, stack, .leftBrace :: ts => ofTokens .firstKey (.arr [] :: stack) ts
  | .value, stack, .leaf j :: ts => ofTokens (.after j) stack ts
  | .value, stack, .str s spelling :: ts => ofTokens (.after (ofString s spelling)) stack ts
  | .value, stack, .leftBracket :: ts => ofTokens .firstItem stack ts
  | .value, stack, .leftBrace :: ts => ofTokens .firstKey stack ts
  | .firstKey, stack, .rightBrace :: ts => ofTokens (.after (.obj [])) stack ts
  | .firstKey, stack, .str s spelling :: ts => ofTokens (.colon { keys := spelling } s) stack ts
  | .key members, stack, .str s spelling :: ts =>
    ofTokens (.colon (members.spelled spelling) s) stack ts
  | .colon members key, stack, .colon :: ts => ofTokens .value (.obj members key :: stack) ts
  | .after j, .arr items :: stack, .comma :: ts => ofTokens .value (.arr (j :: items) :: stack) ts
  | .after j, .arr items :: stack, .rightBracket :: ts =>
    ofTokens (.after (.arr (j :: items).reverse)) stack ts
  | .after j, .obj members key :: stack, .comma :: ts =>
    ofTokens (.key (members.push key j)) stack ts
  | .after j, .obj members key :: stack, .rightBrace :: ts =>
    ofTokens (.after (members.push key j).close) stack ts
  | _, _, _ => none

/-- Reads a JSON text. -/
def parse? (text : String) : Option Json := do
  let chars := text.toList
  let tokens ← scanTokens [] (chars.length + 1) chars
  ofTokens .value [] tokens

mutual

/-- The value without regard to how its keys are written. -/
def unescaped : Json → Json
  | .arr items => .arr (unescapedItems items)
  | .obj members | .objEscaped members => .obj (unescapedMembers members)
  | j => j

def unescapedItems : List Json → List Json
  | [] => []
  | j :: rest => unescaped j :: unescapedItems rest

def unescapedMembers : List (String × Json) → List (String × Json)
  | [] => []
  | (k, j) :: rest => (k, unescaped j) :: unescapedMembers rest

end

/-! ## Writing -/

def hexChar (n : Nat) : Char :=
  if n < 10 then Char.ofNat ('0'.toNat + n) else Char.ofNat ('a'.toNat + (n - 10))

/-- One character inside a string literal. -/
def escape (c : Char) : List Char :=
  if c == '"' then ['\\', '"']
  else if c == '\\' then ['\\', '\\']
  else if c == '\n' then ['\\', 'n']
  else if c == '\r' then ['\\', 'r']
  else if c == '\t' then ['\\', 't']
  else if c.toNat < 0x20 then
    ['\\', 'u', '0', '0', hexChar (c.toNat / 16), hexChar (c.toNat % 16)]
  else [c]

def renderString (s : String) : String :=
  "\"" ++ String.ofList (s.toList.flatMap escape) ++ "\""

mutual

/-- Writes a value without blanks. -/
def render : Json → String
  | .null => "null"
  | .bool b => if b then "true" else "false"
  | .int n => toString n
  | .real text => text
  | .str s => renderString s
  | .arr items => "[" ++ renderItems items ++ "]"
  | .obj members | .objEscaped members => "\x7b" ++ renderMembers members ++ "\x7d"
  | .illFormed => "null"

def renderItems : List Json → String
  | [] => ""
  | [j] => render j
  | j :: rest => render j ++ "," ++ renderItems rest

def renderMembers : List (String × Json) → String
  | [] => ""
  | [(k, j)] => renderString k ++ ":" ++ render j
  | (k, j) :: rest => renderString k ++ ":" ++ render j ++ "," ++ renderMembers rest

end

end SpecJit.Json
