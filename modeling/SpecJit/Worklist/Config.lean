import SpecJit.Fault

/-!
# Configuration of worklists

A worklist has a name, a number of workers and a switch that says whether plans are lowered by the
workers or by whoever hands them in. The two worklists of a machine are configured by variables of
the environment; a variable that is missing or cannot be read leaves the default.
-/

namespace SpecJit

/-! ## Text of variables

A blank is a character with the Unicode property `White_Space`.
-/

namespace Text

/-- The ranges of blanks, both ends included. -/
def blankRanges : List (Nat × Nat) :=
  [(0x09, 0x0d), (0x20, 0x20), (0x85, 0x85), (0xa0, 0xa0), (0x1680, 0x1680), (0x2000, 0x200a),
    (0x2028, 0x2029), (0x202f, 0x202f), (0x205f, 0x205f), (0x3000, 0x3000)]

def isBlank (c : Char) : Bool := blankRanges.any fun r => r.1 ≤ c.toNat && c.toNat ≤ r.2

/-- The text without the blanks at both ends. -/
def trimBlanks (cs : List Char) : List Char :=
  ((cs.dropWhile isBlank).reverse.dropWhile isBlank).reverse

/-- Digits with an optional plus sign, as a number below `bound`. -/
def decimal? (bound : Nat) (cs : List Char) : Option Nat :=
  let digits := match cs with
    | '+' :: rest => rest
    | _ => cs
  if digits.isEmpty || !digits.all Char.isDigit then none
  else
    let n := digits.foldl (fun n c => 10 * n + (c.toNat - '0'.toNat)) 0
    if n < bound then some n else none

end Text

/-! ## Settings -/

/-- How a worklist is set up. -/
structure WorklistConfig where
  name : String := "strata-worklist"
  /-- zero counts as one -/
  threads : Nat := 2
  /-- workers lower the plans -/
  background : Bool := true
deriving DecidableEq, Inhabited, Repr

/-- The variables of the environment. -/
abbrev Environment := String → Option String

/-- The environment with the given variables. -/
def Environment.ofList (given : List (String × String)) : Except Fault Environment := do
  let given ← given.mapM fun (name, value) => return (name, ← Fault.checkNul value)
  return fun name => given.lookup name

namespace WorklistConfig

/-- The number of workers. -/
def workers (c : WorklistConfig) : Nat := max c.threads 1

/-- A positive number of 32 bits, with blanks around it. -/
def threads? (text : String) : Option Nat :=
  (Text.decimal? 0x100000000 (Text.trimBlanks text.toList)).filter (0 < ·)

/-- The words for "off", in lower case. -/
def offWords : List String := ["", "0", "false", "off", "no"]

/-- Text that is none of the words for "off", blanks around it and case aside. -/
def isOn (text : String) : Bool :=
  !offWords.contains (String.ofList ((Text.trimBlanks text.toList).map Char.toLower))

/-- The configuration of a worklist whose number of workers a given variable holds. -/
def ofEnvironment (env : Environment) (name threadsVariable : String) : WorklistConfig where
  name
  threads := ((env threadsVariable).bind threads?).getD 2
  background := ((env "STRATA_WORKLIST_BACKGROUND").map isOn).getD true

/-- The worklist of functions that leave the baseline tier. -/
def baseline (env : Environment) : WorklistConfig :=
  ofEnvironment env "strata-baseline" "STRATA_WORKLIST_THREADS"

/-- The worklist of functions that enter the high tier at once. -/
def highTier (env : Environment) : WorklistConfig :=
  ofEnvironment env "strata-high-tier" "STRATA_HIGH_TIER_THREADS"

end WorklistConfig

end SpecJit
