import SpecJit.Lowering.Element

/-!
# Code for switches

Of several cases with one key the first one counts. A switch over strings compares the length first
and then the characters one by one, as long as the cases are short and of 8-bit characters; other
string switches ask the runtime for the number of the case.
-/

namespace SpecJit.Lowering

open Lir

/-! ## Cases -/

/-- The first element with each key. -/
def firstOfEach {α κ : Type} [BEq κ] (key : α → κ) : List α → List α
  | [] => []
  | a :: rest => a :: (firstOfEach key rest).filter fun b => key b != key a

/-- The keys of a list, each once and in ascending order. -/
def sortedKeys (keys : List Nat) : List Nat := (firstOfEach id keys).mergeSort

/-- The blocks that a switch goes to; none of them has parameters. -/
structure Targets where
  blocks : List (BlockIndex × BlockId)
  fallback : BlockId

def Targets.get (t : Targets) (target : BlockIndex) : BlockId :=
  (t.blocks.lookup target).getD t.fallback

/-- The blocks of a switch, with one more block on each edge that brings values for phis. -/
def switchTargets (data : SwitchData) : Lower Targets := do
  let targets := firstOfEach id (data.cases.map (·.target))
  let blocks ← targets.mapM fun t => return (t, ← successorBlock t)
  match blocks.lookup data.fallThrough with
  | some fallback => return { blocks, fallback }
  | none => return { blocks, fallback := ← successorBlock data.fallThrough }

/-- The cases that compare with a number. -/
def numberCases (data : SwitchData) (targets : Targets) : List (Int32 × BlockId) :=
  firstOfEach (·.1) (data.cases.filterMap fun c => c.number?.map (·, targets.get c.target))

/-! ## Numbers -/

def lowerSwitchNumber (node : Node) (data : SwitchData) : Lower Unit := do
  let e ← node.child 0
  if e.useKind.isInt32 then
    let value ← asInt32 e
    let targets ← switchTargets data
    Emit.switch value (numberCases data targets) targets.fallback
  else
    let value ← asValue e
    let targets ← switchTargets data
    let cases := numberCases data targets
    let intBlock ← Emit.createBlock false
    let notInt ← Emit.createBlock false
    let int ← isInt32 value
    Emit.branch int intBlock notInt .normal
    Emit.switchTo intBlock
    let narrow ← Emit.truncate value
    Emit.switch narrow cases targets.fallback
    Emit.switchTo notInt
    let doubleBlock ← Emit.createBlock false
    let number ← isNumber value
    Emit.branch number doubleBlock targets.fallback .normal
    Emit.switchTo doubleBlock
    let double ← unboxDouble value
    let truncated ← Emit.doubleToInt .i32 double
    let back ← Emit.intToDouble true truncated
    let exact ← Emit.fcmp .eq back double
    let exactBlock ← Emit.createBlock false
    Emit.branch exact exactBlock targets.fallback .normal
    Emit.switchTo exactBlock
    Emit.switch truncated cases targets.fallback

/-! ## Strings -/

/-- Goes to the fallback unless a value is a string. -/
def requireString (value : Reg) (fallback : BlockId) : Lower Unit := do
  let cellBlock ← Emit.createBlock false
  let stringBlock ← Emit.createBlock false
  let cell ← isCell value
  Emit.branch cell cellBlock fallback .normal
  Emit.switchTo cellBlock
  let string ← hasCellType value .string
  Emit.branch string stringBlock fallback .normal
  Emit.switchTo stringBlock

/-- The string that a switch compares. -/
def stringOperand (node : Node) (data : SwitchData) : Lower (Reg × Targets) := do
  let e ← node.child 0
  match e.useKind with
  | .string | .knownString | .stringIdent =>
    let string ← asValue e
    return (string, ← switchTargets data)
  | .untyped =>
    let value ← asValue e
    let targets ← switchTargets data
    requireString value targets.fallback
    return (value, targets)
  | useKind => crash (.stringSwitchUse useKind)

/-- Asks the runtime for the number of the case. -/
def switchByRuntime (data : SwitchData) (targets : Targets) (string : Reg) : Lower Unit := do
  let table ← Emit.int64 data.tableIndex
  let index ← Emit.truncate (← callHelper .switchStringLookup [table, string])
  let cases := data.cases.zipIdx.map fun (c, i) => (Int32.ofNat i, targets.get c.target)
  Emit.switch index cases targets.fallback

/-- 1 if characters take 8 bits each, else 0. -/
def eightBitFlag (impl : Reg) : Lower Reg := do
  let flags ← loadField32 impl .stringImplFlags
  Emit.binaryImm .and flags stringIs8Bit

def lowerSwitchChar (node : Node) (data : SwitchData) : Lower Unit := do
  let (string, targets) ← stringOperand node data
  let impl ← loadField64 string .stringImpl
  let rope ← Emit.icmpImm .eq impl 0
  let resolved ← Emit.createBlock false
  let ropeBlock ← Emit.createBlock false
  Emit.branch rope ropeBlock resolved .takenRare
  Emit.switchTo ropeBlock
  switchByRuntime data targets string
  Emit.switchTo resolved
  let length ← loadField32 impl .stringImplLength
  let single ← Emit.icmpImm .eq length 1
  let singleBlock ← Emit.createBlock false
  Emit.branch single singleBlock targets.fallback .normal
  Emit.switchTo singleBlock
  let characters ← loadField64 impl .stringImplData
  let eightBit ← Emit.icmpImm .ne (← eightBitFlag impl) 0
  let code ← diamond .i32 eightBit .normal (Emit.load8 characters 0)
    (Emit.load .i32 .w16 false characters 0)
  Emit.switch code (numberCases data targets) targets.fallback

/-- A case of a string switch: the characters that are still to be compared. -/
structure StringCase where
  rest : List UInt8
  target : BlockIndex
deriving DecidableEq, Inhabited, Repr

/-- The characters of a string, if each has 8 bits. -/
def eightBitCharacters? (s : String) : Option (List UInt8) :=
  s.toList.mapM fun c => if c.toNat < 256 then some c.toNat.toUInt8 else none

/-- The cases of a switch that compares the characters itself. -/
def stringCases? (data : SwitchData) (options : LoweringOptions) : Option (List StringCase) := do
  let cases ← data.cases.mapM fun c =>
    match c.value with
    | .string s =>
      (eightBitCharacters? s).map fun rest => ({ rest, target := c.target } : StringCase)
    | _ => none
  let lengths := cases.map (·.rest.length)
  if lengths.any (options.maxStringSwitchCaseLength < ·) then none
  else if options.maxStringSwitchTotalLength < lengths.foldl (· + ·) 0 then none
  else some (firstOfEach (·.rest) cases)

/-- The cases of each length. -/
def byLength (cases : List StringCase) : List (Nat × List StringCase) :=
  (sortedKeys (cases.map (·.rest.length))).map fun n =>
    (n, cases.filter fun c => c.rest.length == n)

/-- What is left of a case after a character. -/
def StringCase.after? (c : StringCase) (character : Nat) : Option StringCase :=
  match c.rest with
  | first :: rest => if first.toNat = character then some { c with rest } else none
  | [] => none

/-- The cases with each next character, and what is left of them. -/
def byCharacter (cases : List StringCase) : List (Nat × List StringCase) :=
  let characters := cases.filterMap fun c => c.rest.head?.map UInt8.toNat
  (sortedKeys characters).map fun ch => (ch, cases.filterMap (StringCase.after? · ch))

/-- Finds the case among cases of one length, of which the first argument says how much is left. -/
def switchCharacters (characters : Reg) (targets : Targets) :
    Nat → Nat → List StringCase → Lower Unit
  | 0, _, cases =>
    match cases with
    | [] => return ()
    | c :: _ => Emit.jump (targets.get c.target) []
  | left + 1, place, cases => do
    let loaded ← Emit.load8 characters place
    match byCharacter cases with
    | [(character, cases)] =>
      let equal ← Emit.icmpImm .eq loaded character
      let next ← Emit.createBlock false
      Emit.branch equal next targets.fallback .normal
      Emit.switchTo next
      switchCharacters characters targets left (place + 1) cases
    | arms =>
      let arms ← arms.mapM fun (character, cases) => return (character, ← Emit.createBlock false,
        cases)
      Emit.switch loaded (arms.map fun a => (Int32.ofNat a.1, a.2.1)) targets.fallback
      arms.forM fun (_, block, cases) => do
        Emit.switchTo block
        switchCharacters characters targets left (place + 1) cases

/-- Finds the case of a string by its length and its characters. -/
def switchInline (data : SwitchData) (targets : Targets) (string : Reg) (cases : List StringCase) :
    Lower Unit := do
  let impl ← loadField64 string .stringImpl
  let fast ← Emit.createBlock false
  let slow ← Emit.createBlock false
  let rope ← Emit.icmpImm .eq impl 0
  let resolved ← Emit.createBlock false
  Emit.branch rope slow resolved .takenRare
  Emit.switchTo resolved
  Emit.branch (← eightBitFlag impl) fast slow .normal
  Emit.switchTo slow
  switchByRuntime data targets string
  Emit.switchTo fast
  let length ← loadField32 impl .stringImplLength
  let characters ← loadField64 impl .stringImplData
  let groups ← (byLength cases).mapM fun (n, cases) => return (n, ← Emit.createBlock false, cases)
  Emit.switch length (groups.map fun g => (Int32.ofNat g.1, g.2.1)) targets.fallback
  groups.forM fun (n, block, cases) => do
    Emit.switchTo block
    switchCharacters characters targets n 0 cases

def lowerSwitchString (node : Node) (data : SwitchData) : Lower Unit := do
  let (string, targets) ← stringOperand node data
  match stringCases? data (← read).options with
  | none => switchByRuntime data targets string
  | some cases => switchInline data targets string cases

/-! ## Cells -/

def lowerSwitchCell (node : Node) (data : SwitchData) : Lower Unit := do
  let value ← asValue (← node.child 0)
  let targets ← switchTargets data
  data.cases.forM fun c =>
    match c.value with
    | .cell address => do
      let found ← Emit.icmpImm .eq value (wordImm address)
      let next ← Emit.createBlock false
      Emit.branch found (targets.get c.target) next .normal
      Emit.switchTo next
    | key => crash (.cellSwitchKey key)
  Emit.jump targets.fallback []

def lowerSwitch (node : Node) (data : SwitchData) : Lower Unit :=
  match data.kind with
  | .imm => lowerSwitchNumber node data
  | .char => lowerSwitchChar node data
  | .string => lowerSwitchString node data
  | .cell => lowerSwitchCell node data

end SpecJit.Lowering
