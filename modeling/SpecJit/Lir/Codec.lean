import SpecJit.Lir.Basic

/-!
# The written forms of low-level code

Instructions and terminators are written in two ways: as JSON and as text. Both come from one view
of an instruction as a name with named fields.
-/

namespace SpecJit.Lir

/-! ## Names -/

namespace Ty

def all : List Ty := [.i32, .i64, .f64]

def name : Ty → String
  | .i32 => "I32"
  | .i64 => "I64"
  | .f64 => "F64"

instance : Encode Ty := ⟨fun t => .str t.name⟩
instance : Decode Ty := ⟨Json.enum? all name⟩

end Ty

namespace BinaryOp

def all : List BinaryOp :=
  [.add, .sub, .mul, .sdiv, .srem, .udiv, .and, .or, .xor, .shl, .sshr, .ushr]

def name : BinaryOp → String
  | .add => "Add"
  | .sub => "Sub"
  | .mul => "Mul"
  | .sdiv => "SDiv"
  | .srem => "SRem"
  | .udiv => "UDiv"
  | .and => "And"
  | .or => "Or"
  | .xor => "Xor"
  | .shl => "Shl"
  | .sshr => "SShr"
  | .ushr => "UShr"

instance : Decode BinaryOp := ⟨Json.enum? all name⟩

end BinaryOp

namespace OverflowOp

def all : List OverflowOp := [.add, .sub, .mul]

def name : OverflowOp → String
  | .add => "Add"
  | .sub => "Sub"
  | .mul => "Mul"

instance : Decode OverflowOp := ⟨Json.enum? all name⟩

end OverflowOp

namespace UnaryOp

def all : List UnaryOp := [.neg, .not, .clz]

def name : UnaryOp → String
  | .neg => "Neg"
  | .not => "Not"
  | .clz => "Clz"

instance : Decode UnaryOp := ⟨Json.enum? all name⟩

end UnaryOp

namespace FBinaryOp

def all : List FBinaryOp := [.add, .sub, .mul, .div, .min, .max]

def name : FBinaryOp → String
  | .add => "Add"
  | .sub => "Sub"
  | .mul => "Mul"
  | .div => "Div"
  | .min => "Min"
  | .max => "Max"

instance : Decode FBinaryOp := ⟨Json.enum? all name⟩

end FBinaryOp

namespace FUnaryOp

def all : List FUnaryOp := [.neg, .abs, .sqrt, .floor, .ceil, .demote]

def name : FUnaryOp → String
  | .neg => "Neg"
  | .abs => "Abs"
  | .sqrt => "Sqrt"
  | .floor => "Floor"
  | .ceil => "Ceil"
  | .demote => "Demote"

instance : Decode FUnaryOp := ⟨Json.enum? all name⟩

end FUnaryOp

namespace IntCC

def all : List IntCC := [.eq, .ne, .slt, .sle, .sgt, .sge, .ult, .ule, .ugt, .uge]

def name : IntCC → String
  | .eq => "Eq"
  | .ne => "Ne"
  | .slt => "Slt"
  | .sle => "Sle"
  | .sgt => "Sgt"
  | .sge => "Sge"
  | .ult => "Ult"
  | .ule => "Ule"
  | .ugt => "Ugt"
  | .uge => "Uge"

instance : Decode IntCC := ⟨Json.enum? all name⟩

end IntCC

namespace FloatCC

def all : List FloatCC := [.eq, .ne, .lt, .le, .gt, .ge, .unordered]

def name : FloatCC → String
  | .eq => "Eq"
  | .ne => "Ne"
  | .lt => "Lt"
  | .le => "Le"
  | .gt => "Gt"
  | .ge => "Ge"
  | .unordered => "Unordered"

instance : Decode FloatCC := ⟨Json.enum? all name⟩

end FloatCC

namespace MemWidth

def all : List MemWidth := [.w8, .w16, .w32, .w64, .f32, .f64]

def name : MemWidth → String
  | .w8 => "W8"
  | .w16 => "W16"
  | .w32 => "W32"
  | .w64 => "W64"
  | .f32 => "F32"
  | .f64 => "F64"

instance : Decode MemWidth := ⟨Json.enum? all name⟩

end MemWidth

namespace BranchWeight

def all : List BranchWeight := [.normal, .takenRare, .notTakenRare]

def name : BranchWeight → String
  | .normal => "Normal"
  | .takenRare => "TakenRare"
  | .notTakenRare => "NotTakenRare"

instance : Decode BranchWeight := ⟨Json.enum? all name⟩

end BranchWeight

instance : Encode Reg := ⟨fun r => encode r.index⟩
instance : Decode Reg := ⟨fun j => (decode j).map Reg.mk⟩
instance : Encode BlockId := ⟨fun b => encode b.index⟩
instance : Decode BlockId := ⟨fun j => (decode j).map BlockId.mk⟩

/-! ## The view -/

/-- What a field of an instruction holds. -/
inductive Field where
  | int (n : Int)
  | flag (b : Bool)
  | name (s : String)
  | reg (r : Reg)
  | regs (l : List Reg)
  | block (b : BlockId)
  | site (s : SiteId)
  | exit (e : ExitId)
  | cases (l : List (Int32 × BlockId))

namespace Field

def json : Field → Json
  | .int n => .int n
  | .flag b => encode b
  | .name s => .str s
  | .reg r => encode r
  | .regs l => encode l
  | .block b => encode b
  | .site s => encode s
  | .exit e => encode e
  | .cases l => encode l

def regText (r : Reg) : String := s!"Value({r.index})"

def blockText (b : BlockId) : String := s!"BlockId({b.index})"

def listText (items : List String) : String := "[" ++ ", ".intercalate items ++ "]"

def text : Field → String
  | .int n => toString n
  | .flag b => toString b
  | .name s => s
  | .reg r => regText r
  | .regs l => listText (l.map regText)
  | .block b => blockText b
  | .site s => s!"SiteId({s.index})"
  | .exit e => s!"ExitId({e.index})"
  | .cases l => listText (l.map fun c => s!"({c.1.toInt}, {blockText c.2})")

end Field

/-- A name with named fields. -/
structure View where
  name : String
  fields : List (String × Field) := []

namespace View

def json (v : View) : Json :=
  if v.fields.isEmpty then .str v.name
  else Json.variant v.name (.obj (v.fields.map fun f => (f.1, f.2.json)))

def text (v : View) : String :=
  if v.fields.isEmpty then v.name
  else v.name ++ " \x7b " ++ ", ".intercalate (v.fields.map fun f => f.1 ++ ": " ++ f.2.text) ++
    " \x7d"

end View

def Inst.view : Inst → View
  | .iconst ty imm => ⟨"Iconst", [("ty", .name ty.name), ("imm", .int imm.toInt)]⟩
  | .fconst d => ⟨"Fconst", [("bits", .int d.bits.toNat)]⟩
  | .context => ⟨"Context", []⟩
  | .frame => ⟨"Frame", []⟩
  | .binary op ty lhs rhs =>
    ⟨"Binary", [("op", .name op.name), ("ty", .name ty.name), ("lhs", .reg lhs), ("rhs", .reg rhs)]⟩
  | .overflows op ty lhs rhs =>
    ⟨"Overflows", [("op", .name op.name), ("ty", .name ty.name), ("lhs", .reg lhs),
      ("rhs", .reg rhs)]⟩
  | .unary op ty arg => ⟨"Unary", [("op", .name op.name), ("ty", .name ty.name), ("arg", .reg arg)]⟩
  | .fbinary op lhs rhs =>
    ⟨"FBinary", [("op", .name op.name), ("lhs", .reg lhs), ("rhs", .reg rhs)]⟩
  | .funary op arg => ⟨"FUnary", [("op", .name op.name), ("arg", .reg arg)]⟩
  | .icmp cc lhs rhs => ⟨"Icmp", [("cc", .name cc.name), ("lhs", .reg lhs), ("rhs", .reg rhs)]⟩
  | .fcmp cc lhs rhs => ⟨"Fcmp", [("cc", .name cc.name), ("lhs", .reg lhs), ("rhs", .reg rhs)]⟩
  | .select cond ifTrue ifFalse =>
    ⟨"Select", [("cond", .reg cond), ("if_true", .reg ifTrue), ("if_false", .reg ifFalse)]⟩
  | .extend signed arg => ⟨"Extend", [("signed", .flag signed), ("arg", .reg arg)]⟩
  | .truncate arg => ⟨"Truncate", [("arg", .reg arg)]⟩
  | .intToDouble signed arg => ⟨"IntToDouble", [("signed", .flag signed), ("arg", .reg arg)]⟩
  | .doubleToInt ty arg => ⟨"DoubleToInt", [("ty", .name ty.name), ("arg", .reg arg)]⟩
  | .bitcastToInt arg => ⟨"BitcastToInt", [("arg", .reg arg)]⟩
  | .bitcastToDouble arg => ⟨"BitcastToDouble", [("arg", .reg arg)]⟩
  | .load ty width signed addr offset =>
    ⟨"Load", [("ty", .name ty.name), ("width", .name width.name), ("signed", .flag signed),
      ("addr", .reg addr), ("offset", .int offset.toInt)]⟩
  | .store width value addr offset =>
    ⟨"Store", [("width", .name width.name), ("value", .reg value), ("addr", .reg addr),
      ("offset", .int offset.toInt)]⟩
  | .call helper args => ⟨"Call", [("helper", .name helper.name), ("args", .regs args)]⟩
  | .patchpoint site args => ⟨"Patchpoint", [("site", .site site), ("args", .regs args)]⟩

def Terminator.view : Terminator → View
  | .jump target args => ⟨"Jump", [("target", .block target), ("args", .regs args)]⟩
  | .branch cond taken takenArgs notTaken notTakenArgs weight =>
    ⟨"Branch", [("cond", .reg cond), ("taken", .block taken), ("taken_args", .regs takenArgs),
      ("not_taken", .block notTaken), ("not_taken_args", .regs notTakenArgs),
      ("weight", .name weight.name)]⟩
  | .switch value cases fallback =>
    ⟨"Switch", [("value", .reg value), ("cases", .cases cases), ("default", .block fallback)]⟩
  | .ret value => ⟨"Return", [("value", .reg value)]⟩
  | .exit id values => ⟨"Exit", [("exit", .exit id), ("values", .regs values)]⟩
  | .unreachable => ⟨"Unreachable", []⟩

instance : Encode Inst := ⟨fun i => i.view.json⟩
instance : Encode Terminator := ⟨fun t => t.view.json⟩

/-! ## Reading -/

/-- Reads the fields of a variant. -/
def fieldsOf? (t : Json.Tagged) (names : List String) : Option Json.Fields := do
  Json.fields? names (← t.payload)

instance : Decode Inst where
  decode j := do
    let t ← Json.tagged? j
    match t.name with
    | "Iconst" => let f ← fieldsOf? t ["ty", "imm"]; return .iconst (← f.get "ty") (← f.get "imm")
    | "Fconst" => let f ← fieldsOf? t ["bits"]; return .fconst (← f.get "bits")
    | "Context" => t.unit?; return .context
    | "Frame" => t.unit?; return .frame
    | "Binary" =>
      let f ← fieldsOf? t ["op", "ty", "lhs", "rhs"]
      return .binary (← f.get "op") (← f.get "ty") (← f.get "lhs") (← f.get "rhs")
    | "Overflows" =>
      let f ← fieldsOf? t ["op", "ty", "lhs", "rhs"]
      return .overflows (← f.get "op") (← f.get "ty") (← f.get "lhs") (← f.get "rhs")
    | "Unary" =>
      let f ← fieldsOf? t ["op", "ty", "arg"]
      return .unary (← f.get "op") (← f.get "ty") (← f.get "arg")
    | "FBinary" =>
      let f ← fieldsOf? t ["op", "lhs", "rhs"]
      return .fbinary (← f.get "op") (← f.get "lhs") (← f.get "rhs")
    | "FUnary" => let f ← fieldsOf? t ["op", "arg"]; return .funary (← f.get "op") (← f.get "arg")
    | "Icmp" =>
      let f ← fieldsOf? t ["cc", "lhs", "rhs"]
      return .icmp (← f.get "cc") (← f.get "lhs") (← f.get "rhs")
    | "Fcmp" =>
      let f ← fieldsOf? t ["cc", "lhs", "rhs"]
      return .fcmp (← f.get "cc") (← f.get "lhs") (← f.get "rhs")
    | "Select" =>
      let f ← fieldsOf? t ["cond", "if_true", "if_false"]
      return .select (← f.get "cond") (← f.get "if_true") (← f.get "if_false")
    | "Extend" =>
      let f ← fieldsOf? t ["signed", "arg"]; return .extend (← f.get "signed") (← f.get "arg")
    | "Truncate" => let f ← fieldsOf? t ["arg"]; return .truncate (← f.get "arg")
    | "IntToDouble" =>
      let f ← fieldsOf? t ["signed", "arg"]
      return .intToDouble (← f.get "signed") (← f.get "arg")
    | "DoubleToInt" =>
      let f ← fieldsOf? t ["ty", "arg"]; return .doubleToInt (← f.get "ty") (← f.get "arg")
    | "BitcastToInt" => let f ← fieldsOf? t ["arg"]; return .bitcastToInt (← f.get "arg")
    | "BitcastToDouble" => let f ← fieldsOf? t ["arg"]; return .bitcastToDouble (← f.get "arg")
    | "Load" =>
      let f ← fieldsOf? t ["ty", "width", "signed", "addr", "offset"]
      return .load (← f.get "ty") (← f.get "width") (← f.get "signed") (← f.get "addr")
        (← f.get "offset")
    | "Store" =>
      let f ← fieldsOf? t ["width", "value", "addr", "offset"]
      return .store (← f.get "width") (← f.get "value") (← f.get "addr") (← f.get "offset")
    | "Call" =>
      let f ← fieldsOf? t ["helper", "args"]; return .call (← f.get "helper") (← f.get "args")
    | "Patchpoint" =>
      let f ← fieldsOf? t ["site", "args"]
      return .patchpoint (← f.get "site") (← f.get "args")
    | _ => none

instance : Decode Terminator where
  decode j := do
    let t ← Json.tagged? j
    match t.name with
    | "Jump" =>
      let f ← fieldsOf? t ["target", "args"]; return .jump (← f.get "target") (← f.get "args")
    | "Branch" =>
      let f ← fieldsOf? t ["cond", "taken", "taken_args", "not_taken", "not_taken_args", "weight"]
      return .branch (← f.get "cond") (← f.get "taken") (← f.get "taken_args") (← f.get "not_taken")
        (← f.get "not_taken_args") (← f.get "weight")
    | "Switch" =>
      let f ← fieldsOf? t ["value", "cases", "default"]
      return .switch (← f.get "value") (← f.get "cases") (← f.get "default")
    | "Return" => let f ← fieldsOf? t ["value"]; return .ret (← f.get "value")
    | "Exit" =>
      let f ← fieldsOf? t ["exit", "values"]; return .exit (← f.get "exit") (← f.get "values")
    | "Unreachable" => t.unit?; return .unreachable
    | _ => none

instance : Encode InstData where
  encode i := .obj [("inst", encode i.inst), ("result", encode i.result)]

instance : Decode InstData where
  decode j := do
    let f ← Json.fields? ["inst", "result"] j
    return { inst := ← f.get "inst", result := ← f.opt "result" }

instance : Encode Block where
  encode b := .obj [("params", encode b.params), ("insts", encode b.insts),
    ("terminator", encode b.terminator), ("cold", encode b.cold)]

instance : Decode Block where
  decode j := do
    let f ← Json.fields? ["params", "insts", "terminator", "cold"] j
    return {
      params := ← f.get "params"
      insts := ← f.get "insts"
      terminator := ← f.get "terminator"
      cold := ← f.get "cold" }

instance : Encode Function where
  encode f :=
    .obj [("name", encode f.name), ("blocks", encode f.blocks), ("value_types", encode f.types)]

instance : Decode Function where
  decode j := do
    let f ← Json.fields? ["name", "blocks", "value_types"] j
    return { name := ← f.get "name", blocks := ← f.get "blocks", types := ← f.get "value_types" }

/-! ## Text -/

/-- The lines of a block. -/
def Block.lines (index : Nat) (b : Block) : List String :=
  let params := ", ".intercalate (b.params.map toString)
  let cold := if b.cold then " cold" else ""
  s!"  b{index}({params}){cold}:"
    :: b.insts.toList.map (fun i =>
      match i.result with
      | some r => s!"    {r} = {i.inst.view.text}"
      | none => s!"    {i.inst.view.text}")
    ++ [s!"    {b.terminator.view.text}"]

/-- The text of a function, a line for each instruction. -/
def Function.text (f : Function) : String :=
  let lines := s!"function {f.name}:" :: (f.blocks.toList.zipIdx.flatMap fun (b, i) => b.lines i)
  String.join (lines.map (· ++ "\n"))

end SpecJit.Lir
