import SpecJit.Json.Codec

/-!
# Indices, operands and frame formats

The names by which the graph refers to its parts, the source-level variables of a frame
(`Operand`), and `Operands`, a map with one entry per variable of a frame.
-/

namespace SpecJit

/-- Index of a node in the graph's node table. -/
structure NodeId where
  index : Nat
deriving DecidableEq, Hashable, Ord, Inhabited, Repr

/-- Index of a basic block of the graph. -/
structure BlockIndex where
  index : Nat
deriving DecidableEq, Hashable, Ord, Inhabited, Repr

/-- Index into the graph's table of property names. -/
structure IdentifierIndex where
  index : Nat
deriving DecidableEq, Hashable, Ord, Inhabited, Repr

instance : ToString NodeId := ⟨fun n => s!"@{n.index}"⟩
instance : ToString BlockIndex := ⟨fun b => s!"#{b.index}"⟩

/-- Text that shows the id with its kind. -/
def NodeId.debug (n : NodeId) : String := s!"NodeId({n.index})"

instance : Encode NodeId := ⟨fun n => encode n.index⟩
instance : Decode NodeId := ⟨fun j => (decode j).map NodeId.mk⟩
instance : Encode BlockIndex := ⟨fun n => encode n.index⟩
instance : Decode BlockIndex := ⟨fun j => (decode j).map BlockIndex.mk⟩
instance : Encode IdentifierIndex := ⟨fun n => encode n.index⟩
instance : Decode IdentifierIndex := ⟨fun j => (decode j).map IdentifierIndex.mk⟩

/-- A source-level variable: an argument (`this` is argument 0) or a local. -/
inductive Operand where
  | arg (index : Nat)
  | loc (index : Nat)
deriving DecidableEq, Hashable, Ord, Inhabited, Repr

namespace Operand

def argumentIndex? : Operand → Option Nat
  | .arg i => some i
  | .loc _ => none

def localIndex? : Operand → Option Nat
  | .arg _ => none
  | .loc i => some i

instance : ToString Operand where
  toString
    | .arg i => s!"arg{i}"
    | .loc i => s!"loc{i}"

/-- Text that spells out the kind of variable. -/
def debug : Operand → String
  | .arg i => s!"Argument({i})"
  | .loc i => s!"Local({i})"

instance : Encode Operand where
  encode
    | .arg i => Json.variant "Argument" (encode i)
    | .loc i => Json.variant "Local" (encode i)

instance : Decode Operand where
  decode j := do
    let t ← Json.tagged? j
    match t.name with
    | "Argument" => return .arg (← t.one?)
    | "Local" => return .loc (← t.one?)
    | _ => none

end Operand

/-- A map with one entry per variable of a frame. -/
structure Operands (α : Type) where
  arguments : Array α
  locals : Array α
deriving DecidableEq, Inhabited, Repr

namespace Operands

variable {α β : Type}

/-- Every entry is `initial`. -/
def replicate (numArguments numLocals : Nat) (initial : α) : Operands α :=
  ⟨Array.replicate numArguments initial, Array.replicate numLocals initial⟩

def size (o : Operands α) : Nat := o.arguments.size + o.locals.size

def get? (o : Operands α) : Operand → Option α
  | .arg i => o.arguments[i]?
  | .loc i => o.locals[i]?

/-- Replaces an entry; a variable outside the frame is ignored. -/
def set (o : Operands α) (v : Operand) (a : α) : Operands α :=
  match v with
  | .arg i => { o with arguments := o.arguments.setIfInBounds i a }
  | .loc i => { o with locals := o.locals.setIfInBounds i a }

/-- The variable of the `n`-th entry, arguments first. -/
def operandAt (o : Operands α) (n : Nat) : Operand :=
  if n < o.arguments.size then .arg n else .loc (n - o.arguments.size)

def map (f : Operand → α → β) (o : Operands α) : Operands β :=
  ⟨o.arguments.mapIdx fun i a => f (.arg i) a, o.locals.mapIdx fun i a => f (.loc i) a⟩

/-- The entries with their variables, arguments first. -/
def toList (o : Operands α) : List (Operand × α) :=
  let e := o.map Prod.mk
  e.arguments.toList ++ e.locals.toList

instance [Encode α] : Encode (Operands α) where
  encode o := .obj [("arguments", encode o.arguments), ("locals", encode o.locals)]

instance [Decode α] : Decode (Operands α) where
  decode j := do
    let f ← Json.fields? ["arguments", "locals"] j
    return { arguments := ← f.get "arguments", locals := ← f.get "locals" }

end Operands

/-- What a flushed frame slot holds. -/
inductive FlushFormat where
  /-- nothing useful -/
  | dead
  /-- a raw int32 in the low half -/
  | int32
  /-- an int52, shifted left -/
  | int52
  /-- raw double bits -/
  | double
  /-- a raw 0 or 1 -/
  | boolean
  /-- a cell pointer -/
  | cell
  /-- a boxed value -/
  | jsValue
  /-- predecessors disagree -/
  | conflicting
deriving DecidableEq, Hashable, Inhabited, Repr

namespace FlushFormat

def all : List FlushFormat :=
  [.dead, .int32, .int52, .double, .boolean, .cell, .jsValue, .conflicting]

def name : FlushFormat → String
  | .dead => "Dead"
  | .int32 => "Int32"
  | .int52 => "Int52"
  | .double => "Double"
  | .boolean => "Boolean"
  | .cell => "Cell"
  | .jsValue => "JsValue"
  | .conflicting => "Conflicting"

/-- The slot holds a value that can be read back. -/
def isLive (f : FlushFormat) : Bool := f != .dead && f != .conflicting

instance : Encode FlushFormat := ⟨fun f => .str f.name⟩
instance : Decode FlushFormat := ⟨Json.enum? all name⟩

end FlushFormat

/-- The source position of a node. -/
structure CodeOrigin where
  bytecodeIndex : Nat := 0
deriving DecidableEq, Hashable, Inhabited, Repr

namespace CodeOrigin

instance : ToString CodeOrigin := ⟨fun o => s!"bc#{o.bytecodeIndex}"⟩

instance : Encode CodeOrigin := ⟨fun o => .obj [("bytecode_index", encode o.bytecodeIndex)]⟩

instance : Decode CodeOrigin where
  decode j := do
    let f ← Json.fields? ["bytecode_index"] j
    return ⟨← f.get "bytecode_index"⟩

end CodeOrigin

end SpecJit
