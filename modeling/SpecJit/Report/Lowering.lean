import SpecJit.Deopt
import SpecJit.Lir.Codec
import SpecJit.Lowering
import SpecJit.Report.Basic

/-!
# Reports on lowered functions and exits taken
-/

namespace SpecJit.Report

/-! ## Lowered functions -/

def loweringStats (s : Lowering.Stats) : Json :=
  .obj [("nodes_lowered", nat s.nodesLowered), ("checks_emitted", nat s.checksEmitted),
    ("checks_elided", nat s.checksElided), ("exits", nat s.exits),
    ("terminated_blocks", nat s.terminatedBlocks), ("unreachable_blocks", nat s.unreachableBlocks)]

/-- A part of a lowered function by its name. -/
def loweredPart? (f : LoweredFunction) : String → Option Json
  | "lir" => some (encode f.lir)
  | "exits" => some (encode f.exits)
  | "ics" => some (encode f.caches)
  | "stats" => some (loweringStats f.stats)
  | "text" => some (.str f.lir.text)
  | _ => none

def statsText (s : Lowering.Stats) : String :=
  s!"LoweringStats \x7b nodes_lowered: {s.nodesLowered}, checks_emitted: {s.checksEmitted}, " ++
    s!"checks_elided: {s.checksElided}, exits: {s.exits}, " ++
    s!"terminated_blocks: {s.terminatedBlocks}, unreachable_blocks: {s.unreachableBlocks} \x7d"

/-- Text that shows how far a lowering is. -/
def sessionText (s : Lowering.Session) : String :=
  let name := Text.quote s.env.graph.name
  let node := match s.state.node with
    | some id => s!"Some({id.debug})"
    | none => "None"
  s!"LowerCx \x7b function: {name}, block: BlockIndex({s.state.block.index}), node: {node}, " ++
    s!"stats: {statsText s.state.stats} \x7d"

/-- How far a lowering is. -/
def session (s : Lowering.Session) : Json :=
  .obj [("stats", loweringStats s.state.stats), ("insts", nat s.state.builder.func.instCount),
    ("debug", .str (sessionText s))]

/-! ## Exits taken -/

/-- A materializer that gives each new object an address of its own and remembers what it was asked
to build, the last object first. -/
def recorder : Materializer (List MaterializedFields) where
  build f built := (0x10000 * UInt64.ofNat (built.length + 1), f :: built)

/-- An object that was built. -/
def built (f : MaterializedFields) : Json :=
  .obj [("kind", encode f.kind), ("id", encode f.id), ("origin", nat f.origin.bytecodeIndex),
    ("len", nat f.fields.length), ("empty", encode f.fields.isEmpty),
    ("fields", list (fun (l, w) => .arr [encode l, boxed w]) f.fields),
    ("structure", option boxed (f.get? .structureId))]

/-- The members of a report on a frame. -/
def frameMembers (f : ResolvedFrame) (objects : List MaterializedFields) : List (String × Json) :=
  [("operands", list (fun (v, w) => .arr [shown v, boxed w]) f.operands.toList),
    ("profiled", option boxed f.profiledValue),
    ("materialized", list (fun (id, w) => .arr [encode id, word w]) f.materialized),
    ("built", list built objects.reverse)]

/-- The members of a report on the exit that led to a frame. -/
def exitMembers (f : ResolvedFrame) : List (String × Json) :=
  [("exit", encode f.exit), ("kind", encode f.kind), ("origin", nat f.origin.bytecodeIndex),
    ("beyond", boxed (f.operand (.loc 0xffffffff)))]

end SpecJit.Report
