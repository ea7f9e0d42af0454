import SpecJit.Graph.Validate
import SpecJit.Json.Text

/-!
# The interchange form of graphs

`Graph.ofText` reads a graph from text, computes its predecessors and validates it.
-/

namespace SpecJit

/-- Why a graph could not be loaded. -/
inductive LoadError where
  /-- the text is no JSON, or not of a graph -/
  | json
  | invalid (e : GraphError)
  | fault (f : Fault)
deriving DecidableEq, Inhabited, Repr

namespace Graph

instance : Encode Graph where
  encode g := .obj [("name", encode g.name), ("nodes", encode g.nodes), ("blocks", encode g.blocks),
    ("num_arguments", encode g.numArguments), ("num_locals", encode g.numLocals),
    ("identifiers", encode g.identifiers), ("structures", encode g.structures),
    ("liveness", encode g.liveness)]

instance : Decode Graph where
  decode j := do
    let f ← Json.fields? ["name", "nodes", "blocks", "num_arguments", "num_locals", "identifiers",
      "structures", "liveness"] j
    return {
      name := ← f.get "name"
      nodes := ← f.get "nodes"
      blocks := ← f.get "blocks"
      numArguments := ← f.get "num_arguments"
      numLocals := ← f.get "num_locals"
      identifiers := ← f.getD "identifiers" #[]
      structures := ← f.getD "structures" {}
      liveness := ← f.getD "liveness" {} }

/-- Reads a graph and computes its predecessors, without validating it. -/
def ofJsonUnchecked (j : Json) : Except LoadError Graph :=
  match decode j with
  | none => .error .json
  | some (g : Graph) => g.computePredecessors.mapError .fault

/-- Reads a graph that is well formed. -/
def ofJson (j : Json) : Except LoadError Graph := do
  let g ← ofJsonUnchecked j
  g.validate.mapError .invalid
  return g

/-- Reads a well-formed graph from text. -/
def ofText (text : String) : Except LoadError Graph :=
  match Json.parse? text with
  | none => .error .json
  | some j => ofJson j

/-- Writes a graph as text. -/
def toText (g : Graph) : String := (encode g).render

end Graph

end SpecJit
