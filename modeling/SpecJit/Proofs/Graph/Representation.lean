import SpecJit.Proofs.Graph.Valid
import SpecJit.Proofs.Json.Interchange
import SpecJit.Proofs.Lowering.DeadEnds
import SpecJit.Proofs.StructureSet

/-!
# How graphs hold their structures

The analyses look structures up: in a set of ids by halving, and in the registry by id. They find
what is there if the sets ascend and each structure is registered under its own id
(`Graph.Represented`), and if nothing is listed twice then only if (`represented_iff`).

Reading a graph does not establish this. Whatever sets and registry stand in place of those of a
graph, they are accepted and taken as they are (`ofJson_withSets`), and an analysis may then miss a
structure that a set has (`missedStructure_unreachable`).
-/

namespace SpecJit

/-! ## The sets of a graph -/

/-- The sets of structures that an operation names. -/
def Op.structureSets : Op → List StructureSet
  | .checkStructure s => [s]
  | .multiGetByOffset cases => cases.map (·.structures)
  | .multiPutByOffset cases => cases.map (·.oldStructures)
  | .materializeNewObject d | .materializeCreateActivation d => [d.structures]
  | _ => []

/-- The operation with other sets of structures. -/
def Op.mapSets (f : StructureSet → StructureSet) : Op → Op
  | .checkStructure s => .checkStructure (f s)
  | .multiGetByOffset cases =>
    .multiGetByOffset (cases.map fun c => { c with structures := f c.structures })
  | .multiPutByOffset cases =>
    .multiPutByOffset (cases.map fun c => { c with oldStructures := f c.oldStructures })
  | .materializeNewObject d => .materializeNewObject { d with structures := f d.structures }
  | .materializeCreateActivation d =>
    .materializeCreateActivation { d with structures := f d.structures }
  | op => op

namespace Op

variable (f : StructureSet → StructureSet) (op : Op)

theorem structureSets_mapSets : (op.mapSets f).structureSets = op.structureSets.map f := by
  cases op <;> simp [mapSets, structureSets]

theorem minChildren_mapSets : (op.mapSets f).minChildren = op.minChildren := by cases op <;> rfl

theorem name_mapSets : (op.mapSets f).name = op.name := by cases op <;> rfl

theorem successors_mapSets : (op.mapSets f).successors = op.successors := by cases op <;> rfl

theorem isTerminal_mapSets : (op.mapSets f).isTerminal = op.isTerminal := by cases op <;> rfl

end Op

namespace Registry

/-- Each structure stands at the place of its id. -/
def Placed (r : Registry) : Prop :=
  ∀ (i : Nat) (s : Structure), r.slots[i]? = some (some s) → s.id.index = i

/-- Looking a structure up by its id finds it. -/
def Finds (r : Registry) : Prop :=
  ∀ (i : Nat) (s : Structure), r.slots[i]? = some (some s) → r.get? s.id = some s

/-- No id belongs to structures at two places. -/
def Distinct (r : Registry) : Prop :=
  ∀ (i j : Nat) (s t : Structure), r.slots[i]? = some (some s) → r.slots[j]? = some (some t) →
    s.id = t.id → i = j

theorem placed_iff_found {r : Registry} : r.Placed ↔ r.Distinct ∧ r.Finds := by
  have hget (id : StructureId) (s : Structure) : r.get? id = some s ↔
    r.slots[id.index]? = some (some s) := by
    rw [get?, Option.join_eq_some_iff]
  refine ⟨fun h => ⟨fun i j s t hs ht hid => ?_, fun i s hs => ?_⟩, fun ⟨hdistinct, hfinds⟩ i s
    hs => ?_⟩
  · rw [← h i s hs, ← h j t ht, hid]
  · rw [hget, h i s hs]
    exact hs
  · exact hdistinct _ _ s s ((hget _ _).1 (hfinds i s hs)) hs rfl

end Registry

namespace Graph

variable {g : Graph} {f : StructureSet → StructureSet} {r : Registry}

/-- The sets of structures that the nodes of a graph name. -/
def structureSets (g : Graph) : List StructureSet := g.nodes.toList.flatMap (·.op.structureSets)

/-- The sets ascend, and each structure is registered under its id. -/
structure Represented (g : Graph) : Prop where
  ascending : ∀ s ∈ g.structureSets, s.Ascending
  placed : g.structures.Placed

/-- What the sets and the registry list is found there. -/
structure Found (g : Graph) : Prop where
  members : ∀ s ∈ g.structureSets, ∀ id ∈ s.ids, s.contains id = true
  structures : g.structures.Finds

/-- Nothing is listed twice. -/
structure ListsStructuresOnce (g : Graph) : Prop where
  members : ∀ s ∈ g.structureSets, s.ids.Nodup
  structures : g.structures.Distinct

/-- Everything that is listed is found if the sets ascend and the structures are at their places,
and only then if nothing is listed twice. -/
theorem represented_iff : g.Represented ↔ g.ListsStructuresOnce ∧ g.Found := by
  refine ⟨fun h =>
    ⟨⟨fun s hs => (h.ascending s hs).nodup, (Registry.placed_iff_found.1 h.placed).1⟩,
    ⟨fun s hs id hid => (h.ascending s hs).contains_iff.2 hid,
      (Registry.placed_iff_found.1 h.placed).2⟩⟩, fun ⟨honce, hfound⟩ => ?_⟩
  refine ⟨fun s hs => ?_, Registry.placed_iff_found.2 ⟨honce.structures, hfound.structures⟩⟩
  exact StructureSet.ascending_iff_found.2 ⟨honce.members s hs, hfound.members s hs⟩

/-! ## Other sets in their place -/

/-- The graph with other sets of structures and another registry. -/
def withSets (g : Graph) (f : StructureSet → StructureSet) (r : Registry) : Graph :=
  { g with nodes := g.nodes.map fun n => { n with op := n.op.mapSets f }, structures := r }

theorem structureSets_withSets : (g.withSets f r).structureSets = g.structureSets.map f := by
  simp only [structureSets, withSets, Array.toList_map, List.flatMap_map, List.map_flatMap,
    Op.structureSets_mapSets]

theorem node?_withSets (id : NodeId) :
    (g.withSets f r).node? id = (g.node? id).map fun n => { n with op := n.op.mapSets f } := by
  simp [node?, withSets]

theorem checkListed_withSets (id : NodeId) :
    (g.withSets f r).checkListed id = g.checkListed id := by
  have hhas (used : NodeId) : (g.withSets f r).hasNode used = g.hasNode used := by
    simp [hasNode, withSets]
  have hnamed (n : Node) : namedBy { n with op := n.op.mapSets f } = namedBy n := by
    obtain ⟨op, children, result, origin, prediction⟩ := n
    cases op <;> rfl
  rw [checkListed, checkListed, node?_withSets]
  cases g.node? id with
  | none => rfl
  | some n => simp only [Option.map_some, hnamed, hhas, Op.minChildren_mapSets, Op.name_mapSets]

theorem isTerminalNode_withSets : (g.withSets f r).isTerminalNode = g.isTerminalNode := by
  funext id
  rw [isTerminalNode, isTerminalNode, node?_withSets]
  cases g.node? id with
  | none => rfl
  | some n => exact Op.isTerminal_mapSets f n.op

theorem checkBlock_withSets (b : BasicBlock) : (g.withSets f r).checkBlock b = g.checkBlock b := by
  have hlisted : (g.withSets f r).checkListed = g.checkListed := funext checkListed_withSets
  have htargets (last : NodeId) :
      ((g.withSets f r).node? last).map (·.op.successors) = (g.node? last).map
        (·.op.successors) := by
    rw [node?_withSets, Option.map_map]
    congr 1
    funext n
    exact Op.successors_mapSets f n.op
  simp only [checkBlock, hlisted, isTerminalNode_withSets, htargets]
  rfl

theorem validate_withSets : (g.withSets f r).validate = g.validate := by
  have hblock : (g.withSets f r).checkBlock = g.checkBlock := funext checkBlock_withSets
  rw [validate, validate, hblock]
  rfl

theorem computePredecessors_withSets (h : g.computePredecessors = .ok g) :
    (g.withSets f r).computePredecessors = .ok (g.withSets f r) := by
  have hsuccessors (b : BlockIndex) : (g.withSets f r).successors b = g.successors b := by
    have hterminal : (g.withSets f r).terminal? b = g.terminal? b := by
      simp only [terminal?, node?_withSets, show (g.withSets f r).block? b = g.block? b from rfl]
      cases g.block? b with
      | none => rfl
      | some blk =>
        cases hlast : blk.nodes.back? with
        | none => simp [hlast]
        | some last =>
          simp only [Option.bind_eq_bind, Option.bind_some, hlast, Option.bind_map]
          congr 1
          funext n
          exact congrArg (fun t => if t = true then some last else none)
            (Op.isTerminal_mapSets f n.op)
    rw [successors, successors, hterminal]
    cases hb : g.terminal? b with
    | none => rfl
    | some t =>
      simp only [Option.bind_some, node?_withSets]
      cases g.node? t with
      | none => rfl
      | some n => exact Op.successors_mapSets f n.op
  have hpredecessors : (g.withSets f r).predecessorsOf = g.predecessorsOf := by
    funext b
    simp only [predecessorsOf, hsuccessors]
    rfl
  have hlast : (g.withSets f r).lastNodesExist = g.lastNodesExist := by
    simp only [lastNodesExist, node?_withSets, Option.isSome_map]
    rfl
  rw [computePredecessors] at h ⊢
  rw [hlast, hpredecessors]
  split at h
  · rename_i hexist
    rw [if_pos hexist]
    have hblocks := congrArg blocks (Except.ok.inj h)
    exact congrArg Except.ok (congrArg (fun bs => { g.withSets f r with blocks := bs }) hblocks)
  · cases h

/-- Reading a graph does not look at the order of sets and structures. Whatever sets and registry
stand in a graph, in place of those of a well-formed one, the graph is accepted with them as they
are; it is represented as it should be iff nothing in it is listed twice and all that is listed is
found. -/
theorem ofJson_withSets (hpredecessors : g.computePredecessors = .ok g)
    (hvalid : g.validate = .ok ()) (f : StructureSet → StructureSet) (r : Registry)
    (hfits : (g.withSets f r).Fits) : ∃ h : Graph, ofJson (encode (g.withSets f r)) = .ok h ∧
      h.structureSets = g.structureSets.map f ∧ h.structures = r ∧
      (h.Represented ↔ h.ListsStructuresOnce ∧ h.Found) := by
  obtain ⟨l, hl, -⟩ := ofJson_encode hfits (computePredecessors_withSets hpredecessors)
    (validate_withSets.trans hvalid)
  exact ⟨_, hl, structureSets_withSets (r := r), rfl, represented_iff⟩

/-! ## A structure that is missed -/

/-- A cell is checked for structure 2, and then for the structures of a set. -/
def checkedStructures (set : StructureSet) : Graph where
  name := "checkedStructures"
  nodes := #[
    { op := .getStack { operand := .arg 1, slot := .arg 1, format := .jsValue },
      result := .jsValue },
    { op := .checkStructure ⟨[⟨2⟩]⟩, children := [{ node := ⟨0⟩, useKind := .cell }] },
    { op := .checkStructure set, children := [{ node := ⟨0⟩, useKind := .cell }] },
    { op := .ret, children := [{ node := ⟨0⟩ }] }]
  blocks := #[{ index := ⟨0⟩, nodes := #[⟨0⟩, ⟨1⟩, ⟨2⟩, ⟨3⟩] }]
  numArguments := 2
  numLocals := 0

/-- The second check is for structure 2 or 1, in this order. -/
def missedStructure : Graph :=
  (checkedStructures ⟨[⟨1⟩, ⟨2⟩]⟩).withSets (fun s => ⟨s.ids.reverse⟩) {}

theorem missedStructure_fits : missedStructure.Fits := by
  constructor
  case liveness =>
    exact ⟨by decide, by simp [missedStructure, withSets, checkedStructures, Sized.Fits]⟩
  all_goals simp [missedStructure, withSets, checkedStructures, Op.mapSets, Sized.Fits]

/-- The graph is accepted with its set turned round. -/
theorem ofJson_withSets_missedStructure : (checkedStructures ⟨[⟨1⟩, ⟨2⟩]⟩).validate = .ok () ∧
    ∃ h : Graph, ofJson (encode missedStructure) = .ok h ∧
    h.structureSets = [⟨[⟨2⟩]⟩, ⟨[⟨2⟩, ⟨1⟩]⟩] ∧ ¬ h.Represented := by
  have hvalid : (checkedStructures ⟨[⟨1⟩, ⟨2⟩]⟩).validate = .ok () := by decide +kernel
  have hpredecessors : (checkedStructures ⟨[⟨1⟩, ⟨2⟩]⟩).computePredecessors = .ok (checkedStructures
    ⟨[⟨1⟩, ⟨2⟩]⟩) :=
    computePredecessors_eq (by decide +kernel) (by decide +kernel)
  obtain ⟨h, hread, hsets, -, hiff⟩ :=
    ofJson_withSets hpredecessors hvalid (fun s => ⟨s.ids.reverse⟩) {} missedStructure_fits
  refine ⟨hvalid, h, hread, hsets, fun hrepresented => ?_⟩
  have hfound :=
    (hiff.1 hrepresented).2.members ⟨[⟨2⟩, ⟨1⟩]⟩
      (by rw [hsets]; exact List.mem_cons_of_mem _ List.mem_cons_self) ⟨2⟩
    List.mem_cons_self
  exact absurd hfound (by decide +kernel)

/-- The graph is accepted with a set that does not ascend. The search misses structure 2 in it, and
so the code takes the second check to fail always: a run with a cell of structure 2, which passes
both checks, ends where no run should come. -/
theorem missedStructure_unreachable :
    (∃ h : Graph, ofJson (encode missedStructure) = .ok h ∧ ¬ h.Represented) ∧
      (⟨[⟨2⟩, ⟨1⟩]⟩ : StructureSet) ∈ missedStructure.structureSets ∧
      (⟨[⟨2⟩, ⟨1⟩]⟩ : StructureSet).contains ⟨2⟩ = false ∧
      Lowering.simulated missedStructure
        ((Simulation.FrameValues.memory { arguments := [0x5000] }).write 0x5000 4 2) =
        some (.unreachable ⟨7⟩) := by
  have hmem : (⟨[⟨2⟩, ⟨1⟩]⟩ : StructureSet) ∈ missedStructure.structureSets := by decide +kernel
  refine ⟨?_, hmem, by decide +kernel, by decide +kernel⟩
  obtain ⟨l, hread, -⟩ :=
    ofJson_encode missedStructure_fits (computePredecessors_eq (by decide +kernel)
      (by decide +kernel))
    (by decide +kernel)
  refine ⟨_, hread, fun hrepresented => absurd (hrepresented.ascending _ hmem) (by decide)⟩

end Graph

end SpecJit
