import SpecJit.Proofs.Lowering.DeadEnds
import SpecJit.Proofs.Lowering.Exits.Record

/-!
# Live variables that an exit does not restore

With `validateExitLiveness` an exit may not record a live variable as dead. The check looks at
variables that were declared dead only. `live_recorded_dead_iff` says what that means for every
exit: a live variable that was declared dead stops the lowering, and any other one is recorded as
dead exactly if there is nothing to restore it from (`Restorable`), be it that it was never set,
that paths disagree on it, or that its node is in no form that exits capture.
-/

namespace SpecJit.Lowering

open Lir

section

variable {env : Env} {s s' : State} {a : Availability} {id : NodeId} {node : Node}

/-- An operand that an exit has as an int32. -/
inductive IsInt32Here (env : Env) (s : State) (e : Edge) : Prop
  | held {r : Reg} : heldIn env s e.node .int32 = some r → IsInt32Here env s e
  | constant {node : Node} {n : Int32} : env.graph.node? e.node = some node →
    node.op = .jsConstant (.int32 n) →
      IsInt32Here env s e

/-- An exit has something to restore the value of a node from. -/
inductive RestorableNode (env : Env) (s : State) (id : NodeId) (node : Node) : Prop
  /-- an allocation that was put off -/
  | object {kind : PhantomKind} : node.op = .phantomAllocation kind → RestorableNode env s id node
  | constant {w : Word} : node.op.constantWord? = some w → RestorableNode env s id node
  /-- a register that holds the node in a form that exits capture -/
  | held {form : Form} {format : ValueFormat} {r : Reg} : (form, format) ∈ capturedForms →
      heldIn env s id form = some r → RestorableNode env s id node
  /-- a sum that only exits need, of two operands that the exit has -/
  | sum {left right : Edge} : id ∈ env.exitOnly → node.children[0]? = some left →
    node.children[1]? = some right →
      IsInt32Here env s left → IsInt32Here env s right → RestorableNode env s id node

/-- An exit has something to restore a value from that is available as `a`. -/
inductive Restorable (env : Env) (s : State) (a : Availability) : Prop
  /-- a slot of the frame that holds a value -/
  | slot {f : FlushedAt} : a.flushed = some f → f.format.isLive = true → Restorable env s a
  | node {id : NodeId} {node : Node} : a.node = some id → env.graph.node? id = some node →
      RestorableNode env s id node → Restorable env s a

theorem termOf_isSome_iff {e : Edge} : (termOf env s e).isSome = true ↔ IsInt32Here env s e := by
  rw [termOf]
  cases hr : heldIn env s e.node .int32 with
  | some r => exact ⟨fun _ => .held hr, fun _ => rfl⟩
  | none =>
    constructor
    · intro h
      rw [Option.isSome_map, Option.isSome_iff_exists] at h
      obtain ⟨n, hn⟩ := h
      obtain ⟨node, hnode, hn⟩ := Option.bind_eq_some_iff.1 hn
      refine .constant (n := n) hnode ?_
      unfold int32Constant? at hn
      split at hn
      · next hop => rw [hop, Option.some.inj hn]
      · cases hn
    · rintro (hheld | ⟨hnode, hop⟩)
      · rw [hr] at hheld
        cases hheld
      · rw [hnode, Option.bind_some, hop]
        rfl

theorem sumOf_eq_nowhere_iff : sumOf env s id node = .nowhere ↔ ¬ (id ∈ env.exitOnly ∧ ∃ left right,
    node.children[0]? = some left ∧ node.children[1]? = some right ∧ IsInt32Here env s left ∧
    IsInt32Here env s right) := by
  rw [sumOf]
  by_cases honly : id ∈ env.exitOnly
  · rw [if_pos (List.contains_iff_mem.2 honly)]
    cases hl : node.children[0]? with
    | none => simp
    | some left =>
      cases hr : node.children[1]? with
      | none => simp
      | some right =>
        simp only [Option.bind_some, honly, true_and, Option.some.injEq, exists_and_left,
          exists_eq_left', ← termOf_isSome_iff]
        cases termOf env s left <;> cases termOf env s right <;> simp
  · rw [if_neg (by simpa using honly)]
    simp [honly]

/-- Every slot that holds a value has a format that exits know. -/
theorem slot_eq_none_iff :
    (a.liveFlush?.bind fun f => (ValueFormat.ofFlush? f.format).map (f.slot, ·)) = none ↔
    ∀ f, a.flushed = some f → f.format.isLive = false := by
  cases hf : a.flushed with
  | none => simp [Availability.liveFlush?, hf]
  | some f =>
    obtain ⟨slot, format⟩ := f
    cases format <;> simp [Availability.liveFlush?, hf, FlushFormat.isLive, ValueFormat.ofFlush?,
      Option.filter]

/-- The value of a node comes from nowhere exactly if there is nothing to restore it from. -/
theorem nodeSource_eq_nowhere_iff :
    nodeSource env s id node = .nowhere ↔ ¬ RestorableNode env s id node := by
  rw [nodeSource]
  split
  · next kind hop => simpa using RestorableNode.object hop
  next hop =>
    cases hword : node.op.constantWord? with
    | some w => simpa using RestorableNode.constant hword
    | none =>
      cases hheld : capturedIn env s id with
      | some p =>
        obtain ⟨f, hf, hr⟩ := List.exists_of_findSome?_eq_some hheld
        obtain ⟨r, hr, -⟩ := Option.map_eq_some_iff.1 hr
        simpa using RestorableNode.held hf hr
      | none =>
        have hheld := List.findSome?_eq_none_iff.1 hheld
        show sumOf env s id node = .nowhere ↔ _
        rw [sumOf_eq_nowhere_iff, not_iff_not]
        constructor
        · rintro ⟨honly, left, right, hl, hr, hleft, hright⟩
          exact .sum honly hl hr hleft hright
        · rintro (hobject | hconstant | ⟨hform, hr⟩ | ⟨honly, hl, hr, hleft, hright⟩)
          · exact absurd hobject (hop _)
          · rw [hword] at hconstant
            cases hconstant
          · have hnone := hheld _ hform
            rw [hr] at hnone
            cases hnone
          · exact ⟨honly, _, _, hl, hr, hleft, hright⟩

/-- A value comes from nowhere exactly if there is nothing to restore it from. -/
theorem sourceOf_eq_nowhere_iff : sourceOf env s a = .nowhere ↔ ¬ Restorable env s a := by
  rw [sourceOf]
  cases hslot : a.liveFlush?.bind fun f => (ValueFormat.ofFlush? f.format).map (f.slot, ·) with
  | some p =>
    obtain ⟨f, hf, -⟩ := Option.bind_eq_some_iff.1 hslot
    have hf := Option.filter_eq_some_iff.1 hf
    simpa using Restorable.slot hf.1 hf.2
  | none =>
    -- without a slot it is a matter of the node
    have hnode : Restorable env s a ↔ ∃ id node, a.node = some id ∧ env.graph.node? id = some node ∧
        RestorableNode env s id node := by
      constructor
      · rintro (⟨hf, hlive⟩ | ⟨hid, hnode, h⟩)
        · simp [slot_eq_none_iff.1 hslot _ hf] at hlive
        · exact ⟨_, _, hid, hnode, h⟩
      · rintro ⟨id, node, hid, hnode, h⟩
        exact .node hid hnode h
    rw [hnode]
    cases hid : a.node with
    | none => simp
    | some id =>
      cases hnode : env.graph.node? id with
      | none => simp [hnode]
      | some node => simpa [hnode] using nodeSource_eq_nowhere_iff

/-- An exit is built only if no live variable was declared dead, and then it records a live variable
as dead exactly if there is nothing to restore it from. -/
theorem live_recorded_dead_iff {kind : ExitKind} {profile : Option Reg} {id : ExitId}
    {regs : List Reg} {v : Operand} (hvalidate : env.options.validateExitLiveness = true)
    (h : buildExit kind profile env s = .ok ((id, regs), s'))
    (hlive : env.graph.isLiveInBytecode v s.origin = true) :
    (s.availability.get v).isDead = false ∧ ∃ e, s'.exits.exit? id = some e ∧ e.origin = s.origin ∧
      ∀ x, e.values.get? v = some x → (x = .dead ↔ ¬ Restorable env s (s.availability.get v)) := by
  obtain ⟨K, c, e, s₁, hrecords, rfl, rfl, rfl⟩ := buildExit_records h
  refine ⟨?_, e, Array.getElem?_push_size, hrecords.origin, fun x hx => ?_⟩
  · cases ha : s.availability.operands.get? v with
    | none =>
      rw [AvailabilityMap.get, ha]
      rfl
    | some a =>
      rw [AvailabilityMap.get, ha]
      exact hrecords.permitted v a ha hvalidate hlive
  · rw [(hrecords.values v x hx).eq_dead_iff, variableSource, if_neg (by simp [hlive]),
      sourceOf_eq_nowhere_iff]

end

/-!
## Paths that disagree

Local 0 is 1 or 2, depending on the way taken, and it is live at the exit behind the join. What the
two ways say about it has nothing in common, so the exit takes it from nowhere, and the interpreter
goes on with `undefined`.
-/

def splitHint : Graph where
  name := "splitHint"
  nodes := #[
    { op := .getStack { operand := .arg 1, slot := .arg 1, format := .jsValue },
      result := .jsValue },
    { op := .branch { taken := ⟨1⟩, notTaken := ⟨2⟩ },
      children := [{ node := ⟨0⟩, useKind := .boolean }] },
    { op := .jsConstant (.int32 1), result := .jsValue },
    { op := .movHint (.loc 0), children := [{ node := ⟨2⟩ }] },
    { op := .jump ⟨3⟩ },
    { op := .jsConstant (.int32 2), result := .jsValue },
    { op := .movHint (.loc 0), children := [{ node := ⟨5⟩ }] },
    { op := .jump ⟨3⟩ },
    { op := .forceOsrExit, origin := ⟨1⟩ },
    { op := .ret, children := [{ node := ⟨0⟩ }], origin := ⟨1⟩ }]
  blocks := #[{ index := ⟨0⟩, nodes := #[⟨0⟩, ⟨1⟩] },
    { index := ⟨1⟩, nodes := #[⟨2⟩, ⟨3⟩, ⟨4⟩], predecessors := [⟨0⟩] },
    { index := ⟨2⟩, nodes := #[⟨5⟩, ⟨6⟩, ⟨7⟩], predecessors := [⟨0⟩] },
    { index := ⟨3⟩, nodes := #[⟨8⟩, ⟨9⟩], predecessors := [⟨1⟩, ⟨2⟩] }]
  numArguments := 2
  numLocals := 1
  liveness := { entries := [(0, []), (1, [.loc 0])] }

/-- What an exit of a lowered graph records of a variable. -/
def recordedValue (g : Graph) (id : ExitId) (v : Operand) : Option (CodeOrigin × ExitValue) :=
  match g.lower {} {} with
  | .ok f => (f.exits.exit? id).map fun e => (e.origin, e.value v)
  | .error _ => none

/-- The lowering finishes, with the check on, and the exit behind the join records the live local as
dead. -/
theorem splitHint_records_dead :
    splitHint.canCompile.isOk = true ∧ ({} : LoweringOptions).validateExitLiveness = true ∧
      splitHint.isLiveInBytecode (.loc 0) ⟨1⟩ = true ∧ recordedValue splitHint ⟨1⟩
        (.loc 0) = some (⟨1⟩, .dead) ∧
      simulated splitHint (Simulation.FrameValues.memory { arguments := [Value.trueWord] })
        = some (.exited ⟨1⟩ []) := by
  refine ⟨by decide, rfl, by decide, by decide +kernel, by decide +kernel⟩

namespace BehindJoin

def env : Env where
  graph := splitHint
  options := {}
  layout := {}
  dominators :=
    { parents := #[some ⟨0⟩, some ⟨0⟩, some ⟨0⟩, some ⟨0⟩], numbers := #[some 0, some 1, some 2,
      some 3] }
  availabilityHeads := #[]
  phiParams := []
  exitOnly := []
  context := ⟨0⟩
  frame := ⟨1⟩

/-- Behind the join: the ways left nothing to agree on. -/
def before : State where
  builder := .start "splitHint"
  facts := { blocks := #[], current := .empty splitHint, valid := true }
  availability := .empty splitHint
  block := ⟨3⟩
  origin := ⟨1⟩

def after : State :=
  match buildExit .inadequateCoverage none env before with
  | .ok (_, s) => s
  | .error _ => before

end BehindJoin

/-- The exit behind the join has nothing to restore the live local from. -/
theorem live_recorded_dead_behindJoin : ∃ e, BehindJoin.after.exits.exit? ⟨0⟩ = some e ∧
    splitHint.isLiveInBytecode (.loc 0) e.origin = true ∧ e.values.get? (.loc 0) = some .dead ∧
    ¬ Restorable BehindJoin.env BehindJoin.before (BehindJoin.before.availability.get
      (.loc 0)) := by
  have hbuild : buildExit .inadequateCoverage none BehindJoin.env
    BehindJoin.before = .ok ((⟨0⟩, []), BehindJoin.after) := rfl
  obtain ⟨-, e, he, horigin, hdead⟩ := live_recorded_dead_iff (v := .loc 0) rfl hbuild (by decide)
  cases he
  exact ⟨_, rfl, by decide, rfl, (hdead .dead rfl).1 rfl⟩

end SpecJit.Lowering
