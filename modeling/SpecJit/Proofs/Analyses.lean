import Mathlib.Data.List.Forall2
import SpecJit.Capability
import SpecJit.Proofs.Fixpoint.Rounds

/-!
# The analyses run through

The analyses of a graph read its tables without looking whether an entry is there, and go on until
nothing changes. On a well-formed graph that knows its predecessors this is right: with every access
checked and all steps counted, none of them is interrupted, and each yields what it yields without
the checks (`analyses_uninterrupted`). Nodes may be used anywhere, listed nowhere or more than once,
and blocks may lead to themselves or be led to by nothing. Only the availability of variables can
fail, where arguments are spread over variables with too high numbers.
-/

namespace SpecJit

namespace Guarded

open AvailabilityMap

/-! ## Availability -/

/-- Hands the state at the end of a block to a successor, and tells whether that changed anything.
-/
def flow (tail : AvailabilityMap) (s : Array (Option AvailabilityMap) × Bool) (succ : BlockIndex) :
    Except Interrupt (Array (Option AvailabilityMap) × Bool) := do
  match ← read s.1 succ.index with
  | none => return (← write s.1 succ.index (some tail), true)
  | some head =>
    return (← write s.1 succ.index (some (head.merge tail)), s.2 || head.merge tail != head)

/-- Executes a block that control can come to and hands its state on. -/
def flowBlock (g : Graph) (d : Dominators) (s : Array (Option AvailabilityMap) × Bool)
    (b : BlockIndex) :
    Except Interrupt (Array (Option AvailabilityMap) × Bool) := do
  if !d.isReachable b then return s
  match ← read s.1 b.index with
  | none => return s
  | some head =>
    let tail ← lift (head.executeAll g (← read g.blocks b.index).nodes.toList)
    (← successors g b).foldlM (flow tail) s

/-- Goes over the blocks until nothing changes, and counts the rounds. -/
def settleHeads (g : Graph) (d : Dominators) (order : List BlockIndex) :
    Nat → Nat → Array (Option AvailabilityMap) →
    Except Interrupt (Array (Option AvailabilityMap) × Nat)
  | 0, _, _ => .error .outOfSteps
  | rounds + 1, count, heads => do
    let (heads, changed) ← order.foldlM (flowBlock g d) (heads, false)
    if changed then settleHeads g d order rounds (count + 1) heads else return (heads, count + 1)

/-- The state at the head of every block that control can come to, and the number of rounds that it
takes. -/
def blockHeads (g : Graph) (d : Dominators) :
    Except Interrupt (Array (Option AvailabilityMap) × Nat) := do
  let initial ← write (Array.replicate g.blocks.size none) 0 (some (atEntry g))
  settleHeads g d (← reversePostorder g) (maxRounds g) 0 initial

/-! ## Capability -/

/-- Checks the nodes that a block lists. -/
def checkNodes (g : Graph) : List NodeId → Except Interrupt (Except CompileError Unit)
  | [] => .ok (.ok ())
  | id :: rest => do
    let node ← read g.nodes id.index
    match node.checkSupported with
    | .error rejection => return .error (rejection.toError id node)
    | .ok () => checkNodes g rest

/-- Checks the nodes of some blocks. -/
def checkBlocks (g : Graph) : List BlockIndex → Except Interrupt (Except CompileError Unit)
  | [] => .ok (.ok ())
  | b :: rest => do
    match ← checkNodes g (← read g.blocks b.index).nodes.toList with
    | .error e => return .error e
    | .ok () => checkBlocks g rest

/-- Checks that a graph can be compiled, and reports the first node that cannot. -/
def canCompile (g : Graph) : Except Interrupt (Except CompileError Unit) :=
  match g.validate with
  | .error e => .ok (.error (.invalid e))
  | .ok () => checkBlocks g g.blockIndices

end Guarded

namespace AvailabilityMap

variable {g : Graph} {d : Dominators} {s s' : Array (Option AvailabilityMap) × Bool}
  {heads : Array (Option AvailabilityMap)} {tail : AvailabilityMap} {b succ : BlockIndex}
  {order : List BlockIndex}

theorem flow_size : (flow tail s succ).1.size = s.1.size := by
  unfold flow
  dsimp only
  split <;> simp

theorem guarded_flow_eq (h : succ.index < s.1.size) :
    Guarded.flow tail s succ = .ok (flow tail s succ) := by
  obtain ⟨entry, hentry, hread⟩ := Guarded.read_ok h
  unfold Guarded.flow flow
  simp only [hread, hentry, Option.join_some, bind, Except.bind]
  cases entry <;> simp only [Guarded.write_eq h] <;> rfl

theorem guarded_flowBlock_eq (hvalid : g.validate = .ok ()) (hd : d.isReachable b = true)
    (hsize : s.1.size = g.blocks.size) (hb : b.index < g.blocks.size) (h : flowBlock g s b = .ok s')
    : Guarded.flowBlock g d s b = .ok s' := by
  have hexist := Graph.validate_successorsExist hvalid
  obtain ⟨entry, hentry, hread⟩ :=
    Guarded.read_ok (t := s.1) (i := b.index) (by rw [hsize]; exact hb)
  obtain ⟨blk, hblk, hreadBlock⟩ := Guarded.read_ok hb
  unfold Guarded.flowBlock
  simp only [hd, Bool.not_true, Bool.false_eq_true, ↓reduceIte, hread, bind, Except.bind]
  cases entry with
  | none =>
    rw [flowBlock, hentry] at h
    exact congrArg Except.ok (Except.ok.inj h)
  | some head =>
    rw [flowBlock_of_some hexist hentry (Fault.ofOption_eq_ok.2 hblk)] at h
    obtain ⟨tail, htail, h⟩ := bind_eq_ok_iff.1 h
    have hflow : (g.successors b).foldlM (Guarded.flow tail)
      s = .ok ((g.successors b).foldl (flow tail) s) := by
      refine Guarded.foldlM_eq (fun l s => (∀ v ∈ l, v.index < g.blocks.size) ∧
        s.1.size = g.blocks.size) (fun v l s hP => ?_)
        ⟨hexist b, hsize⟩
      exact ⟨guarded_flow_eq (by rw [hP.2]; exact hP.1 v (by simp)),
        fun w hw => hP.1 w (by simp [hw]), flow_size.trans hP.2⟩
    simp only [hreadBlock, Guarded.lift_eq htail,
      Guarded.successors_eq (Graph.validate_lastExist hvalid) hb, hflow]
    cases h
    rfl

theorem guarded_foldlM_eq (hvalid : g.validate = .ok ()) (hd : ∀ b ∈ order, d.isReachable b = true)
    (horder : ∀ b ∈ order, b.index < g.blocks.size) (hgood : Good g s.1)
    (h : order.foldlM (flowBlock g) s = .ok s') :
    order.foldlM (Guarded.flowBlock g d) s = .ok s' := by
  induction order generalizing s with
  | nil => exact congrArg Except.ok (Except.ok.inj h)
  | cons b order ih =>
    rw [List.forall_mem_cons] at hd horder
    rw [List.foldlM_cons] at h ⊢
    obtain ⟨s₁, h₁, h⟩ := bind_eq_ok_iff.1 h
    obtain ⟨s₂, h₂, hgood₂, -⟩ | ⟨herror, -⟩ := flowBlock_cases hvalid hgood horder.1
    · rw [h₁] at h₂
      cases h₂
      rw [guarded_flowBlock_eq hvalid hd.1 hgood.size horder.1 h₁]
      exact ih hd.2 horder.2 hgood₂ h
    · rw [h₁] at herror
      cases herror

/-- The rounds come to an end. -/
theorem guarded_settle (hvalid : g.validate = .ok ()) (hfar : ¬ SpreadsTooFar g)
    (hd : ∀ b ∈ order, d.isReachable b = true) (horder : ∀ b ∈ order, b.index < g.blocks.size)
    {rounds : Nat} (hgood : Good g heads) (hrounds : headsRoom g heads < rounds) (count : Nat) :
    ∃ heads' k, settle g order rounds heads = .ok heads' ∧
      Guarded.settleHeads g d order rounds count heads = .ok (heads', count + k) ∧ k ≤ rounds := by
  induction rounds generalizing heads count with
  | zero => omega
  | succ rounds ih =>
    obtain ⟨⟨heads₁, changed⟩, hround, hgood₁, hcases⟩ | ⟨-, hfar'⟩ :=
      foldlM_flowBlock_cases (s := (heads, false)) hvalid hgood horder
    swap
    · exact absurd hfar' hfar
    rw [settle, Guarded.settleHeads, hround, guarded_foldlM_eq hvalid hd horder hgood hround]
    cases changed with
    | false => exact ⟨heads₁, 1, rfl, rfl, by omega⟩
    | true =>
      have hless : headsRoom g heads₁ < headsRoom g heads :=
        (hcases.resolve_right fun hsame => by cases hsame.1).2
      have hgood₁ : Good g heads₁ := hgood₁
      obtain ⟨heads', k, hsettle, hguarded, hk⟩ := ih hgood₁ (by omega) (count + 1)
      simp only [bind, Except.bind, ↓reduceIte]
      exact ⟨heads', k + 1, hsettle, by rw [hguarded, Nat.add_right_comm, Nat.add_assoc], by omega⟩

end AvailabilityMap

namespace Graph

variable {g : Graph}

theorem guarded_checkNodes_eq {ids : List NodeId} (hids : ∀ id ∈ ids, id.index < g.nodes.size) :
    Guarded.checkNodes g ids = .ok (ids.forM g.checkSupported) := by
  induction ids with
  | nil => rfl
  | cons id ids ih =>
    rw [List.forall_mem_cons] at hids
    obtain ⟨node, hnode, hread⟩ := Guarded.read_ok hids.1
    have hcons : (id :: ids).forM g.checkSupported = g.checkSupported id >>= fun _ =>
      ids.forM g.checkSupported := rfl
    rw [Guarded.checkNodes, hread, hcons, checkSupported, show g.node? id = some node from hnode]
    simp only [bind, Except.bind]
    cases node.checkSupported with
    | error rejection => rfl
    | ok u => exact ih hids.2

theorem guarded_checkBlocks_eq (hvalid : g.validate = .ok ()) {bs : List BlockIndex}
    {blks : List BasicBlock}
    (h : List.Forall₂ (fun (b : BlockIndex) blk => g.blocks[b.index]? = some blk) bs blks) :
    Guarded.checkBlocks g bs = .ok (blks.forM fun blk => blk.nodes.toList.forM
      g.checkSupported) := by
  induction h with
  | nil => rfl
  | @cons b blk bs blks hblk _ ih =>
    have hnodes : ∀ id ∈ blk.nodes.toList, id.index < g.nodes.size := fun id hid => by
      have hlisted := ((validate_ok hvalid).2 blk (Array.mem_of_getElem? hblk)).listed id
        (by simpa using hid)
      obtain ⟨node, hn, -⟩ := checkListed_ok hlisted
      exact index_lt_of_node hn
    have hcons : ((blk :: blks).forM fun blk => blk.nodes.toList.forM g.checkSupported) =
        blk.nodes.toList.forM g.checkSupported >>= fun _ => blks.forM fun blk =>
          blk.nodes.toList.forM g.checkSupported := rfl
    rw [Guarded.checkBlocks, Guarded.read_eq hblk, hcons]
    simp only [bind, Except.bind, guarded_checkNodes_eq hnodes]
    cases blk.nodes.toList.forM g.checkSupported with
    | error e => rfl
    | ok u => exact ih

theorem guarded_canCompile_eq (hvalid : g.validate = .ok ()) :
    Guarded.canCompile g = .ok g.canCompile := by
  have hblocks : List.Forall₂ (fun (b : BlockIndex) blk => g.blocks[b.index]? = some blk)
    g.blockIndices g.blocks.toList := by
    rw [List.forall₂_iff_get]
    refine ⟨by simp [blockIndices], fun i h₁ h₂ => ?_⟩
    have hlt : i < g.blocks.size := by simpa using h₂
    simp [blockIndices, hlt]
  rw [Guarded.canCompile, canCompile, hvalid]
  exact guarded_checkBlocks_eq hvalid hblocks

/-- Arguments are spread over variables whose numbers are in range. -/
def SpreadsWithin (g : Graph) : Prop :=
  ∀ node ∈ g.nodes, ∀ d first, node.op = .loadVarargs d ∨ node.op = .forwardVarargs d →
    d.start = .loc first →
    first + d.limit < 0x100000000

theorem SpreadsWithin.not_spreadsTooFar (h : g.SpreadsWithin) :
    ¬ AvailabilityMap.SpreadsTooFar g := by
  rintro ⟨blk, -, id, -, node, hn, d, first, hop, hstart, hfar⟩
  have := h node (Array.mem_of_getElem? (Fault.ofOption_eq_ok.1 hn)) d first hop hstart
  omega

/-- None of the analyses is interrupted, and each yields what it yields without the checks, after no
more rounds than it is given. -/
theorem analyses_uninterrupted {g₀ : Graph} (hpredecessors : g₀.computePredecessors = .ok g)
    (hvalid : g.validate = .ok ()) (hspread : g.SpreadsWithin) :
    Guarded.reversePostorder g = .ok g.reversePostorder ∧
      Guarded.dominators g = .ok (Dominators.compute g) ∧
      (∀ limit, ∃ s k, Guarded.fixpoint g (Dominators.compute g) limit = .ok (s, k) ∧
        AbstractState.fixpoint g limit = .ok s ∧
        k ≤ AbstractState.maxRounds g limit) ∧
      (∃ heads k, Guarded.blockHeads g (Dominators.compute g) = .ok (heads, k) ∧
        AvailabilityMap.blockHeads g = .ok heads ∧
        k ≤ AvailabilityMap.maxRounds g) ∧
      Guarded.canCompile g = .ok g.canCompile := by
  have hexist := validate_successorsExist hvalid
  have hlast := validate_lastExist hvalid
  have hne := (validate_ok hvalid).1
  have hlisted := computePredecessors_listed hpredecessors
  have horder := Guarded.reversePostorder_eq hexist hlast hne
  refine ⟨horder, Guarded.dominators_eq hexist hlast hne hlisted, fun limit => ?_, ?_,
    guarded_canCompile_eq hvalid⟩
  · obtain ⟨s, k, hsettle, hguarded, hk, -⟩ := AbstractState.settle_start hpredecessors hvalid limit
    exact ⟨s, k, (AbstractState.guarded_fixpoint_eq hvalid _ limit).trans hguarded, hsettle, hk⟩
  · have hgood := AvailabilityMap.good_initial (g := g) hne
    obtain ⟨heads, k, hsettle, hguarded, hk⟩ := AvailabilityMap.guarded_settle (d :=
      Dominators.compute g) hvalid
      hspread.not_spreadsTooFar (Dominators.compute_tree hexist hne hlisted).2.1
        (reversePostorder_ordered hexist hne).range
      hgood hgood.room_lt_maxRounds 0
    refine ⟨heads, k, ?_, hsettle, hk⟩
    have hwrite : Guarded.write (Array.replicate g.blocks.size none) 0
      (some (AvailabilityMap.atEntry g)) =
        .ok ((Array.replicate g.blocks.size none).setIfInBounds 0
          (some (AvailabilityMap.atEntry g))) :=
      Guarded.write_eq (by simpa using hne)
    rw [Nat.zero_add] at hguarded
    simp only [Guarded.blockHeads, hwrite, horder, bind, Except.bind]
    exact hguarded

/-- Blocks that lead to themselves and are led to by a block that nothing leads to, a use of a value
that another block computes later, and a use of a node that no block lists and that itself uses a
node that is not there. -/
def wandering : Graph where
  name := "wandering"
  nodes := #[
    { op := .getStack { operand := .arg 1, slot := .arg 1, format := .boolean },
      result := .boolean },
    { op := .loadVarargs { start := .loc 1, count := .loc 0, offset := 0, limit := 2,
                           mandatoryMinimum := 0 },
      children := [{ node := ⟨0⟩ }] },
    { op := .branch { taken := ⟨1⟩, notTaken := ⟨2⟩ },
      children := [{ node := ⟨7⟩, useKind := .boolean }] },
    { op := .branch { taken := ⟨1⟩, notTaken := ⟨2⟩ },
      children := [{ node := ⟨5⟩, useKind := .boolean }] },
    { op := .ret, children := [{ node := ⟨5⟩ }] },
    { op := .logicalNot, children := [{ node := ⟨0⟩, useKind := .boolean }], result := .boolean },
    { op := .jump ⟨1⟩ },
    { op := .logicalNot, children := [{ node := ⟨99⟩ }], result := .boolean }]
  blocks := #[{ index := ⟨0⟩, nodes := #[⟨0⟩, ⟨1⟩, ⟨2⟩] },
    { index := ⟨1⟩, nodes := #[⟨3⟩], predecessors := [⟨0⟩, ⟨1⟩, ⟨3⟩] },
    { index := ⟨2⟩, nodes := #[⟨5⟩, ⟨4⟩], predecessors := [⟨0⟩, ⟨1⟩] },
    { index := ⟨3⟩, nodes := #[⟨6⟩] }]
  numArguments := 2
  numLocals := 2

theorem wandering_spreadsWithin : wandering.SpreadsWithin := by
  intro node hnode d first hop hstart
  simp only [wandering, List.mem_toArray, List.mem_cons, List.not_mem_nil, or_false] at hnode
  rcases hnode with rfl | rfl | rfl | rfl | rfl | rfl | rfl | rfl
  case inr.inl =>
    rcases hop with hop | hop
    · cases hop
      cases hstart
      decide
    · cases hop
  all_goals rcases hop with hop | hop <;> cases hop

/-- The graph is well-formed, and all that is known of it is computed. -/
theorem analyses_uninterrupted_wandering : wandering.validate = .ok () ∧ wandering.SpreadsWithin ∧
    Guarded.dominators wandering = .ok (Dominators.compute wandering) ∧
    (∃ s k, Guarded.fixpoint wandering (Dominators.compute wandering) 0 = .ok (s, k)) ∧
    (∃ heads k, Guarded.blockHeads wandering (Dominators.compute wandering) = .ok (heads, k)) ∧
    Guarded.canCompile wandering = .ok wandering.canCompile := by
  have hvalid : wandering.validate = .ok () := by decide +kernel
  have hpredecessors : wandering.computePredecessors = .ok wandering :=
    computePredecessors_eq (by decide +kernel) (by decide +kernel)
  obtain ⟨-, hdominators, hfacts, ⟨heads, k, hheads, -⟩, hcompile⟩ :=
    analyses_uninterrupted hpredecessors hvalid wandering_spreadsWithin
  obtain ⟨s, j, hfacts, -⟩ := hfacts 0
  exact ⟨hvalid, wandering_spreadsWithin, hdominators, ⟨s, j, hfacts⟩, ⟨heads, k, hheads⟩, hcompile⟩

end Graph

end SpecJit
