import SpecJit.Graph.Validate
import SpecJit.Proofs.Graph.Dominators

/-!
# Valid graphs and their paths

A graph that passes `Graph.validate` has a block, every block lists nodes of the table and ends in
its only terminal, and the targets of the terminals exist. After `Graph.computePredecessors` the
predecessors of a block are the blocks that control may come from.

A point of a graph is a place before a node of a block or at the end of one. `Graph.Path trace x`:
control can come from the entry to the point `x` and passes the points of `trace` on the way, of
which the last one stands first. A point is passed when its node is executed.

Whatever point control comes to, it comes there for the first time on some path (`Path.first`). The
uses of a graph are dominated by their definitions if every path to a use has passed the definition
(`Graph.UsesDominated`).
-/

namespace SpecJit.Graph

variable {g g₀ : Graph}

theorem forM_ok {α : Type} {f : α → Except GraphError Unit} {l : List α} (h : l.forM f = .ok ()) :
    ∀ a ∈ l, f a = .ok () := by
  induction l with
  | nil => simp
  | cons a l ih =>
    have hcons : (f a >>= fun _ => l.forM f) = .ok () := h
    cases ha : f a with
    | error e => rw [ha] at hcons; cases hcons
    | ok u =>
      rw [ha] at hcons
      intro x hx
      rcases List.mem_cons.1 hx with rfl | hx
      · exact ha
      · exact ih hcons x hx

theorem checkListed_ok {id : NodeId} (h : g.checkListed id = .ok ()) :
    ∃ node, g.node id = .ok node ∧ node.op.minChildren ≤ node.children.length := by
  unfold checkListed at h
  split at h
  · cases h
  · rename_i node hn
    split at h
    · cases h
    · split at h
      · cases h
      · exact ⟨node, by simp [Graph.node, hn, Fault.ofOption], by omega⟩

/-- What is checked of a block. -/
structure Checked (g : Graph) (b : BasicBlock) : Prop where
  listed : ∀ id ∈ b.nodes, g.checkListed id = .ok ()
  terminal : ∃ last, b.nodes.back? = some last ∧ g.isTerminalNode last = true ∧
    (∀ id ∈ b.nodes.pop, g.isTerminalNode id = false) ∧
    ∀ t ∈ ((g.node? last).map (·.op.successors)).getD [], t.index < g.blocks.size

theorem checkBlock_ok {b : BasicBlock} (h : g.checkBlock b = .ok ()) : g.Checked b := by
  rw [checkBlock] at h
  cases hlast : b.nodes.back? with
  | none => rw [hlast] at h; cases h
  | some last =>
    rw [hlast] at h
    cases hlisted : b.nodes.toList.forM g.checkListed with
    | error e => simp only [hlisted] at h; cases h
    | ok u =>
      simp only [hlisted] at h
      cases hearly : b.nodes.pop.toList.find? g.isTerminalNode with
      | some early => simp only [hearly] at h; cases h
      | none =>
        simp only [hearly] at h
        cases hterm : g.isTerminalNode last with
        | false => simp only [hterm] at h; cases h
        | true =>
          simp only [hterm] at h
          cases htargets : (((g.node? last).map (·.op.successors)).getD []).find?
              (fun t => g.blocks.size ≤ t.index) with
          | some target => simp only [htargets] at h; cases h
          | none =>
            refine ⟨fun id hid => forM_ok hlisted id (by simpa using hid), last, hlast, hterm, ?_,
              ?_⟩
            · intro id hid
              rw [List.find?_eq_none] at hearly
              simpa using hearly id (Array.mem_toList_iff.2 hid)
            · intro t ht
              rw [List.find?_eq_none] at htargets
              simpa using htargets t ht

theorem validate_ok (h : g.validate = .ok ()) :
    0 < g.blocks.size ∧ ∀ b ∈ g.blocks, g.Checked b := by
  rw [validate] at h
  split at h
  · cases h
  · rename_i hne
    refine ⟨by simpa [Array.isEmpty, Nat.pos_iff_ne_zero] using hne, fun b hb => ?_⟩
    exact checkBlock_ok (forM_ok h b (by simpa using hb))

theorem validate_successorsExist (h : g.validate = .ok ()) : g.SuccessorsExist := by
  obtain ⟨-, hblocks⟩ := validate_ok h
  intro u v hv
  rw [successors] at hv
  split at hv
  · rename_i t ht
    obtain ⟨id, hid, ht⟩ := Option.bind_eq_some_iff.1 ht
    rw [terminal?, block?] at hid
    cases hb : g.blocks[u.index]? with
    | none => rw [hb] at hid; cases hid
    | some b =>
      rw [hb] at hid
      obtain ⟨last, hlast, -, -, htargets⟩ := (hblocks b (Array.mem_of_getElem? hb)).terminal
      simp only [hlast, Option.bind_eq_bind, Option.bind_some] at hid
      obtain ⟨n, hn, hid⟩ := Option.bind_eq_some_iff.1 hid
      split at hid
      · cases hid
        rw [ht] at htargets
        exact htargets v hv
      · cases hid
  · cases hv

theorem successors_eq_nil {u : BlockIndex} (h : ¬ u.index < g.blocks.size) :
    g.successors u = [] := by
  have hb : g.block? u = none := by simpa [block?] using h
  simp [successors, terminal?, hb]

theorem computePredecessors_listed (h : g₀.computePredecessors = .ok g) : Dominators.Listed g := by
  rw [computePredecessors] at h
  split at h
  · cases h
    intro b u hb
    have hsucc (p : BlockIndex) :
        successors
          { g₀ with blocks := g₀.blocks.mapIdx fun i b => { b with
            predecessors := g₀.predecessorsOf ⟨i⟩ } } p =
          g₀.successors p := by
      have hterm : terminal?
          { g₀ with blocks := g₀.blocks.mapIdx fun i b => { b with
            predecessors := g₀.predecessorsOf ⟨i⟩ } } p =
            g₀.terminal? p := by
        simp only [terminal?, block?, node?, Array.getElem?_mapIdx]
        cases g₀.blocks[p.index]? <;> rfl
      rw [successors, hterm]
      rfl
    rw [hsucc]
    simp only [Array.size_mapIdx] at hb
    have hin (hu : b ∈ g₀.successors u) : ∃ n < g₀.blocks.size, BlockIndex.mk n = u := by
      refine ⟨u.index, ?_, rfl⟩
      by_contra hout
      rw [successors_eq_nil hout] at hu
      cases hu
    simpa [block?, hb, predecessorsOf, blockIndices] using hin
  · cases h

/-- Computing the predecessors of a graph that has them changes nothing. -/
theorem computePredecessors_eq (h : g.lastNodesExist = true)
    (hb : g.blocks.mapIdx (fun i b => { b with predecessors := g.predecessorsOf ⟨i⟩ }) = g.blocks) :
    g.computePredecessors = .ok g := by
  rw [computePredecessors, if_pos h, hb]

end SpecJit.Graph

namespace SpecJit.Graph

/-- Before the node of the given number in a block, or at the end of the block. -/
structure Point where
  block : BlockIndex
  index : Nat
deriving DecidableEq, Repr

/-- The node that is executed at a point. -/
def idAt? (g : Graph) (x : Point) : Option NodeId := (g.block? x.block).bind (·.nodes[x.index]?)

/-- Control can come to a point and pass the points of the list on the way, the last one first. -/
inductive Path (g : Graph) : List Point → Point → Prop
  | entry : Path g [] ⟨⟨0⟩, 0⟩
  | pass {trace : List Point} {x : Point} {id : NodeId} : Path g trace x → g.idAt? x = some id →
      Path g (x :: trace) ⟨x.block, x.index + 1⟩
  | edge {trace : List Point} {x : Point} {blk : BasicBlock} {succ : BlockIndex} : Path g trace x →
      g.block? x.block = some blk → x.index = blk.nodes.size → succ ∈ g.successors x.block →
      Path g trace ⟨succ, 0⟩

/-- Every path to a use has passed every point that computes the used value. -/
def UsesDominated (g : Graph) : Prop :=
  ∀ trace x id node e y, g.Path trace x → g.idAt? x = some id → g.node id = .ok node →
    e ∈ node.children →
    g.idAt? y = some e.node → y ∈ trace

/-- `P` was true at a point that was passed, and `Q` at every point since. -/
inductive Since (P Q : Point → Prop) : List Point → Prop
  | here {trace : List Point} {x : Point} : P x → Since P Q (x :: trace)
  | later {trace : List Point} {x : Point} : Since P Q trace → Q x → Since P Q (x :: trace)

theorem Since.exists_mem {P Q : Point → Prop} {trace : List Point} (h : Since P Q trace) :
    ∃ x ∈ trace, P x := by
  induction h with
  | here hx => exact ⟨_, List.mem_cons_self, hx⟩
  | later _ _ ih =>
    obtain ⟨x, hx, hP⟩ := ih
    exact ⟨x, List.mem_cons_of_mem _ hx, hP⟩

namespace Path

variable {g : Graph} {trace : List Point} {x y : Point} {b : BlockIndex}

/-- A point that was passed was passed for the first time. -/
theorem first_of_mem (h : g.Path trace y) (hx : x ∈ trace) :
    ∃ trace', g.Path trace' x ∧ x ∉ trace' := by
  induction h with
  | entry => cases hx
  | edge _ _ _ _ ih => exact ih hx
  | @pass trace z _ hz _ ih =>
    by_cases hmem : x ∈ trace
    · exact ih hmem
    · obtain rfl | hx := List.mem_cons.1 hx
      · exact ⟨trace, hz, hmem⟩
      · exact absurd hx hmem

/-- Control comes to a point for the first time on some path. -/
theorem first (h : g.Path trace x) : ∃ trace', g.Path trace' x ∧ x ∉ trace' := by
  by_cases hx : x ∈ trace
  · exact h.first_of_mem hx
  · exact ⟨trace, h, hx⟩

/-- The path up to a point that was passed. -/
theorem before (h : g.Path trace y) (hx : x ∈ trace) :
    ∃ trace', g.Path trace' x ∧ trace' ⊆ trace := by
  induction h with
  | entry => cases hx
  | edge _ _ _ _ ih => exact ih hx
  | @pass trace z _ hz _ ih =>
    obtain rfl | hx := List.mem_cons.1 hx
    · exact ⟨trace, hz, List.subset_cons_self ..⟩
    · obtain ⟨trace', h', hsub⟩ := ih hx
      exact ⟨trace', h', List.subset_cons_of_subset _ hsub⟩

/-- The points before a point of a block were passed. -/
theorem mem_of_lt (h : g.Path trace x) {i : Nat} (hi : i < x.index) :
    (⟨x.block, i⟩ : Point) ∈ trace := by
  induction h with
  | entry => cases hi
  | edge => cases hi
  | @pass trace z _ _ _ ih =>
    obtain hi | rfl := Nat.lt_succ_iff_lt_or_eq.1 hi
    · exact List.mem_cons_of_mem _ (ih hi)
    · exact List.mem_cons_self

theorem exists_block (h : g.Path trace x) (hg : g.validate = .ok ()) :
    ∃ blk, g.block? x.block = some blk := by
  suffices hlt : x.block.index < g.blocks.size from ⟨_, Array.getElem?_eq_getElem hlt⟩
  induction h with
  | entry => exact (validate_ok hg).1
  | pass _ _ ih => exact ih
  | edge _ _ _ hsucc _ => exact validate_successorsExist hg _ _ hsucc

/-- Control passes the first node of the entry before it comes anywhere else. -/
theorem entry_passed (h : g.Path trace x) (hg : g.validate = .ok ()) :
    trace = [] ∧ x = ⟨⟨0⟩, 0⟩ ∨ (⟨⟨0⟩, 0⟩ : Point) ∈ trace := by
  induction h with
  | entry => exact .inl ⟨rfl, rfl⟩
  | pass _ _ ih =>
    obtain ⟨-, rfl⟩ | hmem := ih
    · exact .inr List.mem_cons_self
    · exact .inr (List.mem_cons_of_mem _ hmem)
  | @edge trace x blk succ _ hb hx _ ih =>
    refine .inr (ih.resolve_left ?_)
    rintro ⟨-, rfl⟩
    obtain ⟨last, hlast, -⟩ := ((validate_ok hg).2 blk (Array.mem_of_getElem? hb)).terminal
    have hsize : blk.nodes.size = 0 := hx.symm
    simp [Array.back?_eq_getElem?, hsize] at hlast

end Path

/-! ## A check -/

/-- The points at which a node is executed. -/
def points (g : Graph) : List Point :=
  (List.range g.blocks.size).flatMap fun b =>
    (List.range (((g.block? ⟨b⟩).map (·.nodes.size)).getD 0)).map fun i => ⟨⟨b⟩, i⟩

/-- One point comes before another in its block, or is the first one of the entry. -/
def Point.precedes (x y : Point) : Bool :=
  x.block == y.block && x.index < y.index || x == ⟨⟨0⟩, 0⟩ && y != ⟨⟨0⟩, 0⟩

/-- Every definition comes before its uses in the same block, or is the first node of the entry. -/
def usesPreceded (g : Graph) : Bool :=
  g.points.all fun x => ((g.idAt? x).bind g.node?).all fun node => node.children.all fun e =>
    g.points.all fun y => g.idAt? y != some e.node || y.precedes x

variable {g : Graph} {x : Point} {id : NodeId}

theorem mem_points (h : g.idAt? x = some id) : x ∈ g.points := by
  obtain ⟨blk, hb, hid⟩ := Option.bind_eq_some_iff.1 h
  have hblock := (Array.getElem?_eq_some_iff.1 hb).1
  have hindex := (Array.getElem?_eq_some_iff.1 hid).1
  refine List.mem_flatMap.2 ⟨x.block.index, List.mem_range.2 hblock,
    List.mem_map.2 ⟨x.index, List.mem_range.2 ?_, rfl⟩⟩
  rw [show g.block? ⟨x.block.index⟩ = some blk from hb]
  exact hindex

/-- Uses that come after their definitions in this way are dominated by them. -/
theorem usesDominated_of_preceded (hg : g.validate = .ok ()) (h : g.usesPreceded = true) :
    g.UsesDominated := by
  intro trace x id node e y hpath hid hnode he hy
  have hnode? : g.node? id = some node := by
    unfold Graph.node Fault.ofOption at hnode
    split at hnode
    · cases hnode
      assumption
    · cases hnode
  have hx := List.all_eq_true.1 h x (mem_points hid)
  rw [hid] at hx
  simp only [Option.bind_some, hnode?, Option.all_some, List.all_eq_true] at hx
  have hprecedes := hx e he y (mem_points hy)
  simp only [hy, bne_self_eq_false, Bool.false_or, Point.precedes, Bool.or_eq_true,
    Bool.and_eq_true, beq_iff_eq, decide_eq_true_eq, bne_iff_ne, ne_eq] at hprecedes
  rcases hprecedes with ⟨hblock, hindex⟩ | ⟨rfl, hne⟩
  · have hmem := hpath.mem_of_lt hindex
    rwa [← hblock] at hmem
  · exact (hpath.entry_passed hg).resolve_left fun hentry => hne hentry.2

end SpecJit.Graph
