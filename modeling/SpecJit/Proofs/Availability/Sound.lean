import SpecJit.Proofs.Availability.Rounds

/-!
# Availability is true on every path

Whatever path control takes to a point: if the analysis says there that a variable is to be had from
a node, the last node on the path that set the variable took the value of that node, which was not
executed again since; and if it says that the variable is in a slot of the frame, it was put there
then and not killed since, or it is an argument that was never touched (`availability_sound`).

The states at the heads are below the states at the ends of all predecessors, so an induction along
the path carries where an entry comes from. That the node was not executed again needs another path:
some path comes to the node for the first time, and there the variable was not set from it, because
the definition dominates the use.
-/

namespace SpecJit

namespace Graph

/-- The node at the point sets the variable. -/
def Sets (g : Graph) (x : Point) (v : Operand) (source : Option NodeId) (slot : Option FlushedAt) :
    Prop :=
  ∃ id node, g.idAt? x = some id ∧ g.node id = .ok node ∧ node.Sets v source slot

/-- The node at the point gives up the slot of the variable. -/
def Kills (g : Graph) (x : Point) (v : Operand) : Prop :=
  ∃ id node, g.idAt? x = some id ∧ g.node id = .ok node ∧ node.op = .killStack v

section

variable {g : Graph} {x : Point} {id : NodeId} {node : Node} {v : Operand}

theorem sets_iff (hid : g.idAt? x = some id) (hnode : g.node id = .ok node) {source : Option NodeId}
    {slot : Option FlushedAt} :
    g.Sets x v source slot ↔ node.Sets v source slot := by
  constructor
  · rintro ⟨id', node', hid', hnode', hset⟩
    cases hid.symm.trans hid'
    cases hnode.symm.trans hnode'
    exact hset
  · exact fun hset => ⟨id, node, hid, hnode, hset⟩

theorem kills_iff (hid : g.idAt? x = some id) (hnode : g.node id = .ok node) :
    g.Kills x v ↔ node.op = .killStack v := by
  constructor
  · rintro ⟨id', node', hid', hnode', hkill⟩
    cases hid.symm.trans hid'
    cases hnode.symm.trans hnode'
    exact hkill
  · exact fun hkill => ⟨id, node, hid, hnode, hkill⟩

end

/-- The variable was set from `n` last, and `n` was not executed again since. -/
def HeldBy (g : Graph) (v : Operand) (n : NodeId) : List Point → Prop :=
  Since (fun x => ∃ slot, g.Sets x v (some n) slot) fun x =>
    (∀ source slot, ¬ g.Sets x v source slot) ∧ g.idAt? x ≠ some n

/-- The variable was left in the slot when it was set last, and was not killed since. -/
def LeftIn (g : Graph) (v : Operand) (f : FlushedAt) : List Point → Prop :=
  Since (fun x => ∃ source, g.Sets x v source (some f)) fun x =>
    (∀ source slot, ¬ g.Sets x v source slot) ∧ ¬ g.Kills x v

/-- The variable is an argument that was neither set nor killed, and the slot is its own. -/
def Untouched (g : Graph) (v : Operand) (f : FlushedAt) (trace : List Point) : Prop :=
  (∀ x ∈ trace, (∀ source slot, ¬ g.Sets x v source slot) ∧ ¬ g.Kills x v) ∧
    ∃ k < g.numArguments, v = .arg k ∧ f = ⟨v, .jsValue⟩

end Graph

namespace AvailabilityMap

open SpecJit.Graph

variable {g : Graph} {heads : Array (Option AvailabilityMap)} {m : AvailabilityMap}
  {trace : List Point} {x : Point} {v : Operand} {n : NodeId} {f : FlushedAt}

/-- The state at a point, from the head of its block on. -/
def stateAt (g : Graph) (heads : Array (Option AvailabilityMap)) (x : Point) :
    Except Fault AvailabilityMap := do
  (headOrEmpty g heads x.block).executeAll g ((← g.block x.block).nodes.toList.take x.index)

theorem atEntry_get_arg (g : Graph) (k : Nat) :
    (atEntry g).get (.arg k) = if k < g.numArguments then .inSlot (.arg k) .jsValue none
      else .unavailable := by
  by_cases hk : k < g.numArguments <;>
    simp [atEntry, empty, get, Operands.map, Operands.get?, Operands.replicate, hk]

theorem atEntry_get_loc (g : Graph) (k : Nat) : (atEntry g).get (.loc k) = .unavailable := by
  by_cases hk : k < g.numLocals <;>
    simp [atEntry, empty, get, Operands.map, Operands.get?, Operands.replicate, hk]

theorem atEntry_node (g : Graph) (v : Operand) : ((atEntry g).get v).node = none := by
  cases v with
  | arg k =>
    rw [atEntry_get_arg]
    split <;> rfl
  | loc k => rw [atEntry_get_loc]; rfl

theorem atEntry_flushed (h : ((atEntry g).get v).flushed = some f) :
    ∃ k < g.numArguments, v = .arg k ∧ f = ⟨v, .jsValue⟩ := by
  cases v with
  | arg k =>
    rw [atEntry_get_arg] at h
    split at h
    · rename_i hk
      cases h
      exact ⟨k, hk, rfl, rfl⟩
    · cases h
  | loc k =>
    rw [atEntry_get_loc] at h
    cases h

/-- The heads are true to the entry and to the ends of all predecessors. -/
structure Computed (g : Graph) (heads : Array (Option AvailabilityMap)) :
    Prop extends Good g heads where
  valid : g.validate = .ok ()
  stable : ∀ b ∈ g.reversePostorder, StableAt g heads b

namespace Computed

/-- The blocks on a path have states at their heads. -/
theorem head_of_path (h : Computed g heads) (hpath : g.Path trace x) :
    x.block ∈ g.reversePostorder ∧ ∃ head, heads[x.block.index]? = some (some head) := by
  have hordered := reversePostorder_ordered (validate_successorsExist h.valid)
    (validate_ok h.valid).1
  induction hpath with
  | entry =>
    obtain ⟨rest, hrest⟩ := hordered.entry
    obtain ⟨head, hhead, -⟩ := h.entry
    exact ⟨by simp [hrest], head, hhead⟩
  | pass _ _ ih => exact ih
  | edge _ _ _ hsucc ih =>
    obtain ⟨hmem, head, hhead⟩ := ih
    obtain ⟨_, _, -, -, hsuccs⟩ := h.stable _ hmem head hhead
    obtain ⟨head', hhead', -⟩ := hsuccs _ hsucc
    exact ⟨hordered.closed _ hmem _ hsucc, head', hhead'⟩

end Computed

theorem executeAll_append {m : AvailabilityMap} (l l' : List NodeId) :
    m.executeAll g (l ++ l') = (m.executeAll g l >>= fun m' => m'.executeAll g l') :=
      List.foldlM_append

theorem headOrEmpty_of_some {b : BlockIndex} {head : AvailabilityMap}
    (h : heads[b.index]? = some (some head)) :
    headOrEmpty g heads b = head := by
  simp [headOrEmpty, h]

theorem stateAt_eq {blk : BasicBlock} (hb : g.block? x.block = some blk) :
    stateAt g heads x = (headOrEmpty g heads x.block).executeAll g
      (blk.nodes.toList.take x.index) := by
  simp [stateAt, Graph.block, hb, Fault.ofOption, bind, Except.bind]

/-- The state at the head of a block. -/
theorem stateAt_zero {b : BlockIndex} {blk : BasicBlock} (hb : g.block? b = some blk) :
    stateAt g heads ⟨b, 0⟩ = .ok (headOrEmpty g heads b) := by
  rw [stateAt_eq (x := ⟨b, 0⟩) hb]
  rfl

/-- The state after a node. -/
theorem stateAt_succ {id : NodeId} (hid : g.idAt? x = some id) :
    stateAt g heads ⟨x.block, x.index + 1⟩ = (stateAt g heads x >>= fun m => m.execute g id) := by
  obtain ⟨blk, hb, hid⟩ := Option.bind_eq_some_iff.1 hid
  have htake : blk.nodes.toList.take (x.index + 1) = blk.nodes.toList.take x.index ++ [id] := by
    rw [List.take_add_one, Array.getElem?_toList, hid]
    rfl
  rw [stateAt_eq hb, stateAt_eq (x := ⟨x.block, x.index + 1⟩) hb, htake, executeAll_append]
  simp [executeAll]

/-- The state at the end of a block. -/
theorem stateAt_size {blk : BasicBlock} (hb : g.block? x.block = some blk)
    (hx : x.index = blk.nodes.size) :
    stateAt g heads x = (headOrEmpty g heads x.block).executeAll g blk.nodes.toList := by
  rw [stateAt_eq hb, hx, List.take_of_length_le (by simp)]

namespace Computed

/-- There is a state at every point that control can come to. -/
theorem exists_stateAt (h : Computed g heads) (hpath : g.Path trace x) :
    ∃ m, stateAt g heads x = .ok m := by
  obtain ⟨hmem, head, hhead⟩ := h.head_of_path hpath
  obtain ⟨blk, tail, hblk, htail, -⟩ := h.stable _ hmem head hhead
  have hb := Fault.ofOption_eq_ok.1 hblk
  rw [← List.take_append_drop x.index blk.nodes.toList, executeAll_append] at htail
  obtain ⟨m, hm, -⟩ := bind_eq_ok_iff.1 htail
  exact ⟨m, by rw [stateAt_eq hb, headOrEmpty_of_some hhead, hm]⟩

/-- What is available at the head of a block is available at the end of each predecessor. -/
theorem below_of_edge {m' : AvailabilityMap} {blk : BasicBlock} {succ : BlockIndex}
    (h : Computed g heads) (hpath : g.Path trace x) (hb : g.block? x.block = some blk)
    (hx : x.index = blk.nodes.size) (hsucc : succ ∈ g.successors x.block)
    (hm : stateAt g heads x = .ok m) (hm' : stateAt g heads ⟨succ, 0⟩ = .ok m') : m'.Below m := by
  obtain ⟨hmem, head, hhead⟩ := h.head_of_path hpath
  obtain ⟨blk', tail, hblk, htail, hsuccs⟩ := h.stable _ hmem head hhead
  obtain ⟨head', hhead', hmerge⟩ := hsuccs succ hsucc
  cases hb.symm.trans (Fault.ofOption_eq_ok.1 hblk)
  rw [stateAt_size hb hx, headOrEmpty_of_some hhead, htail] at hm
  obtain ⟨blk'', hb''⟩ := (hpath.edge hb hx hsucc).exists_block h.valid
  rw [stateAt_zero hb'', headOrEmpty_of_some hhead'] at hm'
  cases hm
  cases hm'
  rw [← hmerge]
  exact (merge_below _ m).2

/-- What is available at the entry. -/
theorem below_atEntry (h : Computed g heads) (hm : stateAt g heads ⟨⟨0⟩, 0⟩ = .ok m) :
    m.Below (atEntry g) := by
  obtain ⟨blk, hb⟩ := (Path.entry (g := g)).exists_block h.valid
  obtain ⟨head, hhead, hbelow⟩ := h.entry
  rw [stateAt_zero hb, headOrEmpty_of_some hhead] at hm
  cases hm
  exact hbelow

/-! ## Along a path -/

/-- An entry that names a node comes from the last node that set the variable. `Q` is whatever is
true of the points at which the entry stands. -/
theorem node_since {Q : NodeId → Point → Prop} (h : Computed g heads)
    (hQ : ∀ trace x m, g.Path trace x → stateAt g heads x = .ok m → (m.get v).node = some n → Q n x)
    (hpath : g.Path trace x) (hm : stateAt g heads x = .ok m) (hn : (m.get v).node = some n) :
    Since (fun x => ∃ slot, g.Sets x v (some n) slot)
      (fun x => (∀ source slot, ¬ g.Sets x v source slot) ∧ Q n x) trace := by
  induction hpath generalizing m with
  | entry =>
    have hnone := (h.below_atEntry hm v).node n hn
    rw [atEntry_node] at hnone
    cases hnone
  | edge hpath hb hx hsucc ih =>
    obtain ⟨m₁, hm₁⟩ := h.exists_stateAt hpath
    exact ih hm₁ ((h.below_of_edge hpath hb hx hsucc hm₁ hm v).node n hn)
  | @pass trace x id hpath hid ih =>
    rw [stateAt_succ hid] at hm
    obtain ⟨m₁, hm₁, hexec⟩ := bind_eq_ok_iff.1 hm
    obtain ⟨node, hnode, -⟩ := bind_eq_ok_iff.1 hexec
    obtain ⟨slot, hset⟩ | ⟨hbefore, hnot⟩ := (execute_get hexec hnode v).node_origin hn
    · exact .here ⟨slot, (sets_iff hid hnode).2 hset⟩
    · have hpoint (source : Option NodeId) (slot : Option FlushedAt) : ¬ g.Sets x v source slot :=
        fun hset => hnot source slot ((sets_iff hid hnode).1 hset)
      exact .later (ih hm₁ hbefore) ⟨hpoint, hQ _ _ _ hpath hm₁ hbefore⟩

/-- A node is not available where it is about to be executed. -/
theorem not_available_at_definition (h : Computed g heads) (hdom : g.UsesDominated)
    (hpath : g.Path trace x) (hm : stateAt g heads x = .ok m) (hn : (m.get v).node = some n) :
    g.idAt? x ≠ some n := by
  intro hid
  -- on some path control comes here for the first time
  obtain ⟨trace', hpath', hfirst⟩ := hpath.first
  obtain ⟨y, hy, slot, id, node, hidy, hnode, hset⟩ :=
    (h.node_since (Q := fun _ _ => True) (fun _ _ _ _ _ _ => trivial) hpath' hm hn).exists_mem
  obtain ⟨before, hbefore, hsub⟩ := hpath'.before hy
  have huse : ∃ e ∈ node.children, e.node = n := by
    cases hset with
    | movHint _ he | putStack _ _ he => exact ⟨_, Node.mem_of_child he, rfl⟩
  obtain ⟨e, he, rfl⟩ := huse
  exact hfirst (hsub (hdom before y id node e x hbefore hidy hnode he hid))

/-- A node that is available was handed over last and not executed since. -/
theorem heldBy (h : Computed g heads) (hdom : g.UsesDominated) (hpath : g.Path trace x)
    (hm : stateAt g heads x = .ok m) (hn : (m.get v).node = some n) : g.HeldBy v n trace :=
  h.node_since (Q := fun n x => g.idAt? x ≠ some n)
    (fun _ _ _ hpath hm hn => h.not_available_at_definition hdom hpath hm hn)
    hpath hm hn

/-- An entry that names a slot comes from the last node that set the variable, or from the entry. -/
theorem leftIn (h : Computed g heads) (hpath : g.Path trace x) (hm : stateAt g heads x = .ok m)
    (hf : (m.get v).flushed = some f) : g.LeftIn v f trace ∨ g.Untouched v f trace := by
  induction hpath generalizing m with
  | entry => exact .inr ⟨by simp, atEntry_flushed ((h.below_atEntry hm v).flushed f hf)⟩
  | edge hpath hb hx hsucc ih =>
    obtain ⟨m₁, hm₁⟩ := h.exists_stateAt hpath
    exact ih hm₁ ((h.below_of_edge hpath hb hx hsucc hm₁ hm v).flushed f hf)
  | @pass trace x id hpath hid ih =>
    rw [stateAt_succ hid] at hm
    obtain ⟨m₁, hm₁, hexec⟩ := bind_eq_ok_iff.1 hm
    obtain ⟨node, hnode, -⟩ := bind_eq_ok_iff.1 hexec
    obtain ⟨source, hset⟩ | ⟨hbefore, hkeeps⟩ := (execute_get hexec hnode v).slot_origin hf
    · exact .inl (.here ⟨source, (sets_iff hid hnode).2 hset⟩)
    · have hpoint : (∀ source slot, ¬ g.Sets x v source slot) ∧ ¬ g.Kills x v :=
        ⟨fun source slot hset => hkeeps.1 source slot ((sets_iff hid hnode).1 hset),
          fun hkill => hkeeps.2 ((kills_iff hid hnode).1 hkill)⟩
      obtain hleft | ⟨hnone, harg⟩ := ih hm₁ hbefore
      · exact .inl (.later hleft hpoint)
      · exact .inr ⟨List.forall_mem_cons.2 ⟨hpoint, hnone⟩, harg⟩

end Computed

/-- The rounds come to an end in heads that no further round changes, unless arguments are spread
too far. Then on every path a node that is available for a variable was handed over last and not
executed since, and a slot was written last and not killed since, or is that of an argument that was
never touched. -/
theorem blockHeads_sound (hg : g.validate = .ok ()) (hdom : g.UsesDominated) :
    (∃ heads, blockHeads g = .ok heads ∧ g.reversePostorder.foldlM (flowBlock g)
      (heads, false) = .ok (heads, false) ∧
      ∀ trace x, g.Path trace x → ∃ m, stateAt g heads x = .ok m ∧ ∀ v,
        (∀ n, (m.get v).node = some n → g.HeldBy v n trace) ∧
        ∀ f, (m.get v).flushed = some f → g.LeftIn v f trace ∨ g.Untouched v f trace) ∨
      blockHeads g = .error .overflow ∧ SpreadsTooFar g := by
  obtain ⟨heads, hheads, hround, hgood, hstable⟩ | hfar := blockHeads_cases hg
  · have hcomputed : Computed g heads := { hgood with valid := hg, stable := hstable }
    refine .inl ⟨heads, hheads, hround, fun trace x hpath => ?_⟩
    obtain ⟨m, hm⟩ := hcomputed.exists_stateAt hpath
    exact ⟨m, hm, fun v => ⟨fun n hn => hcomputed.heldBy hdom hpath hm hn,
      fun f hf => hcomputed.leftIn hpath hm hf⟩⟩
  · exact .inr hfar

/-! ## A variable that a loop sets -/

/-- Sets local 0 before a loop and in it, each time from another read of the first argument. -/
def hintedLoop : Graph where
  name := "hintedLoop"
  nodes := #[
    { op := .getStack { operand := .arg 1, slot := .arg 1, format := .jsValue },
      result := .jsValue },
    { op := .movHint (.loc 0), children := [{ node := ⟨0⟩ }] },
    { op := .jump ⟨1⟩ },
    { op := .getStack { operand := .arg 1, slot := .arg 1, format := .jsValue },
      result := .jsValue },
    { op := .movHint (.loc 0), children := [{ node := ⟨3⟩ }] },
    { op := .branch { taken := ⟨2⟩, notTaken := ⟨1⟩ },
      children := [{ node := ⟨0⟩, useKind := .boolean }] },
    { op := .ret, children := [{ node := ⟨0⟩ }] }]
  blocks := #[{ index := ⟨0⟩, nodes := #[⟨0⟩, ⟨1⟩, ⟨2⟩] },
    { index := ⟨1⟩, nodes := #[⟨3⟩, ⟨4⟩, ⟨5⟩], predecessors := [⟨0⟩, ⟨1⟩] },
    { index := ⟨2⟩, nodes := #[⟨6⟩], predecessors := [⟨1⟩] }]
  numArguments := 2
  numLocals := 1

/-- The heads of the loop. -/
def hintedLoopHeads : Array (Option AvailabilityMap) :=
  match blockHeads hintedLoop with
  | .ok heads => heads
  | .error _ => #[]

/-- The state behind the loop. -/
def behindLoop : AvailabilityMap :=
  match stateAt hintedLoop hintedLoopHeads ⟨⟨2⟩, 0⟩ with
  | .ok m => m
  | .error _ => default

theorem hintedLoop_usesDominated : hintedLoop.UsesDominated :=
  usesDominated_of_preceded (by decide) (by decide)

/-- Before anything was executed, an argument is available in its slot. -/
theorem hintedLoop_flushed_at_entry : hintedLoop.validate = .ok () ∧ hintedLoop.UsesDominated ∧
    (blockHeads hintedLoop).toOption = some hintedLoopHeads ∧ hintedLoop.Path [] ⟨⟨0⟩, 0⟩ ∧
    ((stateAt hintedLoop hintedLoopHeads ⟨⟨0⟩, 0⟩).toOption.map fun m => (m.get (.arg 1)).flushed)
    = some (some ⟨.arg 1, .jsValue⟩) ∧
    ¬ hintedLoop.LeftIn (.arg 1) ⟨.arg 1, .jsValue⟩ [] := by
  refine ⟨by
    decide +kernel, hintedLoop_usesDominated, by decide +kernel, .entry, by decide +kernel, ?_⟩
  intro h
  cases h

/-- Twice through the loop. -/
def twiceThrough : List Point :=
  [⟨⟨1⟩, 2⟩, ⟨⟨1⟩, 1⟩, ⟨⟨1⟩, 0⟩, ⟨⟨1⟩, 2⟩, ⟨⟨1⟩, 1⟩, ⟨⟨1⟩, 0⟩, ⟨⟨0⟩, 2⟩, ⟨⟨0⟩, 1⟩, ⟨⟨0⟩, 0⟩]

theorem hintedLoop_path : hintedLoop.Path twiceThrough ⟨⟨2⟩, 0⟩ := by
  have hentry : hintedLoop.Path [⟨⟨0⟩, 2⟩, ⟨⟨0⟩, 1⟩, ⟨⟨0⟩, 0⟩] ⟨⟨0⟩, 3⟩ :=
    .pass (.pass (.pass .entry rfl) rfl) rfl
  have hloop {trace : List Point} (h : hintedLoop.Path trace ⟨⟨1⟩, 0⟩) :
      hintedLoop.Path (⟨⟨1⟩, 2⟩ :: ⟨⟨1⟩, 1⟩ :: ⟨⟨1⟩, 0⟩ :: trace) ⟨⟨1⟩, 3⟩ :=
        .pass (.pass (.pass h rfl) rfl) rfl
  have hfirst : hintedLoop.Path _ ⟨⟨1⟩, 0⟩ := hentry.edge rfl rfl (by decide)
  have hsecond : hintedLoop.Path _ ⟨⟨1⟩, 0⟩ := (hloop hfirst).edge rfl rfl (by decide)
  exact (hloop hsecond).edge rfl rfl (by decide)

/-- Behind the loop the local is to be had from the read in the loop. -/
theorem blockHeads_sound_hintedLoop :
    (behindLoop.get (.loc 0)).node = some ⟨3⟩ ∧ hintedLoop.HeldBy (.loc 0) ⟨3⟩ twiceThrough := by
  have hheads : blockHeads hintedLoop = .ok hintedLoopHeads := by decide +kernel
  have hstate : stateAt hintedLoop hintedLoopHeads ⟨⟨2⟩, 0⟩ = .ok behindLoop := by decide +kernel
  have hnode : (behindLoop.get (.loc 0)).node = some ⟨3⟩ := by decide +kernel
  obtain ⟨heads, hheads', -, hsound⟩ | ⟨herror, -⟩ :=
    blockHeads_sound (g := hintedLoop) (by decide +kernel) hintedLoop_usesDominated
  · obtain rfl : hintedLoopHeads = heads := Except.ok.inj (hheads.symm.trans hheads')
    obtain ⟨m, hm, hentries⟩ := hsound _ _ hintedLoop_path
    obtain rfl : behindLoop = m := Except.ok.inj (hstate.symm.trans hm)
    exact ⟨hnode, (hentries (.loc 0)).1 ⟨3⟩ hnode⟩
  · cases hheads.symm.trans herror

end AvailabilityMap

end SpecJit
