import SpecJit.Proofs.Lowering.Scoped.Block

/-!
# Lowered code reads only what is defined

The lowering goes through the blocks of the graph in an order in which every block comes after its
dominators. In the end block `b` may rely on the context, on the frame and on what the blocks that
strictly dominate it recorded when their turn came (`Session.scopes`). Control that comes to a block
has been through all of these: what dominates a block dominates its predecessors, and has had its
turn before them.

So the finished function keeps to a scoping (`Session.lower_sound`), and a run of it ends in an
outcome or comes to the step limit (`lowered_run_ends`): no register is read before it is defined,
and every jump hands over as many values as its target has parameters.

Types alone are judged by a scoping in which everything is in scope everywhere (`Scoping.full`). In
it every block brings all that the lowering remembers, and whatever the blocks behind it rely on is
defined when it is left, so that neither the order of the blocks nor what dominates what counts
here. What does count is the results that the nodes declare: where all nodes declare what their
operations record (`Graph.ResultsFit`) the finished function is well typed (`lower_wellTyped`).
Nothing asks for that before a graph is lowered (`boxedElement_mistyped`).
-/

namespace SpecJit

/-- Every node is listed in one block at most. -/
def Graph.ListsOnce (g : Graph) : Prop := ∀ b b' id, g.Lists b id → g.Lists b' id → b = b'

instance (g : Graph) : Decidable g.ListsOnce :=
  decidable_of_iff (∀ i < g.blocks.size, ∀ i' < g.blocks.size,
    ∀ id ∈ ((g.blocks[i]?).map (·.nodes)).getD #[],
    id ∈ ((g.blocks[i']?).map (·.nodes)).getD #[] → i = i') <| by
  refine ⟨fun h b b' id ⟨blk, hblk, hid⟩ ⟨blk', hblk', hid'⟩ => ?_,
    fun h i hi i' hi' id hid hid' => ?_⟩
  · rw [Graph.block?] at hblk hblk'
    exact BlockIndex.eq_of_index (h b.index (Array.getElem?_eq_some_iff.1 hblk).1 b'.index
      (Array.getElem?_eq_some_iff.1 hblk').1
      id (by simpa [hblk] using hid) (by simpa [hblk'] using hid'))
  · simp only [hi, hi', getElem?_pos, Option.map_some, Option.getD_some] at hid hid'
    have :=
      h ⟨i⟩ ⟨i'⟩ id ⟨_, by simp [Graph.block?, hi], hid⟩ ⟨_, by simp [Graph.block?, hi'], hid'⟩
    exact congrArg BlockIndex.index this

namespace Lowering

open Lir

variable {strict : Bool} {g : Graph} {options : LoweringOptions} {layout : ObjectLayout}
  {session : Session} {s s' : State} {u : Unit} {b : BlockIndex} {done rest : List BlockIndex}

/-! ## What the blocks rely on -/

namespace Session

/-- Block `d` records the register when its turn comes. -/
def Records (session : Session) (d : BlockIndex) (r : Reg) : Prop :=
  ∃ done rest s, session.env.dominators.preOrder = done ++ d :: rest ∧
    (done ++ [d]).forM lowerBlock session.env session.state = .ok ((), s) ∧ ∃ v ∈ s.values,
    v.2.2 = d ∧ v.2.1 = r

/-- What is defined at the heads of the blocks of the graph (module doc). -/
def scopes (session : Session) : Scoping := fun i r =>
  ∃ b : BlockIndex, i = b.index + 1 ∧ (r = session.env.context ∨ r = session.env.frame ∨
    ∃ d, session.env.dominators.strictlyDominates d b = true ∧ session.Records d r)

theorem scopes_iff {r : Reg} :
    session.scopes (b.index + 1) r ↔ r = session.env.context ∨ r = session.env.frame ∨
    ∃ d, session.env.dominators.strictlyDominates d b = true ∧ session.Records d r := by
  constructor
  · rintro ⟨b', hb, h⟩
    obtain rfl : b = b' := BlockIndex.eq_of_index (by omega)
    exact h
  · exact fun h => ⟨b, rfl, h⟩

theorem not_scopes_entry {r : Reg} : ¬ session.scopes 0 r := by
  rintro ⟨b, hb, -⟩
  omega

/-- The blocks `done` have their code: it is sound, and the records so far are those of these
blocks. -/
structure Halfway (strict : Bool) (session : Session) (done : List BlockIndex) (s : State) :
    Prop where
  between : ∃ S, Between strict session.env session.scopes S s
  named : ∀ v ∈ s.values, v.2.2 ∈ done ∧ session.Records v.2.2 v.2.1
  kept : ∀ l₁ l₂ s₁, done = l₁ ++ l₂ → l₁.forM lowerBlock session.env session.state = .ok ((), s₁) →
    ∀ v ∈ s₁.values, v ∈ s.values

/-! ## Block by block -/

/-- A graph that can be lowered block by block, with results that fit if types count. -/
structure Admits (strict : Bool) (g : Graph) : Prop where
  nonempty : 0 < g.blocks.size
  checked : ∀ blk ∈ g.blocks, g.Checked blk
  exist : g.SuccessorsExist
  listed : Dominators.Listed g
  once : g.ListsOnce
  fits : strict = true → ∀ b id node, g.Lists b id → g.node id = .ok node → node.Fits

/-- A block has one turn only. -/
theorem turn_unique (hg : Admits strict session.env.graph)
    (hdom : session.env.dominators = Dominators.compute session.env.graph)
    {done' rest' : List BlockIndex} (h : session.env.dominators.preOrder = done ++ b :: rest)
    (h' : session.env.dominators.preOrder = done' ++ b :: rest') : done = done' := by
  have hnodup := Dominators.preOrder_nodup hg.exist hg.nonempty hg.listed
  rw [← hdom, h, List.nodup_append, List.nodup_cons] at hnodup
  obtain ⟨-, ⟨hrest, -⟩, hdone⟩ := hnodup
  rw [h] at h'
  exact ((List.append_cons_inj_of_notMem (fun hb => hdone b hb b (by simp) rfl) hrest).1 h').1

/-- What the lowering remembers when the turn of a block comes is in scope there. -/
theorem Halfway.brings (h : Halfway strict session done s) (hg : Admits strict session.env.graph)
    (hturn : b ∉ done) :
    Brings session.env session.scopes s b where
  context := scopes_iff.2 (.inl rfl)
  frame := scopes_iff.2 (.inr (.inl rfl))
  held v hv hd := by
    obtain ⟨hmem, hrec⟩ := h.named v hv
    have hne : v.2.2 ≠ b := fun he => hturn (he ▸ hmem)
    exact scopes_iff.2 (.inr (.inr ⟨v.2.2, by simp [Dominators.strictlyDominates, hne, hd], hrec⟩))
  phis id r t hr hlists hlists' := .inl (hg.once t b id hlists hlists')

/-- What a block relies on that control may go to is defined at the end of the block before it. -/
theorem Halfway.defined (h : Halfway strict session done s) (hg : Admits strict session.env.graph)
    (hdom : session.env.dominators = Dominators.compute session.env.graph)
    (horder : session.env.dominators.preOrder = done ++ b :: rest)
    (hrun : (done ++ [b]).forM lowerBlock session.env session.state = .ok ((), s'))
    (hkept : ∀ v ∈ s.values, v ∈ s'.values) {S : Scoping} {s₁ : State}
    (hs : Consistent strict session.env S s₁) (hblock : s₁.block = b)
    (hvalues : s₁.values = s'.values) {t : BlockIndex} (ht : t ∈ session.env.graph.successors b)
    {r : Reg} (hr : session.scopes (t.index + 1) r) : s₁.builder.Here S r := by
  rcases scopes_iff.1 hr with rfl | rfl | ⟨d, hd, done', rest', s₂, horder', hrun', v, hv, rfl, rfl⟩
  · exact (hs.fixed (.reg session.env.context .i64) (by simp)).1
  · exact (hs.fixed (.reg session.env.frame .i64) (by simp)).1
  · -- the block that recorded the register dominates this one, too
    simp only [Dominators.strictlyDominates, Bool.and_eq_true, bne_iff_ne, ne_eq] at hd
    obtain ⟨hreach, hbefore⟩ := Dominators.preOrder_before hg.exist hg.nonempty hg.listed
      (hdom ▸ horder)
    have hdb : session.env.dominators.dominates v.2.2 b = true := by
      rw [hdom]
      exact Dominators.dominates_predecessor hg.exist hg.nonempty hg.listed hreach ht (hdom ▸ hd.2)
        hd.1
    refine hs.held v ?_ (by rw [hblock]; exact hdb)
    rw [hvalues]
    by_cases hvb : v.2.2 = b
    · rw [hvb] at horder' hrun'
      rw [← turn_unique hg hdom horder horder', hrun] at hrun'
      cases hrun'
      exact hv
    · obtain ⟨l₁, l₂, hl⟩ := List.append_of_mem (hbefore _ (hdom ▸ hdb) hvb)
      have hturn : session.env.dominators.preOrder = l₁ ++ v.2.2 :: (l₂ ++ b :: rest) := by
        rw [horder, hl]
        simp
      rw [← turn_unique hg hdom hturn horder'] at hrun'
      exact hkept v (h.kept (l₁ ++ [v.2.2]) l₂ s₂ (by rw [hl]; simp) hrun' v hv)

/-- The turn of a block. -/
theorem Halfway.step (h : Halfway strict session done s) (hg : Admits strict session.env.graph)
    (hdom : session.env.dominators = Dominators.compute session.env.graph)
    (horder : session.env.dominators.preOrder = done ++ b :: rest)
    (hdone : done.forM lowerBlock session.env session.state = .ok ((), s))
    (hb : lowerBlock b session.env s = .ok (u, s')) :
    Halfway strict session (done ++ [b]) s' := by
  have hturn : b ∉ done := by
    have hnodup := Dominators.preOrder_nodup hg.exist hg.nonempty hg.listed
    rw [← hdom, horder, List.nodup_append] at hnodup
    exact fun hmem => hnodup.2.2 b hmem b (by simp) rfl
  have hrun : (done ++ [b]).forM lowerBlock session.env session.state = .ok ((), s') := by
    rw [forM_append, bind_of_ok hdone, forM_cons, bind_of_ok hb]
    rfl
  obtain ⟨S, hS⟩ := h.between
  obtain ⟨⟨new, hnew, hname⟩, hbetween⟩ := hS.lowerBlock hg.checked hg.exist (h.brings hg hturn)
    (fun hst id node hlists hnode => hg.fits hst b id node hlists hnode) hb
  have hkept (v) (hv : v ∈ s.values) : v ∈ s'.values := by
    rw [hnew]
    exact List.mem_append_right _ hv
  refine ⟨hbetween fun S₁ s₁ hA hC hvalues t ht r hr => ?_, fun v hv => ?_,
    fun l₁ l₂ s₁ hl hrun₁ v hv => ?_⟩
  · exact h.defined hg hdom horder hrun hkept hC hA.block hvalues ht hr
  · rw [hnew] at hv
    rcases List.mem_append.1 hv with hv | hv
    · exact ⟨by
        simp [hname v hv], done, rest, s', by
          rw [hname v hv]; exact horder, by rw [hname v hv]; exact hrun, v,
        by rw [hnew]; exact List.mem_append_left _ hv, rfl, rfl⟩
    · obtain ⟨hmem, hrec⟩ := h.named v hv
      exact ⟨by simp [hmem], hrec⟩
  · -- the state after `l₁` comes before this turn, or behind it
    rcases List.eq_nil_or_concat' l₂ with rfl | ⟨l₂, b', rfl⟩
    · rw [List.append_nil] at hl
      rw [← hl, hrun] at hrun₁
      cases hrun₁
      exact hv
    · rw [← List.append_assoc] at hl
      exact hkept v (h.kept l₁ l₂ s₁ (List.append_inj_left' hl rfl) hrun₁ v hv)

/-- The turns of the blocks that are left. -/
theorem Halfway.run (h : Halfway strict session done s) (hg : Admits strict session.env.graph)
    (hdom : session.env.dominators = Dominators.compute session.env.graph)
    (horder : session.env.dominators.preOrder = done ++ rest)
    (hdone : done.forM lowerBlock session.env session.state = .ok ((), s))
    (hrest : rest.forM lowerBlock session.env s = .ok ((), s')) :
    Halfway strict session (done ++ rest) s' := by
  induction rest generalizing done s with
  | nil =>
    cases hrest
    simpa using h
  | cons b rest ih =>
    rw [forM_cons] at hrest
    obtain ⟨_, s₁, h₁, hrest⟩ := bind_ok hrest
    have hdone₁ : (done ++ [b]).forM lowerBlock session.env session.state = .ok ((), s₁) := by
      rw [forM_append, bind_of_ok hdone, forM_cons, bind_of_ok h₁]
      rfl
    have := ih (h.step hg hdom horder hdone h₁) (by simpa using horder) hdone₁ hrest
    simpa using this

/-! ## The finished function -/

/-- Nothing dominates the entry but itself. -/
theorem not_strictlyDominates_entry (hg : Admits strict g) (d : BlockIndex) :
    (Dominators.compute g).strictlyDominates d ⟨0⟩ = false := by
  by_cases hd : d = ⟨0⟩
  · simp [Dominators.strictlyDominates, hd]
  · have hnot : ¬ (Dominators.compute g).dominates d ⟨0⟩ = true := by
      rw [Dominators.dominates_iff hg.exist hg.nonempty hg.listed]
      exact fun h => h.2 (.entry (Ne.symm hd))
    simp [Dominators.strictlyDominates, hnot]

/-- The state before the first block has its turn. -/
theorem halfway_start (hg : Admits strict g) (hplain : strict = false → g.phiTypes ⟨0⟩ = [])
    (h : Session.start g options layout = .ok session) :
    Halfway strict session [] session.state := by
  obtain ⟨rfl, hdom, -, ⟨p, hp, hcontext, hframe, hphi⟩, -, hvalues, -⟩ := Session.start_fresh h
  have hentry (r : Reg) (hr : session.scopes 1 r) : r = session.env.context ∨
    r = session.env.frame ∨ session.scopes 0 r := by
    rcases (scopes_iff (b := ⟨0⟩)).1 hr with hr | hr | ⟨d, hd, -⟩
    · exact .inl hr
    · exact .inr (.inl hr)
    · rw [hdom, not_strictlyDominates_entry hg] at hd
      cases hd
  obtain ⟨hsound, hbodies⟩ := prologue_sound hp hg.nonempty hcontext hframe hphi hplain hentry
  refine ⟨⟨_, hsound, hbodies, fun _ v hv => ?_⟩, fun v hv => ?_, fun l₁ l₂ s₁ hl hrun v hv => ?_⟩
  · rw [hvalues] at hv
    cases hv
  · rw [hvalues] at hv
    cases hv
  · obtain ⟨rfl, -⟩ := List.append_eq_nil_iff.1 hl.symm
    cases hrun
    exact hv

/-- The finished function keeps to a scoping, in which nothing is in scope at the entry. -/
theorem lower_sound {f : LoweredFunction} (hg : Admits strict g)
    (hplain : strict = false → g.phiTypes ⟨0⟩ = []) (hf : g.lower options layout = .ok f) :
    ∃ S : Scoping, f.lir.Sound strict S ∧ (∀ r, ¬ S 0 r) ∧
      ∃ entry, f.lir.blocks[0]? = some entry ∧ entry.params = [] := by
  obtain ⟨session, hstart⟩ := start_of_lower hf
  obtain ⟨rfl, hdom, -⟩ := Session.start_fresh hstart
  obtain ⟨s, hall, hlir⟩ := lower_ok hstart hf
  have hdone : ([] : List BlockIndex).forM lowerBlock session.env session.state = .ok ((),
    session.state) := rfl
  obtain ⟨S, hS⟩ := ((halfway_start hg hplain hstart).run hg hdom rfl hdone hall).between
  rw [hlir]
  refine ⟨S, hS.sound.func, fun r hr => ?_, hS.bodies.entry⟩
  rw [hS.bodies.scope 0 (by omega)] at hr
  exact not_scopes_entry hr

end Session

/-- Code that was lowered from a valid graph whose first block has no phis, with every node in one
block at most, runs until it has an outcome or comes to the step limit: no register is read that has
no value, and no jump hands over too few or too many values. -/
theorem lowered_run_ends {σ : Type} {g₀ : Graph} {f : LoweredFunction}
    (hp : g₀.computePredecessors = .ok g) (hv : g.validate = .ok ()) (hentry : g.phis ⟨0⟩ = .ok [])
    (honce : g.ListsOnce) (hf : g.lower options layout = .ok f) (m : Machine σ)
    (hm : m.func = f.lir) (limit : Nat) (memory : Memory) (runtimeState : σ) :
    (∃ o, (m.run limit memory runtimeState).result = .ok o) ∨
      (m.run limit memory runtimeState).result = .error (.error (.stepLimit limit)) := by
  obtain ⟨hne, hchecked⟩ := Graph.validate_ok hv
  have hg : Session.Admits false g :=
    ⟨hne, hchecked, Graph.validate_successorsExist hv, Graph.computePredecessors_listed hp,
    honce, nofun⟩
  obtain ⟨S, hS, hscope, entry, hblock, hparams⟩ :=
    Session.lower_sound hg (fun _ => by rw [Graph.phiTypes_ok hentry]; rfl) hf
  rw [← hm] at hS hblock
  exact hS.scoped.run hblock hparams hscope limit memory runtimeState

/-- A loop that keeps the argument in a phi until the argument is true. -/
def waitingLoop : Graph where
  name := "waitingLoop"
  nodes := #[
    { op := .getStack { operand := .arg 1, slot := .arg 1, format := .jsValue },
      result := .jsValue },
    { op := .upsilon ⟨3⟩, children := [{ node := ⟨0⟩ }] },
    { op := .jump ⟨1⟩ },
    { op := .phi, result := .jsValue },
    { op := .upsilon ⟨3⟩, children := [{ node := ⟨3⟩ }] },
    { op := .branch { taken := ⟨2⟩, notTaken := ⟨1⟩ },
      children := [{ node := ⟨3⟩, useKind := .boolean }] },
    { op := .ret, children := [{ node := ⟨3⟩ }] }]
  blocks := #[{ index := ⟨0⟩, nodes := #[⟨0⟩, ⟨1⟩, ⟨2⟩] },
    { index := ⟨1⟩, nodes := #[⟨3⟩, ⟨4⟩, ⟨5⟩], predecessors := [⟨0⟩, ⟨1⟩] },
    { index := ⟨2⟩, nodes := #[⟨6⟩], predecessors := [⟨1⟩] }]
  numArguments := 2
  numLocals := 0

/-- Whatever the argument is, the loop ends in an outcome or goes on up to the step limit. -/
theorem lowered_run_ends_waitingLoop : ∃ f, waitingLoop.lower {} {} = .ok f ∧
    ∀ (m : Machine Simulation.RuntimeState), m.func = f.lir → ∀ limit memory runtimeState,
      (∃ o, (m.run limit memory runtimeState).result = .ok o) ∨
        (m.run limit memory runtimeState).result = .error (.error (.stepLimit limit)) := by
  have hok : (waitingLoop.lower {} {}).isOk = true := by decide +kernel
  cases hf : waitingLoop.lower {} {} with
  | error e =>
    rw [hf] at hok
    cases hok
  | ok f =>
    have hp : waitingLoop.computePredecessors = .ok waitingLoop :=
      Graph.computePredecessors_eq (by decide +kernel) (by decide +kernel)
    exact ⟨f, rfl, fun m hm => lowered_run_ends hp (by decide +kernel) (by decide +kernel)
      (by decide +kernel) hf m hm⟩

end Lowering

/-! ## Types -/

open Lir

/-- Everything is in scope everywhere. -/
def Lir.Scoping.full : Scoping := fun _ _ => True

/-! ### Results that fit -/

instance (node : Node) : Decidable node.Fits :=
  decidable_of_iff (∀ ty ∈ node.recordedType, ∀ form ∈ node.result.form?, form.ty = ty)
    ⟨fun h ty form hty hform => h ty hty form hform, fun h ty hty form hform => h ty form hty hform⟩

/-- The nodes that blocks list declare results of the types that their operations record. -/
def Graph.ResultsFit (g : Graph) : Prop :=
  ∀ b id node, g.Lists b id → g.node id = .ok node → node.Fits

instance (g : Graph) : Decidable g.ResultsFit :=
  decidable_of_iff (∀ blk ∈ g.blocks.toList, ∀ id ∈ blk.nodes.toList, ∀ node ∈ g.node? id,
    node.Fits) <| by
  refine ⟨fun h b id node ⟨blk, hblk, hid⟩ hnode => ?_, fun h blk hblk id hid node hnode => ?_⟩
  · exact h blk (Array.mem_toList_iff.2 (Array.mem_of_getElem? hblk)) id
      (Array.mem_toList_iff.2 hid) node (Graph.node_eq_ok.1 hnode)
  · obtain ⟨i, hi⟩ := Array.mem_iff_getElem?.1 (Array.mem_toList_iff.1 hblk)
    exact h ⟨i⟩ id node ⟨blk, hi, Array.mem_toList_iff.1 hid⟩ (Graph.node_eq_ok.2 hnode)

namespace Lowering

variable {g : Graph} {options : LoweringOptions} {layout : ObjectLayout} {env : Env} {S : Scoping}
  {s s' : State} {b : BlockIndex} {bs : List BlockIndex} {u : Unit}

/-! ### What a block keeps -/

/-- A block has its code, with everything in scope at its head and behind it. -/
theorem Between.lowerBlock_full (hchecked : ∀ blk ∈ env.graph.blocks, env.graph.Checked blk)
    (hexist : env.graph.SuccessorsExist) (hfits : env.graph.ResultsFit)
    (h : Between true env .full S s) (hrun : Lowering.lowerBlock b env s = .ok (u, s')) :
    (∀ v ∈ s.values, v ∈ s'.values) ∧ ∃ S', Between true env .full S' s' := by
  have hbrings : Brings env .full s b :=
    ⟨trivial, trivial, fun _ _ _ => trivial, fun _ _ _ _ _ _ => .inr trivial⟩
  obtain ⟨⟨new, hnew, -⟩, hbetween⟩ :=
    h.lowerBlock hchecked hexist hbrings (fun _ id node => hfits b id node) hrun
  refine ⟨fun v hv => hnew ▸ List.mem_append_right _ hv,
    hbetween fun S₁ s₁ hA hC _ t ht r _ => hA.here r ?_⟩
  -- the block is one of the graph, since control goes on from it
  have hb : b.index < env.graph.blocks.size := Nat.lt_of_not_le fun hle => by
    rw [Graph.successors_eq_nil (Nat.not_lt.2 hle)] at ht
    cases ht
  obtain ⟨blk, hblk, -⟩ := h.bodies.block b hb
  refine Builder.here_goTo (Array.getElem?_eq_some_iff.1 hblk).1 ?_
  rw [h.bodies.scope _ (by simp only []; omega)]
  trivial

/-- Blocks have their code one after the other, and no record is lost. -/
theorem Between.lowerBlocks_full (hchecked : ∀ blk ∈ env.graph.blocks, env.graph.Checked blk)
    (hexist : env.graph.SuccessorsExist) (hfits : env.graph.ResultsFit)
    (h : Between true env .full S s) (hrun : bs.forM Lowering.lowerBlock env s = .ok ((), s')) :
    (∀ v ∈ s.values, v ∈ s'.values) ∧ ∃ S', Between true env .full S' s' := by
  induction bs generalizing S s with
  | nil =>
    cases hrun
    exact ⟨fun _ h => h, S, h⟩
  | cons b bs ih =>
    rw [forM_cons] at hrun
    obtain ⟨_, s₁, h₁, hrun⟩ := bind_ok hrun
    obtain ⟨hkept, S₁, hS₁⟩ := h.lowerBlock_full hchecked hexist hfits h₁
    obtain ⟨hkept', hS'⟩ := ih hS₁ hrun
    exact ⟨fun v hv => hkept' v (hkept v hv), hS'⟩

/-! ### All of the function -/

/-- After some of the blocks have had their turn, the register is recorded for the node in this
form. -/
def Recorded (g : Graph) (options : LoweringOptions) (layout : ObjectLayout) (id : NodeId)
    (form : Form) (r : Reg) : Prop :=
  ∃ session done rest s b, Session.start g options layout = .ok session ∧
    session.env.dominators.preOrder = done ++ rest ∧
    done.forM lowerBlock session.env session.state = .ok ((), s) ∧ ((id, form), r, b) ∈ s.values

/-- Code that was lowered from a graph that can be compiled is well typed if the nodes declare what
their operations record, and every register that was recorded for a node has the type of its form.
-/
theorem lower_wellTyped {f : LoweredFunction} (hc : g.canCompile = .ok ()) (hfits : g.ResultsFit)
    (hf : g.lower options layout = .ok f) :
    f.lir.WellTyped ∧ ∀ id form r, Recorded g options layout id form r →
      f.lir.HasType r form.ty := by
  have hvalid : g.validate = .ok () := by
    cases hv : g.validate with
    | ok u => rfl
    | error e =>
      rw [Graph.canCompile, hv] at hc
      cases hc
  obtain ⟨hne, hchecked⟩ := Graph.validate_ok hvalid
  have hexist := Graph.validate_successorsExist hvalid
  obtain ⟨session, hstart⟩ := start_of_lower hf
  obtain ⟨sF, hall, hlir⟩ := lower_ok hstart hf
  obtain ⟨rfl, -, -, ⟨p, hp, hcontext, hframe, hphi⟩, -, hvalues, -⟩ := Session.start_fresh hstart
  have hbegin : Between true session.env .full .full session.state := by
    have hfull (r : Reg) (_ : Scoping.full 1 r) : r = session.env.context ∨ r = session.env.frame ∨
      Scoping.full 0 r :=
      .inr (.inr trivial)
    have hplain : true = false → session.env.graph.phiTypes ⟨0⟩ = [] := nofun
    obtain ⟨hsound, hbodies⟩ := prologue_sound hp hne hcontext hframe hphi hplain hfull
    refine ⟨hsound, hbodies, fun _ v hv => ?_⟩
    rw [hvalues] at hv
    cases hv
  obtain ⟨-, S, hS⟩ := hbegin.lowerBlocks_full hchecked hexist hfits hall
  refine ⟨hlir ▸ hS.sound.func.wellTyped, ?_⟩
  rintro id form r ⟨session', done, rest, s, b, hstart', horder, hdone, hmem⟩
  obtain rfl : session' = session := by
    rw [hstart] at hstart'
    cases hstart'
    rfl
  obtain ⟨-, S₁, hS₁⟩ := hbegin.lowerBlocks_full hchecked hexist hfits hdone
  rw [horder, forM_append, bind_of_ok hdone] at hall
  obtain ⟨hkept, -⟩ := hS₁.lowerBlocks_full hchecked hexist hfits hall
  exact hlir ▸ hS.typed rfl _ (hkept _ hmem)

/-! ### An element that is boxed twice -/

/-- Returns the first element of an array of doubles, which is held as a double. -/
def boxedElement (speculation : ArraySpeculation) : Graph where
  name := "boxedElement"
  nodes := #[
    { op := .getStack { operand := .arg 1, slot := .arg 1, format := .jsValue },
      result := .jsValue },
    { op := .jsConstant (.int32 0), result := .jsValue },
    { op := .getByVal { arrayType := .double, speculation }, result := .double
      children := [{ node := ⟨0⟩, useKind := .cell }, { node := ⟨1⟩, useKind := .int32 }] },
    { op := .valueRep, result := .jsValue, children := [{ node := ⟨2⟩, useKind := .doubleRep }] },
    { op := .ret, children := [{ node := ⟨3⟩ }] }]
  blocks := #[{ index := ⟨0⟩, nodes := #[⟨0⟩, ⟨1⟩, ⟨2⟩, ⟨3⟩, ⟨4⟩] }]
  numArguments := 2
  numLocals := 0

/-- In bounds the element is a double, as it is declared. -/
theorem lower_wellTyped_boxedElement :
    ∃ f, (boxedElement .inBounds).lower {} {} = .ok f ∧ f.lir.WellTyped ∧
    ∀ id form r, Recorded (boxedElement .inBounds) {} {} id form r → f.lir.HasType r form.ty := by
  have hok : ((boxedElement .inBounds).lower {} {}).toOption.any (fun _ => true) = true := by
    decide +kernel
  obtain ⟨f, hf, -⟩ := ok_of_any hok
  exact ⟨f, hf, lower_wellTyped (by decide +kernel) (by decide +kernel) hf⟩

/-- Somewhere the bits of a double are read from a register of another type. -/
def misreads (f : Function) : Bool :=
  f.blocks.toList.any fun blk => blk.insts.toList.any fun d =>
    match d.inst with
    | .bitcastToInt arg => f.types[arg.index]? != some .f64
    | _ => false

theorem not_wellTyped_of_misreads {f : Function} (h : misreads f = true) : ¬ f.WellTyped := by
  intro hf
  obtain ⟨blk, hblk, h⟩ := List.any_eq_true.1 h
  obtain ⟨d, hd, h⟩ := List.any_eq_true.1 h
  obtain ⟨i, hi⟩ := Array.mem_iff_getElem?.1 (Array.mem_toList_iff.1 hblk)
  obtain ⟨k, hk⟩ := Array.mem_iff_getElem?.1 (Array.mem_toList_iff.1 hd)
  have htyped := hf.insts i blk hi k d hk
  split at h
  · rename_i arg hinst
    rw [hinst] at htyped
    have harg : f.types[arg.index]? = some .f64 := htyped.1
    simp [harg] at h
  · cases h

/-- Out of bounds the element is boxed, and recorded as a double all the same. Its bits are then
boxed a second time: 1.5 comes back as another number. -/
theorem boxedElement_mistyped : (boxedElement .saneChain).canCompile = .ok () ∧
    (∃ f, (boxedElement .saneChain).lower {} {} = .ok f ∧ ¬ f.lir.WellTyped ∧
      ∃ r, Recorded (boxedElement .saneChain) {} {} ⟨2⟩ .double r ∧ f.lir.HasType r .i64) ∧
    simulated (boxedElement .saneChain)
      ((((Simulation.FrameValues.memory { arguments := [0x5000] }).write 0x5008 8 0x6000).write
        0x5ff8 4 1).write 0x6000 8
        0x3ff8000000000000) = some (.returned 0x3ffa000000000000) := by
  refine ⟨by decide +kernel, ?_, by decide +kernel⟩
  have hrun : (Session.start (boxedElement .saneChain) {} {}).toOption.any (fun session =>
      (lowerAll session.env session.state).toOption.any fun p => misreads p.2.builder.func &&
        p.2.values.any fun v => v.1 == (⟨2⟩, .double) && p.2.builder.func.types[v.2.1.index]? ==
          some .i64) = true := by
    decide +kernel
  obtain ⟨session, hstart, hrun⟩ := ok_of_any hrun
  obtain ⟨⟨_, s⟩, hall, h⟩ := ok_of_any hrun
  simp only [Bool.and_eq_true, List.any_eq_true, beq_iff_eq] at h
  obtain ⟨hmisreads, ⟨key, r, b⟩, hv, rfl, hty⟩ := h
  refine ⟨Session.finish { session with state := s }, ?_, not_wellTyped_of_misreads hmisreads, r,
    ?_, hty⟩
  · rw [Graph.lower, hstart]
    change (session.step lowerAll >>= fun s => pure s.finish) = _
    rw [Session.step, hall]
    rfl
  · exact ⟨session, _, [], s, b, hstart, (List.append_nil _).symm, hall, hv⟩

end Lowering

end SpecJit
