import SpecJit.Proofs.Graph.Guarded

/-!
# Dominance

What the dominator tree of a well-formed graph says, in terms of the paths from the entry: which
blocks control can come to, which blocks lie on all paths to a block, which of those is the last one
before it, and how the blocks are listed in the order of the tree (`Dominators.Exact`). The tree is
computed without an interrupt and is exact for every graph that is well-formed and knows its
predecessors (`Dominators.compute_exact`).
-/

namespace SpecJit

namespace Graph

variable {g : Graph} {a b u v y : BlockIndex} {path : List BlockIndex}

/-- A path from the entry to a block: the blocks on it, the last one first. -/
inductive Walk (g : Graph) : List BlockIndex → BlockIndex → Prop
  | entry : Walk g [⟨0⟩] ⟨0⟩
  | step {path : List BlockIndex} {u v : BlockIndex} : Walk g path u → v ∈ g.successors u →
    Walk g (v :: path) v

/-- Some path from the entry leads to a block. -/
def Reachable (g : Graph) (b : BlockIndex) : Prop := ∃ path, g.Walk path b

/-- There are paths to both blocks, and all those to `b` go through `a`. -/
def Dominates (g : Graph) (a b : BlockIndex) : Prop :=
  g.Reachable a ∧ g.Reachable b ∧ ∀ path, g.Walk path b → a ∈ path

/-- A dominator other than the block itself. -/
def StrictlyDominates (g : Graph) (a b : BlockIndex) : Prop := g.Dominates a b ∧ a ≠ b

/-- The last one of the dominators of a block other than itself: all others dominate it. -/
def ImmediatelyDominates (g : Graph) (p b : BlockIndex) : Prop :=
  g.StrictlyDominates p b ∧ ∀ a, g.StrictlyDominates a b → g.Dominates a p

/-- The part of a path that leads to a block on it. -/
theorem Walk.prefix_to (h : g.Walk path b) (ha : a ∈ path) :
    ∃ l₁ l₂, path = l₁ ++ l₂ ∧ g.Walk l₂ a := by
  induction h with
  | entry =>
    obtain rfl := List.mem_singleton.1 ha
    exact ⟨[], _, rfl, .entry⟩
  | @step path u v hu hv ih =>
    rcases List.mem_cons.1 ha with rfl | ha
    · exact ⟨[], _, rfl, .step hu hv⟩
    · obtain ⟨l₁, l₂, rfl, hwalk⟩ := ih ha
      exact ⟨v :: l₁, l₂, rfl, hwalk⟩

theorem bypass_iff : g.Bypass y b ↔ ∃ path, g.Walk path b ∧ y ∉ path := by
  constructor
  · intro h
    induction h with
    | entry hne => exact ⟨_, .entry, by simpa using Ne.symm hne⟩
    | step _ hv hne ih =>
      obtain ⟨path, hwalk, hy⟩ := ih
      exact ⟨_, .step hwalk hv, by simpa using ⟨Ne.symm hne, hy⟩⟩
  · rintro ⟨path, hwalk, hy⟩
    induction hwalk with
    | entry => exact .entry (by simpa using Ne.symm (by simpa using hy))
    | step _ hv ih =>
      rw [List.mem_cons, not_or] at hy
      exact .step (ih hy.2) hv (Ne.symm hy.1)

/-- The blocks in the order are those that a path leads to. -/
theorem Ordered.mem_iff {order : List BlockIndex} (h : g.Ordered order) :
    b ∈ order ↔ g.Reachable b := by
  have hentry : (⟨0⟩ : BlockIndex) ∈ order := by
    obtain ⟨rest, hrest⟩ := h.entry
    rw [hrest]
    exact List.mem_cons_self
  constructor
  · intro hb
    -- each block of the order was found from an earlier one
    obtain ⟨i, hi⟩ := List.getElem?_of_mem hb
    induction i using Nat.strongRecOn generalizing b with
    | ind i ih =>
      obtain ⟨hlt, hget⟩ := List.getElem?_eq_some_iff.1 hi
      have hsplit : order = order.take i ++ b :: order.drop (i + 1) := by
        rw [← hget, List.cons_getElem_drop_succ, List.take_append_drop]
      rcases h.earlier _ _ _ hsplit with rfl | ⟨u, hu, hv⟩
      · exact ⟨_, .entry⟩
      · obtain ⟨j, hj⟩ := List.getElem?_of_mem hu
        have hji : j < i := by
          have := (List.getElem?_eq_some_iff.1 hj).1
          rw [List.length_take] at this
          omega
        rw [List.getElem?_take_of_lt hji] at hj
        obtain ⟨path, hwalk⟩ := ih j hji (List.mem_of_getElem? hj) hj
        exact ⟨_, .step hwalk hv⟩
  · rintro ⟨path, hwalk⟩
    induction hwalk with
    | entry => exact hentry
    | step _ hv ih => exact h.closed _ ih _ hv

end Graph

namespace Dominators

/-- What the tree `d` says of the graph `g` is what the paths from the entry say. -/
structure Exact (g : Graph) (d : Dominators) : Prop where
  isReachable : ∀ b, d.isReachable b = true ↔ g.Reachable b
  dominates : ∀ a b, d.dominates a b = true ↔ g.Dominates a b
  strictlyDominates : ∀ a b, d.strictlyDominates a b = true ↔ g.StrictlyDominates a b
  idom : ∀ b p, d.idom? b = some p ↔ g.ImmediatelyDominates p b
  /-- all blocks but the entry have an immediate dominator, if a path leads there -/
  idom_none : ∀ b, d.idom? b = none ↔ b = ⟨0⟩ ∨ ¬ g.Reachable b
  nodup : d.preOrder.Nodup
  mem_preOrder : ∀ b, b ∈ d.preOrder ↔ g.Reachable b
  /-- in the order of the tree a block comes after its dominators -/
  after : ∀ l₁ b l₂, d.preOrder = l₁ ++ b :: l₂ → ∀ a, g.StrictlyDominates a b → a ∈ l₁
  /-- what a block dominates follows it in one piece -/
  contiguous : ∀ b, g.Reachable b → ∃ l₁ below l₂, d.preOrder = l₁ ++ b :: below ++ l₂ ∧
    ∀ c, c ∈ b :: below ↔ g.Dominates b c

variable {g : Graph} {d : Dominators} {order : List BlockIndex} {numbers : Array (Option Nat)}
  {a b c p : BlockIndex} {parents : Array (Option BlockIndex)}

/-! ## Subtrees -/

/-- The way down from a block to one below it begins at a child. -/
theorem Anc.child (h : Anc parents b c) (hne : b ≠ c) :
    ∃ e, parent? parents e = some b ∧ e ≠ ⟨0⟩ ∧ Anc parents e c := by
  induction h with
  | refl _ => exact absurd rfl hne
  | @up c p hp hc hbp ih =>
    by_cases he : b = p
    · exact ⟨c, he ▸ hp, hc, .refl (by rw [hp]; rfl)⟩
    · obtain ⟨e, hparent, he₀, hanc⟩ := ih he
      exact ⟨e, hparent, he₀, .up hp hc hanc⟩

/-- The subtree of a block is one piece of every subtree around it. -/
theorem subtree_split (h : Tree g order numbers d.parents) (hn : g.Numbered order numbers)
    (depth : Nat) (hdepth : g.blocks.size ≤ depth + place numbers b) (hbc : Anc d.parents b c) :
    ∃ k l₁ l₂, g.blocks.size ≤ k + place numbers c ∧ d.subtree depth b = l₁ ++ d.subtree k c ++
      l₂ := by
  induction depth generalizing b with
  | zero =>
    have := hn.place_lt (h.mem hn hbc.isSome_left)
    omega
  | succ depth ih =>
    by_cases hne : b = c
    · subst hne
      exact ⟨depth + 1, [], [], hdepth, by simp⟩
    · obtain ⟨e, hparent, he₀, hanc⟩ := hbc.child hne
      have hplace := (h.above e b he₀ hparent).2.2
      obtain ⟨k, l₁, l₂, hk, hsub⟩ := ih (by omega) hanc
      have hrange : e.index < d.parents.size := by
        rw [h.size]
        exact hn.range e (h.above e b he₀ hparent).1
      have hmem : e ∈ d.children b := by
        refine List.mem_filter.2 ⟨List.mem_map.2 ⟨e.index, List.mem_range.2 hrange, rfl⟩, ?_⟩
        simp [(idom?_eq_some h).2 ⟨he₀, hparent⟩]
      obtain ⟨c₁, c₂, hchildren⟩ := List.append_of_mem hmem
      refine ⟨k, b :: (c₁.flatMap (d.subtree depth) ++ l₁), l₂ ++ c₂.flatMap (d.subtree depth), hk,
        ?_⟩
      rw [subtree, hchildren, List.flatMap_append, List.flatMap_cons, hsub]
      simp

/-- A subtree that is deep enough holds all that is below its root. -/
theorem mem_subtree_iff (h : Tree g order numbers d.parents) (hn : g.Numbered order numbers)
    {depth : Nat} (hb : (parent? d.parents b).isSome = true)
    (hdepth : g.blocks.size ≤ depth + place numbers b) :
    c ∈ d.subtree depth b ↔ Anc d.parents b c := by
  refine ⟨mem_subtree h hb, fun hbc => ?_⟩
  obtain ⟨k, l₁, l₂, hk, hsub⟩ := subtree_split h hn _ hdepth hbc
  have := hn.place_lt (h.mem hn hbc.isSome)
  obtain ⟨k, rfl⟩ : ∃ k', k = k' + 1 := ⟨k - 1, by omega⟩
  rw [hsub, subtree]
  simp

/-! ## Exactness -/

section

variable (hg : g.SuccessorsExist) (hne : 0 < g.blocks.size) (hl : Listed g)
include hg hne hl

theorem isReachable_iff : (compute g).isReachable b = true ↔ g.Reachable b := by
  obtain ⟨htree, hpresent, -⟩ := compute_tree hg hne hl
  have hn := numbered_compute hg hne
  rw [← hn.mem_iff]
  exact ⟨htree.mem hn, hpresent b⟩

theorem dominates_iff_paths : (compute g).dominates a b = true ↔ g.Dominates a b := by
  have hord := (numbered_compute hg hne).toOrdered
  rw [dominates_iff hg hne hl, hord.mem_iff, Graph.bypass_iff]
  constructor
  · rintro ⟨⟨path, hwalk⟩, hnot⟩
    have hall (path : List BlockIndex) (hwalk : g.Walk path b) : a ∈ path := by
      by_contra ha
      exact hnot ⟨path, hwalk, ha⟩
    obtain ⟨-, l, -, hwalk'⟩ := hwalk.prefix_to (hall path hwalk)
    exact ⟨⟨l, hwalk'⟩, ⟨path, hwalk⟩, hall⟩
  · rintro ⟨-, hb, hall⟩
    exact ⟨hb, fun ⟨path, hwalk, ha⟩ => ha (hall path hwalk)⟩

/-- To be above a block in the tree is to dominate it. -/
theorem anc_iff : Anc (compute g).parents a b ↔ g.Dominates a b := by
  obtain ⟨htree, hpresent, hsound⟩ := compute_tree hg hne hl
  have hn := numbered_compute hg hne
  rw [← dominates_iff_paths hg hne hl, dominates_iff hg hne hl]
  constructor
  · exact fun hanc => ⟨htree.mem hn hanc.isSome, htree.not_bypass hsound hanc⟩
  · rintro ⟨hb, hnot⟩
    exact htree.anc_of_not_bypass (hpresent b hb) hnot

theorem idom?_iff : (compute g).idom? b = some p ↔ g.ImmediatelyDominates p b := by
  obtain ⟨htree, hpresent, -⟩ := compute_tree hg hne hl
  have hn := numbered_compute hg hne
  -- a parent dominates, and whatever else does is above it
  have hparent {q : BlockIndex} (hb : b ≠ ⟨0⟩) (hq : parent? (compute g).parents b = some q) :
    g.ImmediatelyDominates q b := by
    obtain ⟨-, hsome, hlt⟩ := htree.above b q hb hq
    have hqb : q ≠ b := by
      rintro rfl
      omega
    refine ⟨⟨(anc_iff hg hne hl).1 (.up hq hb (.refl hsome)), hqb⟩, fun a ha => ?_⟩
    obtain ⟨q', hq', -, hanc⟩ := ((anc_iff hg hne hl).2 ha.1).strict ha.2
    rw [hq] at hq'
    cases hq'
    exact (anc_iff hg hne hl).1 hanc
  rw [idom?_eq_some htree]
  constructor
  · exact fun ⟨hb, hp⟩ => hparent hb hp
  · intro himm
    have hb : b ≠ ⟨0⟩ := by
      rintro rfl
      exact himm.1.2 (List.mem_singleton.1 (himm.1.1.2.2 _ .entry))
    obtain ⟨q, hq⟩ := Option.isSome_iff_exists.1 (hpresent b (hn.mem_iff.2 himm.1.1.2.1))
    have hqimm := hparent hb hq
    have hpq : p = q := htree.antisymm ((anc_iff hg hne hl).2 (hqimm.2 p himm.1))
      ((anc_iff hg hne hl).2 (himm.2 q hqimm.1))
    exact ⟨hb, hpq ▸ hq⟩

theorem idom?_eq_none : (compute g).idom? b = none ↔ b = ⟨0⟩ ∨ ¬ g.Reachable b := by
  obtain ⟨htree, hpresent, -⟩ := compute_tree hg hne hl
  have hn := numbered_compute hg hne
  rw [← hn.mem_iff, Option.eq_none_iff_forall_ne_some]
  constructor
  · intro hnone
    by_contra hcase
    obtain ⟨hb₀, hb⟩ := not_or.1 hcase
    obtain ⟨q, hq⟩ := Option.isSome_iff_exists.1 (hpresent b (not_not.1 hb))
    exact hnone q ((idom?_eq_some htree).2 ⟨hb₀, hq⟩)
  · intro hcase q hq
    obtain ⟨hb₀, hparent⟩ := (idom?_eq_some htree).1 hq
    exact hcase.elim hb₀ fun hnot => hnot (htree.above b q hb₀ hparent).1

theorem mem_preOrder : b ∈ (compute g).preOrder ↔ g.Reachable b := by
  obtain ⟨htree, hpresent, -⟩ := compute_tree hg hne hl
  have hn := numbered_compute hg hne
  rw [preOrder, mem_subtree_iff htree hn (by rw [htree.root]; rfl) (by rw [htree.size]; omega),
    ← hn.mem_iff]
  refine ⟨fun hanc => htree.mem hn hanc.isSome, fun hb => ?_⟩
  exact htree.anc_of_not_bypass (hpresent b hb) fun hbypass => hbypass.ne_entry rfl

theorem preOrder_contiguous (hb : g.Reachable b) :
    ∃ l₁ below l₂, (compute g).preOrder = l₁ ++ b :: below ++ l₂ ∧
    ∀ c, c ∈ b :: below ↔ g.Dominates b c := by
  obtain ⟨htree, hpresent, -⟩ := compute_tree hg hne hl
  have hn := numbered_compute hg hne
  have hsome := hpresent b (hn.mem_iff.2 hb)
  have hanc : Anc (compute g).parents ⟨0⟩ b := htree.anc_of_not_bypass hsome fun hbypass =>
    hbypass.ne_entry rfl
  obtain ⟨k, l₁, l₂, hk, hsub⟩ :=
    subtree_split htree hn (compute g).parents.size (by rw [htree.size]; omega) hanc
  have hmem (c : BlockIndex) : c ∈ (compute g).subtree k b ↔ g.Dominates b c :=
    (mem_subtree_iff htree hn hsome hk).trans (anc_iff hg hne hl)
  have := hn.place_lt (htree.mem hn hsome)
  obtain ⟨k, rfl⟩ : ∃ k', k = k' + 1 := ⟨k - 1, by omega⟩
  rw [subtree] at hsub hmem
  exact ⟨l₁, _, l₂, hsub, hmem⟩

theorem exact_compute : Exact g (compute g) where
  isReachable b := isReachable_iff hg hne hl
  dominates a b := dominates_iff_paths hg hne hl
  strictlyDominates a b := by
    rw [Dominators.strictlyDominates, Bool.and_eq_true, dominates_iff_paths hg hne hl, bne_iff_ne,
      and_comm]
    rfl
  idom b p := idom?_iff hg hne hl
  idom_none b := idom?_eq_none hg hne hl
  nodup := preOrder_nodup hg hne hl
  mem_preOrder b := mem_preOrder hg hne hl
  after l₁ b l₂ hs a ha :=
    (preOrder_before hg hne hl hs).2 a ((dominates_iff_paths hg hne hl).2 ha.1) ha.2
  contiguous b hb := preOrder_contiguous hg hne hl hb

end

/-- The dominator tree of a well-formed graph is computed within the bounds of its tables and loops,
and is exact. So are the answers that it gives. -/
theorem compute_exact {g₀ : Graph} (hpredecessors : g₀.computePredecessors = .ok g)
    (hvalid : g.validate = .ok ()) :
    Guarded.dominators g = .ok (compute g) ∧ Exact g (compute g) ∧
      (∀ a b, Guarded.dominates (compute g) a b = .ok ((compute g).dominates a b)) ∧
      Guarded.preOrder (compute g) = .ok (compute g).preOrder := by
  have hg := Graph.validate_successorsExist hvalid
  have hne := (Graph.validate_ok hvalid).1
  have hl := Graph.computePredecessors_listed hpredecessors
  exact ⟨Guarded.dominators_eq hg (Graph.validate_lastExist hvalid) hne hl, exact_compute hg hne hl,
    guarded_dominates hg hne hl, guarded_preOrder hg hne hl⟩

/-- Two blocks that lead to each other and are both entered from the first one, and a block without
a way to it. -/
def crossing : Graph where
  name := "crossing"
  nodes := #[
    { op := .getStack { operand := .arg 1, slot := .arg 1, format := .jsValue },
      result := .jsValue },
    { op := .branch { taken := ⟨1⟩, notTaken := ⟨2⟩ },
      children := [{ node := ⟨0⟩, useKind := .boolean }] },
    { op := .branch { taken := ⟨2⟩, notTaken := ⟨3⟩ },
      children := [{ node := ⟨0⟩, useKind := .boolean }] },
    { op := .jump ⟨1⟩ },
    { op := .ret, children := [{ node := ⟨0⟩ }] },
    { op := .jump ⟨1⟩ }]
  blocks := #[{ index := ⟨0⟩, nodes := #[⟨0⟩, ⟨1⟩] },
    { index := ⟨1⟩, nodes := #[⟨2⟩], predecessors := [⟨0⟩, ⟨2⟩, ⟨4⟩] },
    { index := ⟨2⟩, nodes := #[⟨3⟩], predecessors := [⟨0⟩, ⟨1⟩] },
    { index := ⟨3⟩, nodes := #[⟨4⟩], predecessors := [⟨1⟩] },
    { index := ⟨4⟩, nodes := #[⟨5⟩] }]
  numArguments := 2
  numLocals := 0

/-- Neither of the two blocks dominates the other, and the last but one is entered from one of them
only. -/
theorem compute_exact_crossing : crossing.validate = .ok () ∧ Exact crossing (compute crossing) ∧
    Guarded.dominators crossing = .ok (compute crossing) ∧ (compute crossing).preOrder = [⟨0⟩, ⟨1⟩,
      ⟨3⟩, ⟨2⟩] ∧
    crossing.ImmediatelyDominates ⟨0⟩ ⟨2⟩ ∧ crossing.ImmediatelyDominates ⟨1⟩ ⟨3⟩ ∧
    ¬ crossing.Reachable ⟨4⟩ := by
  have hvalid : crossing.validate = .ok () := by decide +kernel
  have hpredecessors : crossing.computePredecessors = .ok crossing :=
    Graph.computePredecessors_eq (by decide +kernel) (by decide +kernel)
  obtain ⟨hguarded, hexact, -⟩ := compute_exact hpredecessors hvalid
  refine ⟨hvalid, hexact, hguarded, by decide +kernel, (hexact.idom _ _).1 (by decide +kernel),
    (hexact.idom _ _).1 (by decide +kernel), fun hreachable => ?_⟩
  exact absurd ((hexact.isReachable _).2 hreachable) (by decide +kernel)

end Dominators

end SpecJit
