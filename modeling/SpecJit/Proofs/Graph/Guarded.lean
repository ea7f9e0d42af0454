import SpecJit.Proofs.Graph.Valid

/-!
# The dominator tree with every access checked

`Dominators.compute` reads its tables with defaults and bounds its loops by numbers of steps. Here
the same computations stop with an `Interrupt` where a table has no such entry, and where a loop
would have to go on when its steps are used up. On a well-formed graph they are not interrupted and
yield what the plain ones yield (`Guarded.reversePostorder_eq`, `Guarded.dominators_eq`): no default
is ever used, and the loops end by themselves.

The rounds of `Dominators.settle` end because the parents that round `r` computes lie on all paths
that go back at most `r` times, and no path needs to go back more often than there are blocks
(`Dominators.Round.refine_unchanged`).
-/

namespace SpecJit

/-- Why a checked computation stops early. -/
inductive Interrupt where
  | fault (f : Fault)
  /-- a loop has not come to its end -/
  | outOfSteps
deriving DecidableEq, Repr

namespace Guarded

/-- A step that can fail on ill-formed data. -/
def lift {α : Type} (x : Except Fault α) : Except Interrupt α := x.mapError .fault

/-- The entry of a table under an index. -/
def read {α : Type} (table : Array α) (i : Nat) : Except Interrupt α :=
  lift (Fault.ofOption table[i]?)

/-- Replaces the entry of a table under an index. -/
def write {α : Type} (table : Array α) (i : Nat) (x : α) : Except Interrupt (Array α) :=
  if i < table.size then .ok (table.setIfInBounds i x) else .error (.fault .outOfRange)

/-! ## The order of the blocks -/

/-- The blocks that the terminal of a block names. -/
def successors (g : Graph) (b : BlockIndex) : Except Interrupt (List BlockIndex) := do
  match (← read g.blocks b.index).nodes.back? with
  | none => return []
  | some last =>
    let node ← read g.nodes last.index
    return if node.op.isTerminal then node.op.successors else []

/-- Visits `b` unless it was seen, then what follows it, and then finishes it. -/
def visit (g : Graph) : Nat → Graph.Search → BlockIndex → Except Interrupt Graph.Search
  | 0, s, b => if s.seen[b.index]? == some false then .error .outOfSteps else .ok s
  | depth + 1, s, b =>
    if s.seen[b.index]? == some false then do
      let s ← (← successors g b).foldlM (visit g depth) (s.mark b)
      return { s with finished := b :: s.finished }
    else .ok s

/-- The blocks reachable from the entry, each before those that can follow it, loops apart. -/
def reversePostorder (g : Graph) : Except Interrupt (List BlockIndex) := do
  return (← visit g g.blocks.size { seen := Array.replicate g.blocks.size false } ⟨0⟩).finished

/-! ## The tree -/

/-- The place of a block, with the unreachable blocks after all others. -/
def place (numbers : Array (Option Nat)) (b : BlockIndex) : Except Interrupt Nat := do
  return (← read numbers b.index).getD numbers.size

/-- The lowest common ancestor of two blocks. At two blocks of the same place the search would not
go on. -/
def meet (parents : Array (Option BlockIndex)) (numbers : Array (Option Nat)) :
    Nat → BlockIndex → BlockIndex → Except Interrupt BlockIndex
  | 0, a, b => if a = b then .ok a else .error .outOfSteps
  | steps + 1, a, b =>
    if a = b then .ok a
    else do
      let i ← place numbers a
      let j ← place numbers b
      if j < i then meet parents numbers steps ((← read parents a.index).getD a) b
      else if i < j then meet parents numbers steps a ((← read parents b.index).getD b)
      else .error .outOfSteps

/-- The meet of what was found so far with a predecessor that has a parent. -/
def meetPredecessor (parents : Array (Option BlockIndex)) (numbers : Array (Option Nat))
    (found : Option BlockIndex) (p : BlockIndex) : Except Interrupt (Option BlockIndex) := do
  match ← read parents p.index with
  | none => return found
  | some _ =>
    match found with
    | none => return some p
    | some current => return some (← meet parents numbers (2 * parents.size) p current)

/-- Computes the parent of one block anew, and tells whether it changed. -/
def refine (g : Graph) (numbers : Array (Option Nat)) (s : Array (Option BlockIndex) × Bool)
    (b : BlockIndex) :
    Except Interrupt (Array (Option BlockIndex) × Bool) := do
  match ← (← read g.blocks b.index).predecessors.foldlM (meetPredecessor s.1 numbers) none with
  | none => return s
  | some parent =>
    if (← read s.1 b.index) = some parent then return s
    else return (← write s.1 b.index (some parent), true)

/-- Goes over the blocks until nothing changes. -/
def settle (g : Graph) (numbers : Array (Option Nat)) (order : List BlockIndex) :
    Nat → Array (Option BlockIndex) → Except Interrupt (Array (Option BlockIndex))
  | 0, _ => .error .outOfSteps
  | rounds + 1, parents => do
    let (parents, changed) ← order.foldlM (refine g numbers) (parents, false)
    if changed then settle g numbers order rounds parents else return parents

/-- Finds where the blocks with the given parent are listed, in a table with an entry for every
block. -/
def listUnder (parents : Array (Option BlockIndex)) : Option BlockIndex → Except Interrupt Unit
  | some p => discard (read parents p.index)
  | none => .ok ()

/-- The dominator tree of a graph, with each block listed under its parent. -/
def dominators (g : Graph) : Except Interrupt Dominators := do
  let n := g.blocks.size
  let order ← reversePostorder g
  let numbers ← order.zipIdx.foldlM (fun a e => write a e.1.index (some e.2))
    (Array.replicate n none)
  let initial ← write (Array.replicate n none) 0 (some ⟨0⟩)
  let parents ← settle g numbers order.tail (n * n + 1) initial
  parents.toList.forM (listUnder parents)
  return { parents, numbers }

/-! ## Queries -/

/-- `a` is `b` or an ancestor of it. -/
def isAncestor (d : Dominators) : Nat → BlockIndex → BlockIndex → Except Interrupt Bool
  | 0, _, _ => .error .outOfSteps
  | steps + 1, a, b =>
    if a = b then .ok true
    else
      match d.idom? b with
      | some parent => isAncestor d steps a parent
      | none => .ok false

def dominates (d : Dominators) (a b : BlockIndex) : Except Interrupt Bool :=
  if d.isReachable a && d.isReachable b then isAncestor d d.parents.size a b else .ok false

/-- `b` and the blocks below it. -/
def subtree (d : Dominators) : Nat → BlockIndex → Except Interrupt (List BlockIndex)
  | 0, _ => .error .outOfSteps
  | depth + 1, b => do return b :: (← (d.children b).mapM (subtree d depth)).flatten

def preOrder (d : Dominators) : Except Interrupt (List BlockIndex) := subtree d d.parents.size ⟨0⟩

/-! ## Reading and writing -/

variable {α : Type} {t : Array α} {i : Nat} {x : α}

theorem lift_eq {y : Except Fault α} (h : y = .ok x) : lift y = .ok x := by
  rw [h]
  rfl

theorem read_eq (h : t[i]? = some x) : read t i = .ok x := lift_eq (by rw [h]; rfl)

theorem read_ok (h : i < t.size) : ∃ x, t[i]? = some x ∧ read t i = .ok x :=
  ⟨t[i], Array.getElem?_eq_getElem h, read_eq (Array.getElem?_eq_getElem h)⟩

theorem write_eq (h : i < t.size) : write t i x = .ok (t.setIfInBounds i x) := if_pos h

/-- Steps that are not interrupted where an invariant holds, and keep it. The invariant may speak of
what is left. -/
theorem foldlM_eq {β ε : Type} {f : β → α → Except ε β} {f' : β → α → β} (P : List α → β → Prop)
    (hstep : ∀ a l s, P (a :: l) s → f s a = .ok (f' s a) ∧ P l (f' s a)) {l : List α} {s : β}
    (h : P l s) :
    l.foldlM f s = .ok (l.foldl f' s) := by
  induction l generalizing s with
  | nil => rfl
  | cons a l ih =>
    obtain ⟨hok, hnext⟩ := hstep a l s h
    rw [List.foldlM_cons, hok, List.foldl_cons]
    exact ih hnext

theorem forM_eq {ε : Type} {f : α → Except ε Unit} {l : List α} (h : ∀ a ∈ l, f a = .ok ()) :
    l.forM f = .ok () := by
  induction l with
  | nil => rfl
  | cons a l ih =>
    have hcons : (a :: l).forM f = f a >>= fun _ => l.forM f := rfl
    rw [hcons, h a (by simp)]
    exact ih fun b hb => h b (by simp [hb])

theorem mapM_eq {β ε : Type} {f : α → Except ε β} {f' : α → β} {l : List α}
    (h : ∀ a ∈ l, f a = .ok (f' a)) :
    l.mapM f = .ok (l.map f') := by
  induction l with
  | nil => rfl
  | cons a l ih =>
    rw [List.mapM_cons, h a (by simp), ih fun b hb => h b (by simp [hb])]
    rfl

end Guarded

open Guarded

namespace Graph

variable {g : Graph} {b : BlockIndex}

/-- The last node of every block is in the table. -/
def LastExist (g : Graph) : Prop :=
  ∀ b ∈ g.blocks, ∀ last, b.nodes.back? = some last → last.index < g.nodes.size

theorem validate_lastExist (h : g.validate = .ok ()) : g.LastExist := by
  intro b hb last hlast
  obtain ⟨last', hlast', hterm, -⟩ := ((validate_ok h).2 b hb).terminal
  obtain rfl : last = last' := Option.some.inj (hlast.symm.trans hlast')
  rw [isTerminalNode, Option.any_eq_true] at hterm
  obtain ⟨n, hn, -⟩ := hterm
  exact (Array.getElem?_eq_some_iff.1 hn).1

end Graph

namespace Guarded

variable {g : Graph} {a b u : BlockIndex} {order : List BlockIndex} {numbers : Array (Option Nat)}
  {parents : Array (Option BlockIndex)} {r : Nat}

/-! ## The order -/

theorem successors_eq (hlast : g.LastExist) (hb : b.index < g.blocks.size) :
    successors g b = .ok (g.successors b) := by
  obtain ⟨blk, hblk, hread⟩ := read_ok hb
  have hblock : g.block? b = some blk := hblk
  rw [successors, hread]
  change (match blk.nodes.back? with | none => _ | some last => _) = _
  cases hback : blk.nodes.back? with
  | none =>
    have hnone : g.successors b = [] := by simp [Graph.successors, Graph.terminal?, hblock, hback]
    rw [hnone]
    rfl
  | some last =>
    obtain ⟨node, hnode, hreadNode⟩ := read_ok (hlast blk (Array.mem_of_getElem? hblk) last hback)
    have hnode? : g.node? last = some node := hnode
    have hsucc : g.successors b = if node.op.isTerminal then node.op.successors else [] := by
      by_cases hterm : node.op.isTerminal <;> simp [Graph.successors, Graph.terminal?, hblock,
        hback, hnode?, hterm]
    simp only [hreadNode, hsucc]
    rfl

/-- A search that is given as much depth as there are unseen blocks is not interrupted. -/
theorem visit_eq (hg : g.SuccessorsExist) (hlast : g.LastExist) (depth : Nat) (s : Graph.Search)
    (b : BlockIndex) (hsize : s.seen.size = g.blocks.size) (hs : s.unseen ≤ depth)
    (hb : b.index < g.blocks.size) :
    visit g depth s b = .ok (g.visit depth s b) := by
  induction depth generalizing s b with
  | zero =>
    have hseen : s.Seen b :=
      Graph.Search.unseen_eq_zero (Nat.le_zero.1 hs) (by rw [hsize]; exact hb)
    have hnot : ¬ (s.seen[b.index]? == some false) = true := by
      rw [show s.seen[b.index]? = some true from hseen]
      decide
    rw [visit, if_neg hnot]
    rfl
  | succ depth ih =>
    rw [visit, Graph.visit]
    by_cases hnot : (s.seen[b.index]? == some false) = true
    · rw [if_pos hnot, if_pos hnot]
      have hmark := Graph.Search.mark_unseen (s := s) (b := b) (by simpa using hnot)
      -- each successor finds as many blocks unseen as there is depth left
      have hfold : (g.successors b).foldlM (visit g depth) (s.mark b) =
          .ok ((g.successors b).foldl (g.visit depth) (s.mark b)) := by
        refine foldlM_eq (fun l s => (∀ v ∈ l, v.index < g.blocks.size) ∧
          s.seen.size = g.blocks.size ∧ s.unseen ≤ depth)
          (fun v l s h => ?_) ⟨fun v hv => hg b v hv,
            by simpa [Graph.Search.mark] using hsize, by omega⟩
        obtain ⟨hrange, hsize, hs⟩ := h
        have hv := hrange v (by simp)
        obtain ⟨hext, -⟩ := Graph.visit_extends hg depth s v hsize hs hv
        exact ⟨ih s v hsize hs hv, fun w hw => hrange w (by simp [hw]), hext.size.trans hsize,
          Nat.le_trans hext.unseen_le hs⟩
      simp only [successors_eq hlast hb, bind, Except.bind, hfold]
      rfl
    · rw [if_neg hnot, if_neg hnot]

theorem reversePostorder_eq (hg : g.SuccessorsExist) (hlast : g.LastExist) (hne : 0 < g.blocks.size)
    :
    reversePostorder g = .ok g.reversePostorder := by
  have hunseen : Graph.Search.unseen { seen := Array.replicate g.blocks.size false }
    ≤ g.blocks.size := by
    simp [Graph.Search.unseen]
  rw [reversePostorder, visit_eq hg hlast g.blocks.size _ ⟨0⟩ (by simp) hunseen hne]
  rfl

/-! ## The parents -/

theorem place_eq (hb : b.index < numbers.size) :
    place numbers b = .ok (Dominators.place numbers b) := by
  obtain ⟨number, hnumber, hread⟩ := read_ok hb
  rw [place, hread, Dominators.place, hnumber]
  rfl

end Guarded

namespace Dominators

variable {g : Graph} {a b u : BlockIndex} {order : List BlockIndex} {numbers : Array (Option Nat)}
  {parents : Array (Option BlockIndex)} {r : Nat}

theorem read_parents {p : BlockIndex} (h : parent? parents b = some p) :
    read parents b.index = .ok (some p) :=
  read_eq (Option.join_eq_some_iff.1 h)

/-- Both blocks go up, the lower one first, until they meet. -/
theorem Tree.guarded_meet (h : Tree g order numbers parents) (hn : g.Numbered order numbers)
    (hsize : numbers.size = g.blocks.size) (steps : Nat) (ha : (parent? parents a).isSome = true)
    (hb : (parent? parents b).isSome = true) (hsteps : place numbers a + place numbers b < steps) :
    Guarded.meet parents numbers steps a b = .ok (meet parents numbers steps a b) := by
  induction steps generalizing a b with
  | zero => omega
  | succ steps ih =>
    rw [Guarded.meet, meet]
    by_cases hab : a = b
    · rw [if_pos hab, if_pos hab]
    rw [if_neg hab, if_neg hab]
    have hplace {c : BlockIndex} (hc : (parent? parents c).isSome = true) :
        Guarded.place numbers c = .ok (place numbers c) :=
      place_eq (by rw [hsize]; exact hn.range c (h.mem hn hc))
    simp only [hplace ha, hplace hb, bind, Except.bind]
    -- the one that is lower is not the entry
    have hup {c e : BlockIndex} (hc : (parent? parents c).isSome = true)
      (hlt : place numbers e < place numbers c) :
        ∃ p, parent? parents c = some p ∧ (parent? parents p).isSome = true ∧
        place numbers p < place numbers c := by
      have hc₀ : c ≠ ⟨0⟩ := by
        rintro rfl
        rw [hn.place_entry] at hlt
        omega
      obtain ⟨p, hp⟩ := Option.isSome_iff_exists.1 hc
      obtain ⟨-, hsome, hplt⟩ := h.above c p hc₀ hp
      exact ⟨p, hp, hsome, hplt⟩
    have hparentOf {c p : BlockIndex} (hp : parent? parents c = some p) : parentOf parents
      c = p := by
      rw [parentOf, ← parent?, hp]
      rfl
    by_cases hlt : place numbers b < place numbers a
    · obtain ⟨p, hp, hsome, hplt⟩ := hup ha hlt
      rw [if_pos hlt, if_pos hlt, read_parents hp, hparentOf hp]
      exact ih (a := p) hsome hb (by omega)
    · have hne : place numbers a ≠ place numbers b :=
        fun he => hab (hn.place_injective (h.mem hn ha) (h.mem hn hb) he)
      have hgt : place numbers a < place numbers b := by omega
      obtain ⟨p, hp, hsome, hplt⟩ := hup hb hgt
      rw [if_neg hlt, if_neg hlt, if_pos hgt, read_parents hp, hparentOf hp]
      exact ih (b := p) ha hsome (by omega)

/-- What is found from the predecessors is above some of them, if it is anything. -/
theorem Tree.guarded_predecessors (h : Tree g order numbers parents) (hn : g.Numbered order numbers)
    (hsize : numbers.size = g.blocks.size) {predecessors : List BlockIndex}
    (hrange : ∀ p ∈ predecessors, p.index < g.blocks.size) :
    predecessors.foldlM (Guarded.meetPredecessor parents numbers) none =
      .ok (parentFromPredecessors parents numbers predecessors) := by
  rw [parentFromPredecessors, List.foldl_filter]
  refine foldlM_eq (fun l found => (∀ p ∈ l, p.index < g.blocks.size) ∧
    ∀ c, found = some c → (parent? parents c).isSome = true) (fun p l found hP => ?_) ⟨hrange,
    fun c hc => by cases hc⟩
  obtain ⟨hl, hfound⟩ := hP
  have hl' : ∀ q ∈ l, q.index < g.blocks.size := fun q hq => hl q (by simp [hq])
  obtain ⟨entry, hentry, hread⟩ :=
    read_ok (t := parents) (i := p.index) (by rw [h.size]; exact hl p (by simp))
  simp only [Guarded.meetPredecessor, hread, bind, Except.bind]
  cases entry with
  | none =>
    rw [if_neg (by simp [hentry])]
    exact ⟨rfl, hl', hfound⟩
  | some q =>
    have hp : (parent? parents p).isSome = true := by simp [parent?, hentry]
    rw [if_pos (by simp [hentry])]
    cases found with
    | none => exact ⟨rfl, hl', fun c hc => Option.some.inj hc ▸ hp⟩
    | some current =>
      have hcurrent := hfound current rfl
      have hsteps : place numbers p + place numbers current < 2 * parents.size := by
        have := hn.place_lt (h.mem hn hp)
        have := hn.place_lt (h.mem hn hcurrent)
        have := h.size
        omega
      refine ⟨?_, hl', fun c hc => ?_⟩
      · simp only [h.guarded_meet hn hsize _ hp hcurrent hsteps]
        rfl
      · exact Option.some.inj hc ▸ (h.meet_spec hn _ hp hcurrent hsteps).1.isSome_left

theorem Tree.guarded_refine (h : Tree g order numbers parents) (hn : g.Numbered order numbers)
    (hl : Listed g) (hsize : numbers.size = g.blocks.size) (hb : b.index < g.blocks.size)
    (changed : Bool) :
    Guarded.refine g numbers (parents, changed) b = .ok (refine g numbers (parents, changed)
      b) := by
  obtain ⟨blk, hblk, hread⟩ := read_ok hb
  obtain ⟨entry, hentry, hreadEntry⟩ :=
    read_ok (t := parents) (i := b.index) (by rw [h.size]; exact hb)
  have hpredecessors : ((g.block? b).map (·.predecessors)).getD [] = blk.predecessors := by
    rw [show g.block? b = some blk from hblk]
    rfl
  have hrange : ∀ p ∈ blk.predecessors, p.index < g.blocks.size := by
    intro p hp
    by_contra hout
    have hmem := (hl b p hb).1 (hpredecessors ▸ hp)
    rw [Graph.successors_eq_nil hout] at hmem
    cases hmem
  rw [Guarded.refine, refine, hread, hpredecessors]
  simp only [bind, Except.bind, h.guarded_predecessors hn hsize hrange]
  cases hparent : parentFromPredecessors parents numbers blk.predecessors with
  | none => rfl
  | some parent =>
    simp only [hreadEntry, hentry, Option.join_some]
    split
    · rfl
    · simp only [write_eq (t := parents) (i := b.index) (by rw [h.size]; exact hb)]
      rfl

/-- Parents are blocks. -/
theorem Tree.listUnder_eq (h : Tree g order numbers parents) {parent : Option BlockIndex}
    (hmem : parent ∈ parents.toList) :
    listUnder parents parent = .ok () := by
  cases parent with
  | none => rfl
  | some p =>
    obtain ⟨i, hi⟩ := List.getElem?_of_mem hmem
    have hp : parent? parents ⟨i⟩ = some p := by
      rw [Array.getElem?_toList] at hi
      rw [parent?, hi]
      rfl
    have hsome : (parent? parents p).isSome = true := by
      by_cases hzero : (⟨i⟩ : BlockIndex) = ⟨0⟩
      · rw [hzero, h.root] at hp
        cases hp
        rw [h.root]
        rfl
      · exact (h.above _ p hzero hp).2.1
    obtain ⟨q, hq⟩ := Option.isSome_iff_exists.1 hsome
    rw [listUnder, read_parents hq]
    rfl

/-! ## The rounds come to an end -/

/-- After as many rounds as there are blocks, a parent is computed as it is already. -/
theorem Round.refine_unchanged (h : Round g order numbers r (place numbers b) parents)
    (hg : g.SuccessorsExist) (hne : 0 < g.blocks.size) (hn : g.Numbered order numbers)
    (hl : Listed g) (hr : g.blocks.size < r) (hb : b ∈ order) (hb₀ : b ≠ ⟨0⟩) (changed : Bool) :
    Dominators.refine g numbers (parents, changed) b = (parents, changed) := by
  have hrange := hn.range b hb
  obtain ⟨u, hu, hub, hlt⟩ := hn.forward_predecessor hb hb₀
  obtain ⟨p, hp, -⟩ := h.toTree.parentFromPredecessors_spec hn ((hl b u hrange).2 hub)
    (h.present u hu (.inl hlt))
  obtain ⟨q, hq⟩ := Option.isSome_iff_exists.1 (h.present b hb (.inr (by omega)))
  have hnext := h.refine hn hl hb hb₀ changed
  obtain ⟨hsize', hparent⟩ := refine_parent? changed (by rw [h.size]; exact hrange) hp
  have hp' : parent? (Dominators.refine g numbers (parents, changed) b).1 b = some p := by
    rw [hparent, if_pos rfl]
  obtain ⟨-, hpsome', hplt⟩ := hnext.above b p hb₀ hp'
  obtain ⟨-, hqsome, hqlt⟩ := h.above b q hb₀ hq
  -- both are dominators, so that each is above the other
  have hpb : ¬ g.Bypass p b := fun hbypass =>
    hnext.early b p g.blocks.size hb₀ hp' (Nat.lt_succ_self _) (by omega)
      (hbypass.avoids_size hg hne)
  have hqb : ¬ g.Bypass q b :=
    fun hbypass => h.late b q g.blocks.size hb₀ hq hr (hbypass.avoids_size hg hne)
  have hpne : p ≠ b := by
    rintro rfl
    omega
  have hqne : q ≠ b := by
    rintro rfl
    omega
  have hpsome : (parent? parents p).isSome = true := by
    rw [hparent, if_neg hpne] at hpsome'
    exact hpsome'
  have hpq : p = q := h.antisymm (h.anc_of_not_bypass hqsome (h.complete b q p hb₀ hq hpne hpb))
    (h.anc_of_not_bypass hpsome (hnext.complete b p q hb₀ hp' hqne hqb))
  rw [Dominators.refine]
  simp only [hp]
  have hsame : parents[b.index]?.join = some p := hpq ▸ hq
  rw [if_pos hsame]

/-- A round that goes over the rest of the order is not interrupted, and late rounds change nothing.
-/
theorem Round.guarded_foldl (hg : g.SuccessorsExist) (hne : 0 < g.blocks.size)
    (hn : g.Numbered order numbers) (hl : Listed g) (hsize : numbers.size = g.blocks.size)
    (l₁ l₂ : List BlockIndex) (horder : order = l₁ ++ l₂) (hl₁ : l₁ ≠ [])
    (h : Round g order numbers r l₁.length parents) (changed : Bool) :
    l₂.foldlM (Guarded.refine g numbers) (parents, changed) =
        .ok (l₂.foldl (Dominators.refine g numbers) (parents, changed)) ∧
      (g.blocks.size < r → l₂.foldl (Dominators.refine g numbers) (parents, changed) = (parents,
        changed)) := by
  induction l₂ generalizing l₁ parents changed with
  | nil => exact ⟨rfl, fun _ => rfl⟩
  | cons b l₂ ih =>
    have hb : b ∈ order := by rw [horder]; simp
    have hplace : place numbers b = l₁.length := hn.place _ b (by rw [horder]; simp)
    have hb₀ : b ≠ ⟨0⟩ := by
      rintro rfl
      rw [hn.place_entry] at hplace
      exact hl₁ (List.eq_nil_of_length_eq_zero hplace.symm)
    have hat : Round g order numbers r (place numbers b) parents := hplace ▸ h
    have hstep := hat.refine hn hl hb hb₀ changed
    have hnext : Round g order numbers r (l₁ ++ [b]).length
      (Dominators.refine g numbers (parents, changed) b).1 := by
      rw [hplace] at hstep
      simpa using hstep
    obtain ⟨hrest, hlate⟩ := ih (l₁ ++ [b]) (by rw [horder]; simp) (by simp) hnext
      (Dominators.refine g numbers (parents, changed) b).2
    constructor
    · rw [List.foldlM_cons, h.toTree.guarded_refine hn hl hsize (hn.range b hb) changed,
        List.foldl_cons]
      exact hrest
    · intro hr
      rw [List.foldl_cons]
      refine (hlate hr).trans ?_
      exact hat.refine_unchanged hg hne hn hl hr hb hb₀ changed

/-- The parents settle within one round more than there are blocks, and another one that finds
nothing to change. -/
theorem Round.guarded_settle (hg : g.SuccessorsExist) (hne : 0 < g.blocks.size)
    (hn : g.Numbered order numbers) (hl : Listed g) (hsize : numbers.size = g.blocks.size)
    (rounds : Nat) (h : Round g order numbers r 1 parents) (hpos : 0 < rounds)
    (hrounds : g.blocks.size + 1 < r + rounds) :
    Guarded.settle g numbers order.tail rounds parents = .ok (Dominators.settle g numbers order.tail
      rounds parents) := by
  obtain ⟨rest, hrest⟩ := hn.entry
  induction rounds generalizing r parents with
  | zero => omega
  | succ rounds ih =>
    have hone : Round g order numbers r [(⟨0⟩ : BlockIndex)].length parents := h
    obtain ⟨hround, hlate⟩ := hone.guarded_foldl hg hne hn hl hsize [⟨0⟩] order.tail
      (by rw [hrest]; rfl) (by simp) false
    have hnext := (hone.foldl hn hl [⟨0⟩] order.tail (by rw [hrest]; rfl) (by simp) false).next hn
    rw [Guarded.settle, Dominators.settle, hround]
    generalize order.tail.foldl (Dominators.refine g numbers) (parents, false) = s at hlate hnext
    obtain ⟨parents', changed⟩ := s
    cases changed with
    | false => rfl
    | true =>
      have hr : r ≤ g.blocks.size := by
        by_contra hr
        cases hlate (by omega)
      exact ih hnext (by omega) (by omega)

end Dominators

namespace Guarded

variable {g : Graph}

open Dominators

/-- Numbering the blocks. -/
theorem numbers_eq (hg : g.SuccessorsExist) (hne : 0 < g.blocks.size) :
    g.reversePostorder.zipIdx.foldlM (fun a (e : BlockIndex × Nat) => write a e.1.index (some e.2))
      (Array.replicate g.blocks.size none) = .ok (compute g).numbers := by
  have hord := Graph.reversePostorder_ordered hg hne
  refine foldlM_eq (fun l (a : Array (Option Nat)) => (∀ e ∈ l, e.1.index < g.blocks.size) ∧
    a.size = g.blocks.size)
    (fun e l a h => ⟨write_eq ?_, fun e' he' => h.1 e' (by simp [he']), by simpa using h.2⟩)
      ⟨fun e he => ?_, by simp⟩
  · rw [h.2]
    exact h.1 e (by simp)
  · exact hord.range e.1 (List.fst_mem_of_mem_zipIdx he)

/-- All rounds, from no parents but the entry's own. -/
theorem settle_eq (hg : g.SuccessorsExist) (hne : 0 < g.blocks.size) (hl : Listed g) :
    settle g (compute g).numbers g.reversePostorder.tail (g.blocks.size * g.blocks.size + 1)
      ((Array.replicate g.blocks.size none).setIfInBounds 0 (some ⟨0⟩)) = .ok (compute
        g).parents := by
  have hord := Graph.reversePostorder_ordered hg hne
  have hn := numbered_compute hg hne
  by_cases hone : g.blocks.size = 1
  · -- with no block but the entry there is nothing to go over
    have htail : g.reversePostorder.tail = [] := by
      rw [← List.length_eq_zero_iff, List.length_tail]
      have := hn.length
      omega
    change _ = Except.ok (Dominators.settle g (compute g).numbers g.reversePostorder.tail _ _)
    rw [htail]
    rfl
  · have hsize : (compute g).numbers.size = g.blocks.size := by
      have hsize :=
        (foldl_number g.reversePostorder 0 (Array.replicate g.blocks.size none) hord.nodup
        (fun b hb => by simpa using hord.range b hb)).1
      exact hsize.trans (by simp)
    have hrounds : g.blocks.size + 1 < 0 + (g.blocks.size * g.blocks.size + 1) := by
      have : 2 * g.blocks.size ≤ g.blocks.size * g.blocks.size := Nat.mul_le_mul_right _ (by omega)
      omega
    exact (round_initial hg hne).guarded_settle hg hne hn hl hsize _ (by omega) hrounds

/-- The tree of a well-formed graph is computed without an interrupt. -/
theorem dominators_eq (hg : g.SuccessorsExist) (hlast : g.LastExist) (hne : 0 < g.blocks.size)
    (hl : Listed g) :
    dominators g = .ok (compute g) := by
  have hwrite : write (Array.replicate g.blocks.size none) 0 (some ⟨0⟩) =
      .ok ((Array.replicate g.blocks.size none).setIfInBounds 0 (some (⟨0⟩ : BlockIndex))) :=
        write_eq (by simpa using hne)
  obtain ⟨htree, -, -⟩ := compute_tree hg hne hl
  have hchildren : (compute g).parents.toList.forM (listUnder (compute g).parents) = .ok () :=
    forM_eq fun parent hparent => htree.listUnder_eq hparent
  rw [dominators, reversePostorder_eq hg hlast hne]
  simp only [bind, Except.bind, numbers_eq hg hne, hwrite, settle_eq hg hne hl, hchildren]
  rfl

end Guarded

namespace Dominators

variable {g : Graph} {d : Dominators} {a b : BlockIndex} {order : List BlockIndex}
  {numbers : Array (Option Nat)}

/-! ## The queries -/

theorem Tree.guarded_isAncestor (h : Tree g order numbers d.parents) {steps : Nat}
    (hb : (parent? d.parents b).isSome = true) (hsteps : place numbers b < steps) :
    Guarded.isAncestor d steps a b = .ok (d.isAncestor steps a b) := by
  induction steps generalizing b with
  | zero => omega
  | succ steps ih =>
    rw [Guarded.isAncestor, isAncestor]
    split
    · rfl
    · cases hidom : d.idom? b with
      | none => rfl
      | some p =>
        obtain ⟨hb₀, hp⟩ := (idom?_eq_some h).1 hidom
        obtain ⟨-, hsome, hlt⟩ := h.above b p hb₀ hp
        exact ih hsome (by omega)

/-- A subtree is no deeper than there are places below its root. -/
theorem Tree.guarded_subtree (h : Tree g order numbers d.parents) (hn : g.Numbered order numbers)
    {depth : Nat} (hb : (parent? d.parents b).isSome = true)
    (hdepth : g.blocks.size ≤ depth + place numbers b) :
    Guarded.subtree d depth b = .ok (d.subtree depth b) := by
  induction depth generalizing b with
  | zero =>
    have := hn.place_lt (h.mem hn hb)
    omega
  | succ depth ih =>
    have hchildren : (d.children b).mapM (Guarded.subtree d depth) = .ok ((d.children b).map
      (d.subtree depth)) := by
      refine mapM_eq fun c hc => ?_
      obtain ⟨hc₀, hp⟩ :=
        (idom?_eq_some h).1 (show d.idom? c = some b by simpa using (List.mem_filter.1 hc).2)
      have := (h.above c b hc₀ hp).2.2
      exact ih (by rw [hp]; rfl) (by omega)
    rw [Guarded.subtree, subtree, hchildren, List.flatMap_def]
    rfl

variable (hg : g.SuccessorsExist) (hne : 0 < g.blocks.size) (hl : Listed g)
include hg hne hl

theorem guarded_dominates (a b : BlockIndex) :
    Guarded.dominates (compute g) a b = .ok ((compute g).dominates a b) := by
  obtain ⟨htree, -, -⟩ := compute_tree hg hne hl
  have hn := numbered_compute hg hne
  rw [Guarded.dominates, dominates]
  by_cases hreach : ((compute g).isReachable a && (compute g).isReachable b) = true
  · rw [if_pos hreach, hreach, Bool.true_and]
    have hb : (parent? (compute g).parents b).isSome = true := (Bool.and_eq_true_iff.1 hreach).2
    refine htree.guarded_isAncestor hb ?_
    rw [htree.size]
    exact hn.place_lt (htree.mem hn hb)
  · rw [if_neg hreach, Bool.eq_false_iff.2 hreach, Bool.false_and]

theorem guarded_preOrder : Guarded.preOrder (compute g) = .ok (compute g).preOrder := by
  obtain ⟨htree, -, -⟩ := compute_tree hg hne hl
  refine htree.guarded_subtree (numbered_compute hg hne) (by rw [htree.root]; rfl) ?_
  rw [htree.size]
  omega

end Dominators

end SpecJit
