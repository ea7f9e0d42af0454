import Mathlib.Data.List.Flatten
import Mathlib.Data.List.Nodup
import Mathlib.Data.List.Perm.Subperm
import SpecJit.Lir.Basic

/-!
# The order of the blocks

`Function.Walk f path b`: a path leads from the entry to a block. It says which blocks control can
come to (`Function.Reachable`) and which of them every path to another one goes through
(`Function.Dominates`).

`Function.reachableBlocks` is a search that marks a block when its turn comes, not when it begins to
wait. What carries over from one step to the next is `Function.Exploring`: to every block that was
found, and to every one that waits, leads a path whose other blocks were all found before. So the
order lists what can be reached and nothing else, and the dominators of a block, which are on that
path, before it (`Function.Listed`). Every block that waits comes from an edge of its own, so the
bound on the steps is never met (`Function.explore_ends`).
-/

namespace SpecJit.Lir.Function

variable {f : Function} {a b v : BlockId} {known known' found waiting order : List BlockId}
  {steps : Nat} {blk : Block}

/-! ## Paths -/

/-- A path from the entry to a block: the blocks on it, the last one first. -/
inductive Walk (f : Function) : List BlockId → BlockId → Prop
  | entry : Walk f [⟨0⟩] ⟨0⟩
  | step {path : List BlockId} {u v : BlockId} : Walk f path u → v ∈ f.successors u →
    Walk f (v :: path) v

/-- Some path from the entry leads to a block. -/
def Reachable (f : Function) (b : BlockId) : Prop := ∃ path, f.Walk path b

/-- All paths to `b` go through `a`. -/
def Dominates (f : Function) (a b : BlockId) : Prop := ∀ path, f.Walk path b → a ∈ path

/-- Control goes to blocks of the function only. -/
def BlocksExist (f : Function) : Prop := ∀ b, f.Reachable b → b.index < f.blocks.size

/-- The blocks that control can come to, each once and after those that dominate it. -/
structure Listed (f : Function) (order : List BlockId) : Prop where
  nodup : order.Nodup
  mem_iff : ∀ b, b ∈ order ↔ f.Reachable b
  after : ∀ l₁ b l₂, order = l₁ ++ b :: l₂ → ∀ a, f.Dominates a b → a ≠ b → a ∈ l₁

theorem successors_eq (h : f.blocks[b.index]? = some blk) :
    f.successors b = blk.terminator.successors := by
  rw [successors, h]
  rfl

theorem Walk.entry_mem {path : List BlockId} (h : f.Walk path b) : ⟨0⟩ ∈ path := by
  induction h with
  | entry => simp
  | step _ _ ih => exact List.mem_cons_of_mem _ ih

/-- The entry dominates every block. -/
theorem dominates_entry (f : Function) (b : BlockId) : f.Dominates ⟨0⟩ b := fun _ h => h.entry_mem

/-- A block to which control comes from one block only is dominated by that one. -/
theorem dominates_of_predecessor (hb : b ≠ ⟨0⟩) (h : ∀ u, b ∈ f.successors u → u = a) :
    f.Dominates a b := by
  intro path hwalk
  cases hwalk with
  | entry => exact absurd rfl hb
  | step hu hv =>
    obtain rfl := h _ hv
    cases hu <;> simp

/-- It is enough that no block of the function leads out of it. -/
theorem blocksExist_of_successors (hentry : 0 < f.blocks.size)
    (h : ∀ blk ∈ f.blocks, ∀ v ∈ blk.terminator.successors, v.index < f.blocks.size) :
    f.BlocksExist := by
  rintro b ⟨path, hwalk⟩
  cases hwalk with
  | entry => exact hentry
  | @step _ u _ _ hv =>
    rw [successors] at hv
    cases hblk : f.blocks[u.index]? with
    | none => simp [hblk] at hv
    | some blk =>
      rw [hblk] at hv
      exact h blk (Array.mem_of_getElem? hblk) b hv

/-! ## Paths over blocks that are known -/

/-- A path leads to the block, and the other blocks on it are known. -/
def LedTo (f : Function) (known : List BlockId) (b : BlockId) : Prop :=
  ∃ path, f.Walk (b :: path) b ∧ path ⊆ known

theorem ledTo_entry (f : Function) : f.LedTo [] ⟨0⟩ := ⟨[], .entry, List.Subset.refl _⟩

theorem LedTo.reachable (h : f.LedTo known b) : f.Reachable b := by
  obtain ⟨path, hwalk, -⟩ := h
  exact ⟨_, hwalk⟩

theorem LedTo.mono (h : f.LedTo known b) (hk : known ⊆ known') : f.LedTo known' b := by
  obtain ⟨path, hwalk, hpath⟩ := h
  exact ⟨path, hwalk, List.Subset.trans hpath hk⟩

theorem LedTo.step (h : f.LedTo known b) (hv : v ∈ f.successors b) : f.LedTo (b :: known) v := by
  obtain ⟨path, hwalk, hpath⟩ := h
  exact ⟨b :: path, .step hwalk hv, List.cons_subset_cons b hpath⟩

/-- What dominates a block is on the way to it. -/
theorem LedTo.mem (h : f.LedTo known b) (ha : f.Dominates a b) (hne : a ≠ b) : a ∈ known := by
  obtain ⟨path, hwalk, hpath⟩ := h
  rcases List.mem_cons.1 (ha _ hwalk) with rfl | hmem
  · exact absurd rfl hne
  · exact hpath hmem

/-! ## The search -/

/-- A search under way: the blocks that were found, the last one first, and those that wait for
their turn. -/
structure Exploring (f : Function) (found waiting : List BlockId) : Prop where
  nodup : found.Nodup
  exist : ∀ b ∈ found, b.index < f.blocks.size
  entry : ⟨0⟩ ∈ found ∨ ⟨0⟩ ∈ waiting
  closed : ∀ u ∈ found, ∀ v ∈ f.successors u, v ∈ found ∨ v ∈ waiting
  /-- a way leads to each block over those that were found before it -/
  led : ∀ l₁ b l₂, found = l₁ ++ b :: l₂ → f.LedTo l₂ b
  waits : ∀ b ∈ waiting, f.LedTo found b

/-- The blocks that follow `b` and were not found when it was. -/
def fresh (f : Function) (found : List BlockId) (b : BlockId) : List BlockId :=
  (f.successors b).filter fun s => !(b :: found).contains s

theorem exploring_start (f : Function) : f.Exploring [] [⟨0⟩] where
  nodup := List.nodup_nil
  exist := nofun
  entry := .inr (List.mem_singleton.2 rfl)
  closed := nofun
  led l₁ b l₂ h := by simp at h
  waits b hb := by
    obtain rfl := List.mem_singleton.1 hb
    exact ledTo_entry f

/-- A block that was found in the meantime is passed over. -/
theorem Exploring.skip (h : f.Exploring found (b :: waiting)) (hb : b ∈ found) :
    f.Exploring found waiting where
  nodup := h.nodup
  exist := h.exist
  entry := by
    rcases h.entry with hentry | hentry
    · exact .inl hentry
    · rcases List.mem_cons.1 hentry with rfl | hentry
      · exact .inl hb
      · exact .inr hentry
  closed u hu v hv := by
    rcases h.closed u hu v hv with hmem | hmem
    · exact .inl hmem
    · rcases List.mem_cons.1 hmem with rfl | hmem
      · exact .inl hb
      · exact .inr hmem
  led := h.led
  waits v hv := h.waits v (List.mem_cons_of_mem _ hv)

/-- A block whose turn comes is found, and what follows it waits before the others. -/
theorem Exploring.visit (h : f.Exploring found (b :: waiting)) (hb : b ∉ found)
    (hexist : b.index < f.blocks.size) :
    f.Exploring (b :: found) (f.fresh found b ++ waiting) where
  nodup := List.nodup_cons.2 ⟨hb, h.nodup⟩
  exist := by
    intro v hv
    rcases List.mem_cons.1 hv with rfl | hv
    · exact hexist
    · exact h.exist v hv
  entry := by
    rcases h.entry with hentry | hentry
    · exact .inl (List.mem_cons_of_mem _ hentry)
    · rcases List.mem_cons.1 hentry with rfl | hentry
      · exact .inl List.mem_cons_self
      · exact .inr (List.mem_append_right _ hentry)
  closed := by
    intro u hu v hv
    by_cases hfound : v ∈ b :: found
    · exact .inl hfound
    · right
      rcases List.mem_cons.1 hu with rfl | hu
      · apply List.mem_append_left
        simpa [fresh, hv] using hfound
      · -- what follows a block found before was waiting already
        rw [List.mem_cons, not_or] at hfound
        rcases h.closed u hu v hv with hmem | hmem
        · exact absurd hmem hfound.2
        · rcases List.mem_cons.1 hmem with rfl | hmem
          · exact absurd rfl hfound.1
          · exact List.mem_append_right _ hmem
  led := by
    intro l₁ v l₂ hsplit
    cases l₁ with
    | nil =>
      rw [List.nil_append, List.cons.injEq] at hsplit
      obtain ⟨rfl, rfl⟩ := hsplit
      exact h.waits b List.mem_cons_self
    | cons _ l₁ =>
      rw [List.cons_append, List.cons.injEq] at hsplit
      exact h.led l₁ v l₂ hsplit.2
  waits := by
    intro v hv
    rcases List.mem_append.1 hv with hv | hv
    · exact (h.waits b List.mem_cons_self).step (List.mem_filter.1 hv).1
    · exact (h.waits v (List.mem_cons_of_mem _ hv)).mono (List.subset_cons_self b found)

/-- When no block waits any more, all that control can come to was found. -/
theorem Exploring.mem_iff (h : f.Exploring found []) : b ∈ found ↔ f.Reachable b := by
  constructor
  · intro hb
    obtain ⟨l₁, l₂, hsplit⟩ := List.append_of_mem hb
    exact (h.led l₁ b l₂ hsplit).reachable
  · rintro ⟨path, hwalk⟩
    induction hwalk with
    | entry => simpa using h.entry
    | step _ hv ih => simpa using h.closed _ ih _ hv

theorem Exploring.listed (h : f.Exploring found []) : f.Listed found.reverse where
  nodup := List.nodup_reverse.2 h.nodup
  mem_iff b := List.mem_reverse.trans h.mem_iff
  after l₁ b l₂ hsplit a ha hne := by
    have hfound : found = l₂.reverse ++ b :: l₁.reverse := by
      rw [← List.reverse_reverse found, hsplit]
      simp
    exact List.mem_reverse.1 ((h.led _ b _ hfound).mem ha hne)

/-! ## The bound on its steps -/

/-- The number of edges that leave some blocks. -/
def edges (f : Function) (bs : List BlockId) : Nat := (bs.flatMap f.successors).length

/-- Different blocks have no more edges than the function. -/
theorem edges_le (hnodup : found.Nodup) (hexist : ∀ b ∈ found, b.index < f.blocks.size) :
    f.edges found ≤ (f.blocks.map (·.terminator.successors.length)).foldl (· + ·) 0 := by
  let ids := (List.range f.blocks.size).map BlockId.mk
  have hall : (f.blocks.map (·.terminator.successors.length)).foldl (· + ·) 0 = f.edges ids := by
    rw [edges, List.length_flatMap, ← Array.foldl_toList, Array.toList_map, ← List.sum_eq_foldl]
    congr 1
    apply List.ext_getElem
    · simp [ids]
    · intro i hi _
      have hlt : i < f.blocks.size := by simpa using hi
      simp [ids, successors, hlt]
  have hsub : found ⊆ ids := by
    intro b hb
    exact List.mem_map.2 ⟨b.index, List.mem_range.2 (hexist b hb), rfl⟩
  obtain ⟨l, hperm, hl⟩ := hnodup.subperm hsub
  rw [hall, edges, edges, ← (hperm.flatMap_right f.successors).length_eq]
  exact (hl.flatMap f.successors).length_le

theorem fresh_length_le (f : Function) (found : List BlockId) (b : BlockId) :
    (f.fresh found b).length ≤ (f.successors b).length := List.length_filter_le _ _

/-- The search finds everything, or comes to a block that does not exist. Each block that waits
stands for an edge, so the steps do not run out before. -/
theorem explore_ends (h : f.Exploring found waiting)
    (hsteps : waiting.length + (f.blocks.map (·.terminator.successors.length)).foldl
      (· + ·) 0 ≤ steps + f.edges found) :
    (∃ all, f.explore steps found waiting = .ok all.reverse ∧ f.Exploring all []) ∨
      f.explore steps found waiting = .error .outOfRange ∧ ¬ f.BlocksExist := by
  induction steps generalizing found waiting with
  | zero =>
    have hle := edges_le h.nodup h.exist
    obtain rfl : waiting = [] := List.eq_nil_of_length_eq_zero (by omega)
    exact .inl ⟨found, rfl, h⟩
  | succ steps ih =>
    cases waiting with
    | nil => exact .inl ⟨found, rfl, h⟩
    | cons b waiting =>
      have hlen : (b :: waiting).length = waiting.length + 1 := List.length_cons
      rw [explore]
      by_cases hb : b ∈ found
      · rw [if_pos (List.contains_iff_mem.2 hb)]
        exact ih (h.skip hb) (by omega)
      · rw [if_neg (by simpa using hb)]
        have hled := h.waits b List.mem_cons_self
        cases hblk : f.blocks[b.index]? with
        | none =>
          right
          refine ⟨by simp [block, hblk, Fault.ofOption, bind, Except.bind], fun hexist => ?_⟩
          have hlt := hexist b hled.reachable
          simp at hblk
          omega
        | some blk =>
          have hlt : b.index < f.blocks.size := (Array.getElem?_eq_some_iff.1 hblk).1
          have hnext := successors_eq hblk
          simp only [block, hblk, Fault.ofOption, bind, Except.bind, ← hnext]
          split
          · rename_i hany
            right
            refine ⟨rfl, fun hexist => ?_⟩
            obtain ⟨v, hv, hout⟩ := List.any_eq_true.1 hany
            have hin := hexist v (hled.step hv).reachable
            simp at hout
            omega
          · have hfresh := f.fresh_length_le found b
            have hedges : f.edges (b :: found) = (f.successors b).length + f.edges found := by
              simp [edges]
            apply ih (h.visit hb hlt)
            rw [List.length_append]
            omega

/-- The blocks are listed if all of them exist, and otherwise the search stops. -/
theorem reachableBlocks_listed (f : Function) :
    (f.BlocksExist → ∃ order, f.reachableBlocks = .ok order ∧ f.Listed order) ∧
      (¬ f.BlocksExist → f.reachableBlocks = .error .outOfRange) := by
  have hsteps : [BlockId.mk 0].length + (f.blocks.map (·.terminator.successors.length)).foldl
    (· + ·) 0 ≤
      (f.blocks.map (·.terminator.successors.length)).foldl (· + ·) 0 + 1 + f.edges [] := by
    rw [List.length_singleton]
    omega
  rw [reachableBlocks]
  rcases explore_ends (exploring_start f) hsteps with ⟨found, hfound, hexploring⟩ | ⟨herror, hnot⟩
  · refine ⟨fun _ => ⟨found.reverse, hfound, hexploring.listed⟩, fun hnot => absurd ?_ hnot⟩
    intro b hb
    exact hexploring.exist b (hexploring.mem_iff.2 hb)
  · exact ⟨fun hexist => absurd hexist hnot, fun _ => herror⟩

end SpecJit.Lir.Function
