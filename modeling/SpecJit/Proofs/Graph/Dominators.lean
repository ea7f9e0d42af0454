import Mathlib.Data.Finset.Card
import SpecJit.Proofs.Graph.Search

/-!
# The dominator tree

The tree that `Dominators.compute` settles on is that of the dominators: a block is above another
one exactly if no path from the entry to the second one bypasses the first
(`Dominators.dominates_iff`).

Edges that go back in the order slow the computation down. After `k` rounds the parent of a block
lies on all paths that go back less than `k` times, and all along every true dominator stays above
the block.
-/

namespace SpecJit

namespace Graph

variable {g : Graph} {order : List BlockIndex} {numbers : Array (Option Nat)}
  {a b p u v w y : BlockIndex} {j k : Nat}

/-- Some path from the entry to the block does not go through `y`. -/
inductive Bypass (g : Graph) (y : BlockIndex) : BlockIndex → Prop
  | entry : (⟨0⟩ : BlockIndex) ≠ y → Bypass g y ⟨0⟩
  | step {u v : BlockIndex} : Bypass g y u → v ∈ g.successors u → v ≠ y → Bypass g y v

/-- Every path starts at the entry. -/
theorem Bypass.ne_entry (h : g.Bypass y b) : y ≠ ⟨0⟩ := by
  induction h with
  | entry hne => exact Ne.symm hne
  | step _ _ _ ih => exact ih

/-- Some path that goes back at most `k` times in the order does not go through `y`. -/
inductive Avoids (g : Graph) (place : BlockIndex → Nat) (y : BlockIndex) : Nat → BlockIndex → Prop
  | entry {k : Nat} : (⟨0⟩ : BlockIndex) ≠ y → Avoids g place y k ⟨0⟩
  | forward {k : Nat} {u v : BlockIndex} : Avoids g place y k u → v ∈ g.successors u →
    place u < place v → v ≠ y →
    Avoids g place y k v
  | back {k : Nat} {u v : BlockIndex} : Avoids g place y k u → v ∈ g.successors u →
    place v ≤ place u → v ≠ y →
    Avoids g place y (k + 1) v

section Avoids

variable {place : BlockIndex → Nat}

theorem Avoids.ne (h : g.Avoids place y k b) : b ≠ y := by
  cases h <;> assumption

theorem Avoids.succ (h : g.Avoids place y k b) : g.Avoids place y (k + 1) b := by
  induction h with
  | entry hne => exact .entry hne
  | forward _ hv hlt hne ih => exact .forward ih hv hlt hne
  | back _ hv hle hne ih => exact .back ih hv hle hne

theorem Avoids.mono (h : g.Avoids place y j b) (hle : j ≤ k) : g.Avoids place y k b := by
  induction hle with
  | refl => exact h
  | step _ ih => exact ih.succ

theorem Avoids.next (h : g.Avoids place y k u) (hv : v ∈ g.successors u) (hne : v ≠ y) :
    g.Avoids place y (k + 1) v := by
  by_cases hlt : place u < place v
  · exact .forward h.succ hv hlt hne
  · exact .back h hv (by omega) hne

theorem Avoids.bypass (h : g.Avoids place y k b) : g.Bypass y b := by
  induction h with
  | entry hne => exact .entry hne
  | forward _ hv _ hne ih | back _ hv _ hne ih => exact .step ih hv hne

theorem Bypass.avoids (h : g.Bypass y b) : ∃ k, g.Avoids place y k b := by
  induction h with
  | entry hne => exact ⟨0, .entry hne⟩
  | step _ hv hne ih =>
    obtain ⟨k, hk⟩ := ih
    exact ⟨k + 1, hk.next hv hne⟩

/-- A path to `b` that avoids `a` avoids `p`, too, or goes through it. -/
theorem Avoids.through (h : g.Avoids place a k b) (p : BlockIndex) :
    g.Avoids place p k b ∨ g.Avoids place a k p := by
  induction h with
  | entry hne =>
    by_cases hp : (⟨0⟩ : BlockIndex) = p
    · exact .inr (hp ▸ .entry hne)
    · exact .inl (.entry hp)
  | @forward k u v hu hv hlt hne ih =>
    rcases ih with ih | ih
    · by_cases hp : v = p
      · exact .inr (hp ▸ .forward hu hv hlt hne)
      · exact .inl (.forward ih hv hlt hp)
    · exact .inr ih
  | @back k u v hu hv hle hne ih =>
    rcases ih with ih | ih
    · by_cases hp : v = p
      · exact .inr (hp ▸ .back hu hv hle hne)
      · exact .inl (.back ih hv hle hp)
    · exact .inr ih.succ

/-- A path that only goes forward. -/
inductive Climbs (g : Graph) (place : BlockIndex → Nat) (w : BlockIndex) : BlockIndex → Prop
  | refl : Climbs g place w w
  | step {u v : BlockIndex} : Climbs g place w u → v ∈ g.successors u → place u < place v →
    Climbs g place w v

theorem Climbs.place_le (h : g.Climbs place w u) : place w ≤ place u := by
  induction h with
  | refl => exact Nat.le_refl _
  | step _ _ hlt ih => omega

/-- A path forward from the entry goes through `w`, if none avoids it. -/
theorem Climbs.from_of_not_avoids (h : g.Climbs place ⟨0⟩ u) (hw : ¬ g.Avoids place w 0 u) :
    g.Climbs place w u := by
  have hcases : g.Avoids place w 0 u ∨ g.Climbs place w u := by
    induction h with
    | refl =>
      by_cases hw : (⟨0⟩ : BlockIndex) = w
      · exact .inr (hw ▸ .refl)
      · exact .inl (.entry hw)
    | @step u v hu hv hlt ih =>
      by_cases hvw : v = w
      · exact .inr (hvw ▸ .refl)
      · rcases ih (fun havoid => hw (.forward havoid hv hlt hvw)) with ih | ih
        · exact .inl (.forward ih hv hlt hvw)
        · exact .inr (.step ih hv hlt)
  exact hcases.resolve_left hw

/-- A path that avoids what lies below its end can be prolonged forward. -/
theorem Avoids.climb (h : g.Avoids place y k w) (hc : g.Climbs place w u) (hlt : place y < place w)
    :
    g.Avoids place y k u := by
  induction hc with
  | refl => exact h
  | @step u v hu hv huv ih =>
    have hle := hu.place_le
    refine .forward ih hv huv fun he => ?_
    rw [he] at huv
    omega

end Avoids

/-! ## Places -/

/-- The places of the blocks in an order. -/
structure Numbered (g : Graph) (order : List BlockIndex) (numbers : Array (Option Nat)) :
    Prop extends g.Ordered order where
  place : ∀ i b, order[i]? = some b → Dominators.place numbers b = i
  length : order.length ≤ g.blocks.size

namespace Numbered

theorem place_lt (h : g.Numbered order numbers) (hb : b ∈ order) :
    Dominators.place numbers b < g.blocks.size := by
  obtain ⟨i, hi⟩ := List.getElem?_of_mem hb
  have hlen := h.length
  have hlt := (List.getElem?_eq_some_iff.1 hi).1
  rw [h.place i b hi]
  omega

theorem place_injective (h : g.Numbered order numbers) (ha : a ∈ order) (hb : b ∈ order)
    (he : Dominators.place numbers a = Dominators.place numbers b) : a = b := by
  obtain ⟨i, hi⟩ := List.getElem?_of_mem ha
  obtain ⟨k, hk⟩ := List.getElem?_of_mem hb
  rw [h.place i a hi, h.place k b hk] at he
  subst he
  exact Option.some.inj (hi.symm.trans hk)

theorem entry_mem (h : g.Numbered order numbers) : (⟨0⟩ : BlockIndex) ∈ order := by
  obtain ⟨rest, hrest⟩ := h.entry
  rw [hrest]
  exact List.mem_cons_self

theorem place_entry (h : g.Numbered order numbers) : Dominators.place numbers ⟨0⟩ = 0 := by
  obtain ⟨rest, hrest⟩ := h.entry
  exact h.place 0 ⟨0⟩ (by rw [hrest]; rfl)

/-- A block other than the entry has a predecessor that comes before it. -/
theorem forward_predecessor (h : g.Numbered order numbers) (hb : b ∈ order) (hne : b ≠ ⟨0⟩) :
    ∃ u ∈ order, b ∈ g.successors u ∧ Dominators.place numbers u < Dominators.place numbers b := by
  obtain ⟨l₁, l₂, rfl⟩ := List.append_of_mem hb
  rcases h.earlier l₁ b l₂ rfl with he | ⟨u, hu, hv⟩
  · exact absurd he hne
  · obtain ⟨i, hi⟩ := List.getElem?_of_mem hu
    have hlt := (List.getElem?_eq_some_iff.1 hi).1
    refine ⟨u, by simp [hu], hv, ?_⟩
    rw [h.place i u (by rw [List.getElem?_append_left hlt]; exact hi),
      h.place l₁.length b (by simp)]
    exact hlt

/-- Control comes to every block by a path that only goes forward. -/
theorem climbs (h : g.Numbered order numbers) (hb : b ∈ order) :
    g.Climbs (Dominators.place numbers) ⟨0⟩ b := by
  generalize hn : Dominators.place numbers b = n
  induction n using Nat.strongRecOn generalizing b with
  | ind n ih =>
    by_cases hne : b = ⟨0⟩
    · exact hne ▸ .refl
    · obtain ⟨u, hu, hv, hlt⟩ := h.forward_predecessor hb hne
      exact .step (ih _ (by omega) hu rfl) hv hlt

/-- A path stays within the order. -/
theorem mem_of_avoids {place : BlockIndex → Nat} (h : g.Numbered order numbers)
    (ha : g.Avoids place y k b) : b ∈ order := by
  induction ha with
  | entry _ => exact h.entry_mem
  | forward _ hv _ _ ih | back _ hv _ _ ih => exact h.closed _ ih _ hv

end Numbered

/-! ## Paths that go back often

There are as many different sets of blocks as there are blocks that an avoiding path that goes back
once more can add, so that going back more often than that brings nothing new. -/

section Often

variable {place : BlockIndex → Nat}

/-- The blocks that can be come to. -/
noncomputable def avoiding (g : Graph) (place : BlockIndex → Nat) (y : BlockIndex) (k : Nat) :
    Finset Nat :=
  open Classical in (Finset.range g.blocks.size).filter fun i => g.Avoids place y k ⟨i⟩

theorem mem_avoiding (hg : g.SuccessorsExist) (hne : 0 < g.blocks.size) {i : Nat} :
    i ∈ g.avoiding place y k ↔ g.Avoids place y k ⟨i⟩ := by
  have hrange (h : g.Avoids place y k ⟨i⟩) : i < g.blocks.size := by
    cases h with
    | entry _ => exact hne
    | forward _ hv _ _ | back _ hv _ _ => exact hg _ _ hv
  simp only [avoiding, Finset.mem_filter, Finset.mem_range]
  exact ⟨fun h => h.2, fun h => ⟨hrange h, h⟩⟩

/-- If going back once more brings nothing new, going back more often does not, either. -/
theorem Avoids.of_stable (hstable : ∀ v, g.Avoids place y (k + 1) v → g.Avoids place y k v)
    (h : g.Avoids place y j b) :
    g.Avoids place y k b := by
  induction h with
  | entry hne => exact .entry hne
  | forward _ hv hlt hne ih => exact .forward ih hv hlt hne
  | back _ hv hle hne ih => exact hstable _ (.back ih hv hle hne)

theorem Bypass.avoids_size (hg : g.SuccessorsExist) (hne : 0 < g.blocks.size) (h : g.Bypass y b) :
    g.Avoids place y g.blocks.size b := by
  obtain ⟨j, hj⟩ : ∃ j, g.Avoids place y j b := h.avoids
  by_cases hstable : ∃ k ≤ g.blocks.size, ∀ v, g.Avoids place y (k + 1) v → g.Avoids place y k v
  · obtain ⟨k, hk, hstable⟩ := hstable
    exact (Avoids.of_stable hstable hj).mono hk
  · -- otherwise there would be more blocks than there are
    exfalso
    have hgrows (k : Nat) (hk : k ≤ g.blocks.size + 1) : k ≤ (g.avoiding place y k).card := by
      induction k with
      | zero => exact Nat.zero_le _
      | succ k ih =>
        have hnot : ¬ ∀ v, g.Avoids place y (k + 1) v → g.Avoids place y k v :=
          fun hall => hstable ⟨k, by omega, hall⟩
        push Not at hnot
        obtain ⟨v, hv, hv'⟩ := hnot
        have hlt : (g.avoiding place y k).card < (g.avoiding place y (k + 1)).card := by
          refine Finset.card_lt_card ⟨fun i hi => ?_, fun hsub => hv' ?_⟩
          · rw [mem_avoiding hg hne] at hi ⊢
            exact hi.succ
          · have hmem : v.index ∈ g.avoiding place y k := hsub ((mem_avoiding hg hne).2 hv)
            exact (mem_avoiding hg hne).1 hmem
        have := ih (by omega)
        omega
    have hcard : (g.avoiding place y (g.blocks.size + 1)).card ≤ (Finset.range
      g.blocks.size).card :=
      Finset.card_le_card fun i hi => by
        simp only [avoiding, Finset.mem_filter] at hi
        exact hi.1
    have := hgrows (g.blocks.size + 1) (Nat.le_refl _)
    rw [Finset.card_range] at hcard
    omega

end Often

end Graph

namespace Dominators

variable {g : Graph} {order : List BlockIndex} {numbers : Array (Option Nat)}
  {parents parents' : Array (Option BlockIndex)} {a b c p u v w y : BlockIndex} {i j r : Nat}

/-! ## Trees under construction -/

/-- The parent of a block, if it has one so far. -/
def parent? (parents : Array (Option BlockIndex)) (b : BlockIndex) : Option BlockIndex :=
  parents[b.index]?.join

/-- `a` is `b` or above it. -/
inductive Anc (parents : Array (Option BlockIndex)) (a : BlockIndex) : BlockIndex → Prop
  | refl : (parent? parents a).isSome = true → Anc parents a a
  | up {b p : BlockIndex} : parent? parents b = some p → b ≠ ⟨0⟩ → Anc parents a p → Anc parents a b

theorem Anc.strict (h : Anc parents a b) (hne : a ≠ b) :
    ∃ p, parent? parents b = some p ∧ b ≠ ⟨0⟩ ∧ Anc parents a p := by
  cases h with
  | refl _ => exact absurd rfl hne
  | up hp hb h => exact ⟨_, hp, hb, h⟩

theorem Anc.trans (h₁ : Anc parents a b) (h₂ : Anc parents b c) : Anc parents a c := by
  induction h₂ with
  | refl _ => exact h₁
  | up hp hb _ ih => exact .up hp hb ih

theorem Anc.isSome (h : Anc parents a b) : (parent? parents b).isSome = true := by
  cases h with
  | refl hsome => exact hsome
  | up hp _ _ => rw [hp]; rfl

theorem Anc.isSome_left (h : Anc parents a b) : (parent? parents a).isSome = true := by
  induction h with
  | refl hsome => exact hsome
  | up _ _ _ ih => exact ih

/-- What holds of the parents all along: they come earlier in the order, no path forward bypasses
them, and the dominators of a block but itself are dominators of its parent. -/
structure Tree (g : Graph) (order : List BlockIndex) (numbers : Array (Option Nat))
    (parents : Array (Option BlockIndex)) : Prop where
  size : parents.size = g.blocks.size
  root : parent? parents ⟨0⟩ = some ⟨0⟩
  above : ∀ b p, b ≠ ⟨0⟩ → parent? parents b = some p →
    b ∈ order ∧ (parent? parents p).isSome = true ∧ place numbers p < place numbers b
  plain : ∀ b p, b ≠ ⟨0⟩ → parent? parents b = some p → ¬ g.Avoids (place numbers) p 0 b
  complete : ∀ b p y, b ≠ ⟨0⟩ → parent? parents b = some p → y ≠ b → ¬ g.Bypass y b → ¬ g.Bypass y p

namespace Tree

theorem mem (h : Tree g order numbers parents) (hn : g.Numbered order numbers)
    (hb : (parent? parents b).isSome = true) :
    b ∈ order := by
  by_cases hb₀ : b = ⟨0⟩
  · rw [hb₀]
    exact hn.entry_mem
  · obtain ⟨p, hp⟩ := Option.isSome_iff_exists.1 hb
    exact (h.above b p hb₀ hp).1

theorem place_le (h : Tree g order numbers parents) (ha : Anc parents a b) :
    place numbers a ≤ place numbers b := by
  induction ha with
  | refl _ => exact Nat.le_refl _
  | up hp hb _ ih =>
    have := (h.above _ _ hb hp).2.2
    omega

theorem place_lt (h : Tree g order numbers parents) (ha : Anc parents a b) (hne : a ≠ b) :
    place numbers a < place numbers b := by
  obtain ⟨p, hp, hb, ha⟩ := ha.strict hne
  have := h.place_le ha
  have := (h.above _ _ hb hp).2.2
  omega

/-- What lies above a block lies on the paths to it. -/
theorem not_avoids (h : Tree g order numbers parents) (ha : Anc parents a b)
    (hlevel : ∀ v p, v ≠ ⟨0⟩ → place numbers v ≤ place numbers b → parent? parents v = some p →
      ¬ g.Avoids (place numbers) p j v) : ¬ g.Avoids (place numbers) a j b := by
  induction ha with
  | refl _ => exact fun havoid => havoid.ne rfl
  | @up b p hp hb _ ih =>
    intro havoid
    have hlt := (h.above b p hb hp).2.2
    rcases havoid.through p with hpb | hap
    · exact hlevel b p hb (Nat.le_refl _) hp hpb
    · exact ih (fun v q hv hle => hlevel v q hv (by omega)) hap

/-- Every dominator of a block lies above it. -/
theorem anc_of_not_bypass (h : Tree g order numbers parents)
    (hb : (parent? parents b).isSome = true) (hy : ¬ g.Bypass y b) : Anc parents y b := by
  generalize hn : place numbers b = n
  induction n using Nat.strongRecOn generalizing b with
  | ind n ih =>
    by_cases hyb : y = b
    · exact hyb ▸ .refl (hyb ▸ hb)
    · have hb₀ : b ≠ ⟨0⟩ := fun he => hy (he ▸ .entry (he ▸ Ne.symm hyb))
      obtain ⟨p, hp⟩ := Option.isSome_iff_exists.1 hb
      obtain ⟨-, hsome, hlt⟩ := h.above b p hb₀ hp
      exact .up hp hb₀ (ih _ (by omega) hsome (h.complete b p y hb₀ hp hyb hy) rfl)

/-- The lowest block above two blocks. -/
theorem meet_spec (h : Tree g order numbers parents) (hn : g.Numbered order numbers) (steps : Nat)
    (ha : (parent? parents a).isSome = true) (hb : (parent? parents b).isSome = true)
    (hsteps : place numbers a + place numbers b < steps) :
    Anc parents (meet parents numbers steps a b) a ∧ Anc parents (meet parents numbers steps a b)
      b ∧
      ∀ y, Anc parents y a → Anc parents y b → Anc parents y (meet parents numbers steps a b) := by
  induction steps generalizing a b with
  | zero => omega
  | succ steps ih =>
    rw [meet]
    by_cases hab : a = b
    · rw [if_pos hab]
      subst hab
      exact ⟨.refl ha, .refl ha, fun y hy _ => hy⟩
    rw [if_neg hab]
    split
    · rename_i hlt
      have ha₀ : a ≠ ⟨0⟩ := by
        rintro rfl
        rw [hn.place_entry] at hlt
        omega
      obtain ⟨p, hp⟩ := Option.isSome_iff_exists.1 ha
      obtain ⟨-, hsome, hplace⟩ := h.above a p ha₀ hp
      have hparent : parentOf parents a = p := by rw [parentOf, ← parent?, hp]; rfl
      rw [hparent]
      obtain ⟨hl, hr, hlow⟩ := ih hsome hb (by omega)
      refine ⟨.up hp ha₀ hl, hr, fun y hya hyb => hlow y ?_ hyb⟩
      have hne : y ≠ a := by
        rintro rfl
        have := h.place_le hyb
        omega
      obtain ⟨q, hq, -, hyq⟩ := hya.strict hne
      rw [hp] at hq
      cases hq
      exact hyq
    · rename_i hle
      have hlt : place numbers a < place numbers b := by
        have hne : place numbers a ≠ place numbers b :=
          fun he => hab (hn.place_injective (h.mem hn ha) (h.mem hn hb) he)
        omega
      have hb₀ : b ≠ ⟨0⟩ := by
        rintro rfl
        rw [hn.place_entry] at hlt
        omega
      obtain ⟨p, hp⟩ := Option.isSome_iff_exists.1 hb
      obtain ⟨-, hsome, hplace⟩ := h.above b p hb₀ hp
      have hparent : parentOf parents b = p := by rw [parentOf, ← parent?, hp]; rfl
      rw [hparent]
      obtain ⟨hl, hr, hlow⟩ := ih ha hsome (by omega)
      refine ⟨hl, .up hp hb₀ hr, fun y hya hyb => hlow y hya ?_⟩
      have hne : y ≠ b := by
        rintro rfl
        have := h.place_le hya
        omega
      obtain ⟨q, hq, -, hyq⟩ := hyb.strict hne
      rw [hp] at hq
      cases hq
      exact hyq

/-- The lowest block above the predecessors that have a parent. -/
theorem parentFromPredecessors_spec (h : Tree g order numbers parents)
    (hn : g.Numbered order numbers) {predecessors : List BlockIndex} (hu : u ∈ predecessors)
    (hsome : (parent? parents u).isSome = true) :
    ∃ p, parentFromPredecessors parents numbers predecessors = some p ∧
      (∀ v ∈ predecessors, (parent? parents v).isSome = true → Anc parents p v) ∧
      ∀ y, (∀ v ∈ predecessors, (parent? parents v).isSome = true → Anc parents y v) →
      Anc parents y p := by
  obtain ⟨f, hf, hcons⟩ : ∃ f : Option BlockIndex → BlockIndex → Option BlockIndex,
      (∀ c p, f (some c) p = some (meet parents numbers (2 * parents.size) p c)) ∧
      ∀ c l, predecessors.filter (fun p => parents[p.index]?.join.isSome) = c :: l →
        parentFromPredecessors parents numbers predecessors = l.foldl f (some c) := by
    refine ⟨_, ?_, fun c l h => by rw [parentFromPredecessors, h, List.foldl_cons]⟩
    intro c p
    rfl
  have hfold (l : List BlockIndex) (hl : ∀ v ∈ l, (parent? parents v).isSome = true)
    (c : BlockIndex)
      (hc : (parent? parents c).isSome = true) : ∃ p, l.foldl f (some c) = some p ∧
      Anc parents p c ∧ (∀ v ∈ l, Anc parents p v) ∧
        ∀ y, Anc parents y c → (∀ v ∈ l, Anc parents y v) → Anc parents y p := by
    induction l generalizing c with
    | nil => exact ⟨c, rfl, .refl hc, by simp, fun y hy _ => hy⟩
    | cons v l ih =>
      have hv := hl v (by simp)
      have hsteps : place numbers v + place numbers c < 2 * parents.size := by
        have := hn.place_lt (h.mem hn hv)
        have := hn.place_lt (h.mem hn hc)
        have := h.size
        omega
      obtain ⟨hmv, hmc, hlow⟩ := h.meet_spec hn (2 * parents.size) hv hc hsteps
      obtain ⟨p, hp, hpm, hpl, hy⟩ := ih (fun w hw => hl w (by simp [hw])) _ hmv.isSome_left
      refine ⟨p,
        by rw [List.foldl_cons, hf, hp], hpm.trans hmc, ?_, fun y hyc hyl => hy y (hlow y
          (hyl v (by simp)) hyc) fun w hw => hyl w (by simp [hw])⟩
      intro w hw
      rcases List.mem_cons.1 hw with rfl | hw
      · exact hpm.trans hmv
      · exact hpl w hw
  have hfilter (v : BlockIndex) : v ∈ predecessors.filter (fun p => parents[p.index]?.join.isSome) ↔
      v ∈ predecessors ∧ (parent? parents v).isSome = true := List.mem_filter
  generalize predecessors.filter (fun p => parents[p.index]?.join.isSome) = l at hfilter hcons
  cases l with
  | nil => cases (hfilter u).2 ⟨hu, hsome⟩
  | cons c l =>
    obtain ⟨p, hp, hpc, hpl, hy⟩ := hfold l (fun v hv => ((hfilter v).1 (by simp [hv])).2) c
      ((hfilter c).1 (by simp)).2
    refine ⟨p, by rw [hcons c l rfl, hp], fun v hv hsome => ?_, fun y hall => ?_⟩
    · rcases List.mem_cons.1 ((hfilter v).2 ⟨hv, hsome⟩) with rfl | hv
      · exact hpc
      · exact hpl v hv
    · have hmem (v : BlockIndex) (hv : v ∈ c :: l) : Anc parents y v :=
        hall v ((hfilter v).1 hv).1 ((hfilter v).1 hv).2
      exact hy y (hmem c (by simp)) fun v hv => hmem v (by simp [hv])

end Tree

/-! ## Rounds -/

/-- The parents in round `r`, which has come to place `i`: those before that place lie on all paths
that go back at most `r` times, the others on those that go back less often. -/
structure Round (g : Graph) (order : List BlockIndex) (numbers : Array (Option Nat)) (r i : Nat)
    (parents : Array (Option BlockIndex)) : Prop extends Tree g order numbers parents where
  present : ∀ b ∈ order, place numbers b < i ∨ 1 ≤ r → (parent? parents b).isSome = true
  early : ∀ b p j, b ≠ ⟨0⟩ → parent? parents b = some p → place numbers b < i → j ≤ r →
    ¬ g.Avoids (place numbers) p j b
  late : ∀ b p j, b ≠ ⟨0⟩ → parent? parents b = some p → j < r → ¬ g.Avoids (place numbers) p j b

/-- The predecessors that are listed are those from which control can come. -/
def Listed (g : Graph) : Prop :=
  ∀ b u, b.index < g.blocks.size → (u ∈ ((g.block? b).map (·.predecessors)).getD [] ↔
    b ∈ g.successors u)

theorem parent?_setIfInBounds (hb : b.index < parents.size) :
    parent? (parents.setIfInBounds b.index (some p)) v = if v = b then some p else parent? parents
      v := by
  simp only [parent?, Array.getElem?_setIfInBounds]
  by_cases hv : v = b
  · subst hv
    simp [hb]
  · have hne : b.index ≠ v.index := fun he => hv (BlockIndex.eq_of_index he.symm)
    simp [hv, hne]

/-- Computing a parent anew. -/
theorem refine_parent? (changed : Bool) (hb : b.index < parents.size)
    (hp : parentFromPredecessors parents numbers (((g.block? b).map (·.predecessors)).getD [])
      = some p) :
    (refine g numbers (parents, changed) b).1.size = parents.size ∧
      ∀ v, parent? (refine g numbers (parents, changed) b).1 v = if v = b then some p else parent?
        parents v := by
  simp only [refine, hp]
  split
  · rename_i he
    refine ⟨rfl, fun v => ?_⟩
    by_cases hv : v = b
    · rw [if_pos hv, hv]
      exact he
    · rw [if_neg hv]
  · exact ⟨by simp, fun v => parent?_setIfInBounds hb⟩

/-- The parent that is computed for a block at its place. -/
theorem Round.refine (h : Round g order numbers r (place numbers b) parents)
    (hn : g.Numbered order numbers) (hl : Listed g) (hb : b ∈ order) (hb₀ : b ≠ ⟨0⟩)
    (changed : Bool) :
    Round g order numbers r (place numbers b + 1) (Dominators.refine g numbers (parents, changed)
      b).1 := by
  have hrange := hn.range b hb
  obtain ⟨u, hu, hub, hlt⟩ := hn.forward_predecessor hb hb₀
  have husome := h.present u hu (.inl hlt)
  obtain ⟨p, hp, hbelow, hlow⟩ := h.toTree.parentFromPredecessors_spec hn ((hl b u hrange).2 hub)
    husome
  obtain ⟨hsize, hparent⟩ := refine_parent? changed (by rw [h.size]; exact hrange) hp
  generalize (Dominators.refine g numbers (parents, changed) b).1 = parents' at hsize hparent
  -- what the new parent has to do with the predecessors
  have hpu : Anc parents p u := hbelow u ((hl b u hrange).2 hub) husome
  have hplace : place numbers p < place numbers b := by
    have := h.toTree.place_le hpu
    omega
  have hsound (j : Nat) (hj : j ≤ r) : ¬ g.Avoids (place numbers) p j b := by
    intro havoid
    cases havoid with
    | entry _ => exact hb₀ rfl
    | @forward _ v _ hv hvb hvlt _ =>
      have hvsome := h.present v (hn.mem_of_avoids hv) (.inl hvlt)
      refine h.toTree.not_avoids (hbelow v ((hl b v hrange).2 hvb) hvsome) (fun w q hw hle hq => ?_)
        hv
      exact h.early w q j hw hq (by omega) hj
    | @back k v _ hv hvb _ _ =>
      have hvsome := h.present v (hn.mem_of_avoids hv) (.inr (by omega))
      refine h.toTree.not_avoids (hbelow v ((hl b v hrange).2 hvb) hvsome) (fun w q hw _ hq => ?_)
        hv
      exact h.late w q k hw hq (by omega)
  have hcomplete (y : BlockIndex) (hy : y ≠ b) (hyb : ¬ g.Bypass y b) : ¬ g.Bypass y p := by
    have hyv (v : BlockIndex) (hv : b ∈ g.successors v) : ¬ g.Bypass y v :=
      fun hbypass => hyb (.step hbypass hv (Ne.symm hy))
    have hyp : Anc parents y p := hlow y fun v hv hsome => h.toTree.anc_of_not_bypass hsome
      (hyv v ((hl b v hrange).1 hv))
    by_cases he : y = p
    · intro hbypass
      obtain ⟨k, hk⟩ : ∃ k, g.Avoids (place numbers) y k p := hbypass.avoids
      exact hk.ne he.symm
    · intro hbypass
      obtain ⟨k, hk⟩ : ∃ k, g.Avoids (place numbers) y k p := hbypass.avoids
      have hplain : ¬ g.Avoids (place numbers) p 0 u :=
        h.toTree.not_avoids hpu fun w q hw _ hq => h.plain w q hw hq
      have hclimb := (hn.climbs hu).from_of_not_avoids hplain
      exact hyv u hub (hk.climb hclimb (h.toTree.place_lt hyp he)).bypass
  have hsome (v : BlockIndex) (hv : (parent? parents v).isSome = true) :
    (parent? parents' v).isSome = true := by
    rw [hparent]
    split
    · rfl
    · exact hv
  refine ⟨⟨hsize.trans h.size, ?_, ?_, ?_, ?_⟩, ?_, ?_, ?_⟩
  · rw [hparent, if_neg (Ne.symm hb₀)]
    exact h.root
  · intro v q hv hq
    rw [hparent] at hq
    split at hq
    · rename_i hvb
      cases hq
      exact ⟨hvb ▸ hb, hsome p hpu.isSome_left, hvb ▸ hplace⟩
    · obtain ⟨hmem, hqsome, hqlt⟩ := h.above v q hv hq
      exact ⟨hmem, hsome q hqsome, hqlt⟩
  · intro v q hv hq
    rw [hparent] at hq
    split at hq
    · rename_i hvb
      cases hq
      exact hvb ▸ hsound 0 (Nat.zero_le r)
    · exact h.plain v q hv hq
  · intro v q y hv hq hy hyv
    rw [hparent] at hq
    split at hq
    · rename_i hvb
      cases hq
      exact hcomplete y (hvb ▸ hy) (hvb ▸ hyv)
    · exact h.complete v q y hv hq hy hyv
  · intro v hv hcase
    by_cases hvb : v = b
    · rw [hparent, if_pos hvb]
      rfl
    · refine hsome v (h.present v hv (hcase.imp_left fun hlt => ?_))
      have hne : place numbers v ≠ place numbers b := fun he => hvb (hn.place_injective hv hb he)
      omega
  · intro v q j hv hq hlt hj
    rw [hparent] at hq
    split at hq
    · rename_i hvb
      cases hq
      exact hvb ▸ hsound j hj
    · rename_i hvb
      have hmem := (h.above v q hv hq).1
      have hne : place numbers v ≠ place numbers b := fun he => hvb (hn.place_injective hmem hb he)
      exact h.early v q j hv hq (by omega) hj
  · intro v q j hv hq hj
    rw [hparent] at hq
    split at hq
    · rename_i hvb
      cases hq
      exact hvb ▸ hsound j (by omega)
    · exact h.late v q j hv hq hj

/-- Going over the rest of the order. -/
theorem Round.foldl (hn : g.Numbered order numbers) (hl : Listed g) (l₁ l₂ : List BlockIndex)
    (horder : order = l₁ ++ l₂) (hne : l₁ ≠ []) (h : Round g order numbers r l₁.length parents)
    (changed : Bool) :
    Round g order numbers r order.length (l₂.foldl (Dominators.refine g numbers) (parents,
      changed)).1 := by
  induction l₂ generalizing l₁ parents changed with
  | nil =>
    rw [List.append_nil] at horder
    rw [horder] at h ⊢
    exact h
  | cons b l₂ ih =>
    have hb : b ∈ order := by rw [horder]; simp
    have hplace : place numbers b = l₁.length := hn.place _ b (by rw [horder]; simp)
    have hb₀ : b ≠ ⟨0⟩ := by
      rintro rfl
      rw [hn.place_entry] at hplace
      exact hne (List.eq_nil_of_length_eq_zero hplace.symm)
    have hstep := Round.refine (hplace ▸ h) hn hl hb hb₀ changed
    rw [hplace] at hstep
    have hnext : Round g order numbers r (l₁ ++ [b]).length
      (Dominators.refine g numbers (parents, changed) b).1 := by
      simpa using hstep
    exact ih (l₁ ++ [b]) (by rw [horder]; simp) (by simp) hnext _

/-- After a round, the next one begins. -/
theorem Round.next (hn : g.Numbered order numbers)
    (h : Round g order numbers r order.length parents) :
    Round g order numbers (r + 1) 1 parents := by
  have hlt (b : BlockIndex) (hb : b ∈ order) : place numbers b < order.length := by
    obtain ⟨i, hi⟩ := List.getElem?_of_mem hb
    rw [hn.place i b hi]
    exact (List.getElem?_eq_some_iff.1 hi).1
  refine ⟨h.toTree, fun b hb _ => h.present b hb (.inl (hlt b hb)), fun b p j hb hp hplace => ?_,
    fun b p j hb hp hj => ?_⟩
  · have hzero : place numbers b = 0 := by omega
    rw [← hn.place_entry] at hzero
    exact absurd (hn.place_injective (h.above b p hb hp).1 hn.entry_mem hzero) hb
  · exact h.early b p j hb hp (hlt b (h.above b p hb hp).1) (by omega)

/-- A round that changes nothing. -/
theorem foldl_refine_unchanged {l : List BlockIndex} {changed : Bool}
    (h : (l.foldl (Dominators.refine g numbers) (parents, changed)).2 = false) :
    changed = false ∧ (l.foldl (Dominators.refine g numbers) (parents, changed)).1 = parents := by
  induction l generalizing parents changed with
  | nil => exact ⟨h, rfl⟩
  | cons b l ih =>
    rw [List.foldl_cons] at h ⊢
    obtain ⟨hflag, hsame⟩ := ih h
    have hstep : (Dominators.refine g numbers (parents, changed) b).2 = false →
        changed = false ∧ (Dominators.refine g numbers (parents, changed) b).1 = parents := by
      intro hfalse
      rw [Dominators.refine] at hfalse ⊢
      split at hfalse
      · exact ⟨hfalse, rfl⟩
      · split at hfalse
        · rename_i hp he
          rw [if_pos he]
          exact ⟨hfalse, rfl⟩
        · cases hfalse
    obtain ⟨hchanged, hparents⟩ := hstep hflag
    exact ⟨hchanged, hsame.trans hparents⟩

/-- The parents on which the computation settles lie on all paths that go back less often than there
are rounds. -/
theorem Round.settle (hn : g.Numbered order numbers) (hl : Listed g) (rounds : Nat)
    (h : Round g order numbers r 1 parents) :
    Tree g order numbers (Dominators.settle g numbers order.tail rounds parents) ∧
      (1 ≤ r + rounds → ∀ b ∈ order,
        (parent? (Dominators.settle g numbers order.tail rounds parents) b).isSome = true) ∧
      ∀ b p j, b ≠ ⟨0⟩ → parent? (Dominators.settle g numbers order.tail rounds parents)
        b = some p → j < r + rounds →
        ¬ g.Avoids (place numbers) p j b := by
  obtain ⟨rest, hrest⟩ := hn.entry
  have hround {r : Nat} {parents : Array (Option BlockIndex)}
    (h : Round g order numbers r 1 parents) :
      Round g order numbers (r + 1) 1 (order.tail.foldl (Dominators.refine g numbers) (parents,
        false)).1 :=
    .next hn (.foldl hn hl [⟨0⟩] order.tail (by rw [hrest]; rfl) (by simp) h false)
  induction rounds generalizing r parents with
  | zero =>
    exact ⟨h.toTree, fun hr b hb => h.present b hb (.inr hr), fun b p j hb hp hj => h.late b p j hb
      hp hj⟩
  | succ rounds ih =>
    have hnext := hround h
    rw [Dominators.settle]
    generalize hfold : order.tail.foldl (Dominators.refine g numbers) (parents, false) = s at hnext
    obtain ⟨parents', changed⟩ := s
    cases changed with
    | true =>
      obtain ⟨htree, hpresent, hlevel⟩ := ih hnext
      exact ⟨htree, fun _ => hpresent (by omega), fun b p j hb hp hj => hlevel b p j hb hp
        (by omega)⟩
    | false =>
      -- nothing changed, and so nothing will change in any further round
      have hsame : parents' = parents := by
        have hflag : (order.tail.foldl (Dominators.refine g numbers) (parents, false)).2 = false :=
          by rw [hfold]
        have hkept := (foldl_refine_unchanged hflag).2
        rwa [hfold] at hkept
      subst hsame
      have hall (m : Nat) : Round g order numbers (r + 1 + m) 1 parents' := by
        induction m with
        | zero => exact hnext
        | succ m ihm =>
          have := hround ihm
          rw [hfold] at this
          exact this
      refine ⟨h.toTree, fun _ b hb => hnext.present b hb (.inr (by omega)), fun b p j hb hp _ => ?_⟩
      exact (hall j).late b p j hb hp (by omega)

/-! ## The computed tree -/

/-- Numbering the blocks of a list from `k` on. -/
theorem foldl_number (l : List BlockIndex) (k : Nat) (numbers : Array (Option Nat)) (hnd : l.Nodup)
    (hl : ∀ b ∈ l, b.index < numbers.size) :
    ((l.zipIdx k).foldl (fun a (b, i) => a.setIfInBounds b.index (some i)) numbers).size
      = numbers.size ∧
      (∀ b ∉ l, ((l.zipIdx k).foldl (fun a (b, i) => a.setIfInBounds b.index (some i))
        numbers)[b.index]? =
        numbers[b.index]?) ∧
      ∀ i b, l[i]? = some b →
        ((l.zipIdx k).foldl (fun a (b, i) => a.setIfInBounds b.index (some i)) numbers)[b.index]?
          = some (some (k + i)) := by
  induction l generalizing k numbers with
  | nil => exact ⟨rfl, fun _ _ => rfl, by simp⟩
  | cons c l ih =>
    obtain ⟨hc, hnd⟩ := List.nodup_cons.1 hnd
    obtain ⟨hsize, hother, hplace⟩ := ih (k + 1) (numbers.setIfInBounds c.index (some k)) hnd
      (fun b hb => by simpa using hl b (by simp [hb]))
    rw [List.zipIdx_cons, List.foldl_cons]
    refine ⟨by simpa using hsize, fun b hb => ?_, fun i b hi => ?_⟩
    · rw [hother b fun hmem => hb (by simp [hmem])]
      have hne : c.index ≠ b.index := fun he => hb (by rw [BlockIndex.eq_of_index he]; simp)
      rw [Array.getElem?_setIfInBounds_ne hne]
    · cases i with
      | zero =>
        obtain rfl : c = b := by simpa using hi
        rw [hother c hc]
        rw [Array.getElem?_setIfInBounds_self, if_pos (hl c (by simp))]
        rfl
      | succ i =>
        rw [hplace i b (by simpa using hi)]
        congr 2
        omega

theorem numbered_compute (hg : g.SuccessorsExist) (hne : 0 < g.blocks.size) :
    g.Numbered g.reversePostorder (compute g).numbers := by
  have hord := Graph.reversePostorder_ordered hg hne
  obtain ⟨hsize, -, hplace⟩ :=
    foldl_number g.reversePostorder 0 (Array.replicate g.blocks.size none) hord.nodup
    (fun b hb => by simpa using hord.range b hb)
  refine ⟨hord, fun i b hi => ?_, ?_⟩
  · have hget := hplace i b hi
    rw [Nat.zero_add] at hget
    change ((compute g).numbers[b.index]?.join.getD _) = i
    rw [show (compute g).numbers[b.index]? = some (some i) from hget]
    rfl
  · have hnd : (g.reversePostorder.map (·.index)).Nodup := by
      refine List.Nodup.map ?_ hord.nodup
      exact fun a b he => BlockIndex.eq_of_index he
    have hsub : (g.reversePostorder.map (·.index)) ⊆ List.range g.blocks.size := by
      intro i hi
      obtain ⟨b, hb, rfl⟩ := List.mem_map.1 hi
      exact List.mem_range.2 (hord.range b hb)
    have hlen := (List.subperm_of_subset hnd hsub).length_le
    simpa using hlen

theorem round_initial (hg : g.SuccessorsExist) (hne : 0 < g.blocks.size) :
    Round g g.reversePostorder (compute g).numbers 0 1
      ((Array.replicate g.blocks.size none).setIfInBounds 0 (some ⟨0⟩)) := by
  have hn := numbered_compute hg hne
  have hparent (v : BlockIndex) : parent? ((Array.replicate g.blocks.size none).setIfInBounds 0
    (some ⟨0⟩)) v =
      if v = ⟨0⟩ then some ⟨0⟩ else none := by
    have hrange : (⟨0⟩ : BlockIndex).index < (Array.replicate g.blocks.size
      (none : Option BlockIndex)).size := by
      simpa using hne
    rw [show (0 : Nat) = (⟨0⟩ : BlockIndex).index from rfl, parent?_setIfInBounds hrange]
    congr 1
    simp only [parent?, Array.getElem?_replicate]
    split <;> rfl
  have hnone {b p : BlockIndex} (hb : b ≠ ⟨0⟩)
      (hp : parent? ((Array.replicate g.blocks.size none).setIfInBounds 0 (some ⟨0⟩)) b = some p) :
        False := by
    rw [hparent, if_neg hb] at hp
    cases hp
  refine ⟨⟨by simp, by rw [hparent]; rfl, ?_, ?_, ?_⟩, fun b hb hcase => ?_, ?_, ?_⟩
  · exact fun b p hb hp => (hnone hb hp).elim
  · exact fun b p hb hp => (hnone hb hp).elim
  · exact fun b p y hb hp => (hnone hb hp).elim
  · have hzero : place (compute g).numbers b = 0 := by omega
    rw [← hn.place_entry] at hzero
    rw [hparent, if_pos (hn.place_injective hb hn.entry_mem hzero)]
    rfl
  · exact fun b p j hb hp => (hnone hb hp).elim
  · exact fun b p j hb hp => (hnone hb hp).elim

/-- The computed tree is that of the dominators. -/
theorem compute_tree (hg : g.SuccessorsExist) (hne : 0 < g.blocks.size) (hl : Listed g) :
    Tree g g.reversePostorder (compute g).numbers (compute g).parents ∧
      (∀ b ∈ g.reversePostorder, (parent? (compute g).parents b).isSome = true) ∧
      ∀ b p, b ≠ ⟨0⟩ → parent? (compute g).parents b = some p → ¬ g.Bypass p b := by
  obtain ⟨htree, hpresent, hlevel⟩ := (round_initial hg hne).settle (numbered_compute hg hne) hl
    (g.blocks.size * g.blocks.size + 1)
  refine ⟨htree, hpresent (by omega), fun b p hb hp hbypass => ?_⟩
  have hsize : g.blocks.size ≤ g.blocks.size * g.blocks.size := Nat.le_mul_of_pos_left _ hne
  exact hlevel b p g.blocks.size hb hp (by omega) (hbypass.avoids_size hg hne)

namespace Tree

/-- What is above a block is a dominator, if parents are. -/
theorem not_bypass (h : Tree g order numbers parents)
    (hsound : ∀ b p, b ≠ ⟨0⟩ → parent? parents b = some p → ¬ g.Bypass p b) (ha : Anc parents a b) :
    ¬ g.Bypass a b := by
  intro hbypass
  obtain ⟨k, hk⟩ : ∃ k, g.Avoids (place numbers) a k b := hbypass.avoids
  exact h.not_avoids ha (fun v p hv _ hp havoid => hsound v p hv hp havoid.bypass) hk

/-- The blocks above one block lie in a line. -/
theorem total (ha : Anc parents a c) (hb : Anc parents b c) :
    Anc parents a b ∨ Anc parents b a := by
  induction ha with
  | refl _ => exact .inr hb
  | @up c p hp hc _ ih =>
    by_cases he : b = c
    · subst he
      rename_i hap
      exact .inl (.up hp hc hap)
    · obtain ⟨q, hq, -, hbq⟩ := hb.strict he
      rw [hp] at hq
      cases hq
      exact ih hbq

theorem antisymm (h : Tree g order numbers parents) (hab : Anc parents a b) (hba : Anc parents b a)
    : a = b := by
  by_contra hne
  have := h.place_lt hab hne
  have := h.place_le hba
  omega

end Tree

variable {d : Dominators}

theorem idom?_eq_some (h : Tree g order numbers d.parents) :
    d.idom? b = some p ↔ b ≠ ⟨0⟩ ∧ parent? d.parents b = some p := by
  rw [idom?, show d.parents[b.index]?.join = parent? d.parents b from rfl]
  by_cases hb : b = ⟨0⟩
  · subst hb
    simp [h.root]
  · cases hp : parent? d.parents b with
    | none => simp
    | some q =>
      have hne : q ≠ b := by
        rintro rfl
        have := (h.above q q hb hp).2.2
        omega
      simp [hne, hb]

theorem isAncestor_iff (h : Tree g order numbers d.parents) {steps : Nat}
    (hb : (parent? d.parents b).isSome = true) (hsteps : place numbers b < steps) :
    d.isAncestor steps a b = true ↔ Anc d.parents a b := by
  induction steps generalizing b with
  | zero => omega
  | succ steps ih =>
    rw [isAncestor]
    by_cases hab : a = b
    · subst hab
      simpa using Anc.refl hb
    · rw [if_neg hab]
      cases hp : d.idom? b with
      | none =>
        simp only [Bool.false_eq_true, false_iff]
        intro ha
        obtain ⟨p, hp', hb₀, -⟩ := ha.strict hab
        rw [(idom?_eq_some h).2 ⟨hb₀, hp'⟩] at hp
        cases hp
      | some p =>
        obtain ⟨hb₀, hp'⟩ := (idom?_eq_some h).1 hp
        obtain ⟨-, hsome, hlt⟩ := h.above b p hb₀ hp'
        refine (ih hsome (by omega)).trans ⟨fun ha => .up hp' hb₀ ha, fun ha => ?_⟩
        obtain ⟨q, hq, -, haq⟩ := ha.strict hab
        rw [hp'] at hq
        cases hq
        exact haq

/-- A block dominates another one if control can come to the second, and not past the first. -/
theorem dominates_iff (hg : g.SuccessorsExist) (hne : 0 < g.blocks.size) (hl : Listed g) :
    (compute g).dominates a b = true ↔ b ∈ g.reversePostorder ∧ ¬ g.Bypass a b := by
  obtain ⟨htree, hpresent, hsound⟩ := compute_tree hg hne hl
  have hn := numbered_compute hg hne
  have hiff (hb : (parent? (compute g).parents b).isSome = true) :
      (compute g).isAncestor (compute g).parents.size a b = true ↔ Anc (compute g).parents a b := by
    refine isAncestor_iff htree hb ?_
    rw [htree.size]
    exact hn.place_lt (htree.mem hn hb)
  simp only [dominates, Bool.and_eq_true]
  constructor
  · rintro ⟨⟨-, hb⟩, hanc⟩
    exact ⟨htree.mem hn hb, htree.not_bypass hsound ((hiff hb).1 hanc)⟩
  · rintro ⟨hb, hnot⟩
    have hbsome := hpresent b hb
    have hanc := htree.anc_of_not_bypass hbsome hnot
    exact ⟨⟨hanc.isSome_left, hbsome⟩, (hiff hbsome).2 hanc⟩

/-- What dominates a block but not itself dominates all its predecessors. -/
theorem dominates_predecessor (hg : g.SuccessorsExist) (hne : 0 < g.blocks.size) (hl : Listed g)
    (hu : u ∈ g.reversePostorder) (hv : v ∈ g.successors u) (ha : (compute g).dominates a v = true)
    (hav : a ≠ v) :
    (compute g).dominates a u = true := by
  rw [dominates_iff hg hne hl] at ha ⊢
  exact ⟨hu, fun hbypass => ha.2 (.step hbypass hv (Ne.symm hav))⟩

/-! ## The order of the tree -/

theorem flatMap_split {α β : Type} {f : α → List β} {cs : List α} {l₁ l₂ : List β} {d : β}
    (h : cs.flatMap f = l₁ ++ d :: l₂) :
    ∃ c ∈ cs, ∃ m₁ m₂, f c = m₁ ++ d :: m₂ ∧ ∀ x ∈ m₁, x ∈ l₁ := by
  induction cs generalizing l₁ with
  | nil => simp at h
  | cons c cs ih =>
    rw [List.flatMap_cons] at h
    rcases List.append_eq_append_iff.1 h with ⟨m, hm, hrest⟩ | ⟨m, hm, hrest⟩
    · obtain ⟨c', hc', m₁, m₂, hf, hsub⟩ := ih hrest
      exact ⟨c', by simp [hc'], m₁, m₂, hf, fun x hx => by rw [hm]; simp [hsub x hx]⟩
    · cases m with
      | nil =>
        have htail : cs.flatMap f = [] ++ d :: l₂ := by simpa using hrest.symm
        obtain ⟨c', hc', m₁, m₂, hf, hsub⟩ := ih htail
        exact ⟨c', by simp [hc'], m₁, m₂, hf, fun x hx => by cases hsub x hx⟩
      | cons d' m =>
        rw [List.cons_append, List.cons.injEq] at hrest
        obtain ⟨rfl, -⟩ := hrest
        exact ⟨c, by simp, l₁, m, hm, fun x hx => hx⟩

theorem mem_subtree (h : Tree g order numbers d.parents) {depth : Nat}
    (hb : (parent? d.parents b).isSome = true) (hc : c ∈ d.subtree depth b) :
    Anc d.parents b c := by
  induction depth generalizing b with
  | zero => cases hc
  | succ depth ih =>
    rw [subtree] at hc
    rcases List.mem_cons.1 hc with rfl | hc
    · exact .refl hb
    · obtain ⟨e, he, hce⟩ := List.mem_flatMap.1 hc
      have hidom : d.idom? e = some b := by simpa using (List.mem_filter.1 he).2
      obtain ⟨he₀, hp⟩ := (idom?_eq_some h).1 hidom
      exact (Anc.up hp he₀ (.refl hb)).trans (ih (by rw [hp]; rfl) hce)

/-- In a subtree, what lies between its root and a block comes before the block. -/
theorem subtree_before (h : Tree g order numbers d.parents) {depth : Nat} {l₁ l₂ : List BlockIndex}
    (hb : (parent? d.parents b).isSome = true) (hs : d.subtree depth b = l₁ ++ c :: l₂)
    (hac : Anc d.parents a c) (hba : Anc d.parents b a) (hne : a ≠ c) : a ∈ l₁ := by
  induction depth generalizing b l₁ l₂ with
  | zero => simp [subtree] at hs
  | succ depth ih =>
    rw [subtree] at hs
    cases l₁ with
    | nil =>
      rw [List.nil_append, List.cons.injEq] at hs
      obtain ⟨rfl, -⟩ := hs
      exact absurd (h.antisymm hac hba) hne
    | cons b' l₁ =>
      rw [List.cons_append, List.cons.injEq] at hs
      obtain ⟨rfl, hs⟩ := hs
      by_cases hab : a = b
      · simp [hab]
      obtain ⟨e, he, m₁, m₂, hm, hsub⟩ := flatMap_split hs
      have hidom : d.idom? e = some b := by simpa using (List.mem_filter.1 he).2
      obtain ⟨he₀, hp⟩ := (idom?_eq_some h).1 hidom
      have hesome : (parent? d.parents e).isSome = true := by rw [hp]; rfl
      have hec : Anc d.parents e c := mem_subtree h hesome (by rw [hm]; simp)
      have hea : Anc d.parents e a := by
        rcases Tree.total hec hac with hea | hae
        · exact hea
        · by_cases he : a = e
          · subst he
            exact .refl hesome
          · obtain ⟨q, hq, -, haq⟩ := hae.strict he
            rw [hp] at hq
            cases hq
            exact absurd (h.antisymm haq hba) hab
      exact List.mem_cons_of_mem _ (hsub a (ih hesome hm hea))

/-- The order in which the tree is gone through: a block comes after its dominators. -/
theorem preOrder_before (hg : g.SuccessorsExist) (hne : 0 < g.blocks.size) (hl : Listed g)
    {l₁ l₂ : List BlockIndex} (hs : (compute g).preOrder = l₁ ++ b :: l₂) :
    b ∈ g.reversePostorder ∧ ∀ a, (compute g).dominates a b = true → a ≠ b → a ∈ l₁ := by
  obtain ⟨htree, hpresent, hsound⟩ := compute_tree hg hne hl
  have hn := numbered_compute hg hne
  have hroot : (parent? (compute g).parents ⟨0⟩).isSome = true := by rw [htree.root]; rfl
  have hmem : Anc (compute g).parents ⟨0⟩ b :=
    mem_subtree htree hroot (by rw [← preOrder, hs]; simp)
  refine ⟨htree.mem hn hmem.isSome, fun a ha hab => ?_⟩
  have hanc := htree.anc_of_not_bypass hmem.isSome ((dominates_iff hg hne hl).1 ha).2
  have hstart : ¬ g.Bypass ⟨0⟩ a := fun hbypass => hbypass.ne_entry rfl
  exact subtree_before htree hroot hs hanc (htree.anc_of_not_bypass hanc.isSome_left hstart) hab

theorem children_nodup (d : Dominators) (b : BlockIndex) : (d.children b).Nodup :=
  ((List.nodup_range).map fun _ _ h => BlockIndex.mk.inj h).filter _

/-- A subtree lists no block twice. -/
theorem subtree_nodup (h : Tree g order numbers d.parents) {depth : Nat}
    (hb : (parent? d.parents b).isSome = true) :
    (d.subtree depth b).Nodup := by
  induction depth generalizing b with
  | zero => exact .nil
  | succ depth ih =>
    have hchild (e : BlockIndex) (he : e ∈ d.children b) : e ≠ ⟨0⟩ ∧ parent? d.parents e = some b :=
      (idom?_eq_some h).1 (by simpa using (List.mem_filter.1 he).2)
    have hsome (e : BlockIndex) (he : e ∈ d.children b) : (parent? d.parents e).isSome = true := by
      rw [(hchild e he).2]
      rfl
    -- a child is not above its parent
    have hbelow (e : BlockIndex) (he : e ∈ d.children b) : ¬ Anc d.parents e b := fun hanc => by
      have := h.place_le hanc
      have := (h.above e b (hchild e he).1 (hchild e he).2).2.2
      omega
    rw [subtree, List.nodup_cons, List.nodup_flatMap]
    refine ⟨fun hmem => ?_, fun e he => ih (hsome e he), ?_⟩
    · obtain ⟨e, he, hbe⟩ := List.mem_flatMap.1 hmem
      exact hbelow e he (mem_subtree h (hsome e he) hbe)
    · refine (children_nodup d b).imp_of_mem fun {e e'} he he' hne => ?_
      intro c hc hc'
      have hec := mem_subtree h (hsome e he) hc
      have hec' := mem_subtree h (hsome e' he') hc'
      rcases Tree.total hec hec' with hanc | hanc
      · obtain ⟨q, hq, -, hanc⟩ := hanc.strict hne
        rw [(hchild e' he').2] at hq
        cases hq
        exact hbelow e he hanc
      · obtain ⟨q, hq, -, hanc⟩ := hanc.strict hne.symm
        rw [(hchild e he).2] at hq
        cases hq
        exact hbelow e' he' hanc

theorem preOrder_nodup (hg : g.SuccessorsExist) (hne : 0 < g.blocks.size) (hl : Listed g) :
    (compute g).preOrder.Nodup := by
  obtain ⟨htree, -, -⟩ := compute_tree hg hne hl
  exact subtree_nodup htree (by rw [htree.root]; rfl)

end Dominators

end SpecJit
