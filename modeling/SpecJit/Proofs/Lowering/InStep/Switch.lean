import SpecJit.Proofs.Lowering.InStep.Elements

/-!
# Switches of two lowerings in step

The blocks that a switch goes to are given side by side (`TwinTargets`), and so are the blocks that
it makes for its groups of cases (`TwinArms`). Everything else that decides where a switch goes is
the same on both sides.
-/

namespace SpecJit.Lowering

open Lir

variable {α β κ ι : Type} {E : Setting} {Γ Δ : List Link} {π : Pairing}

/-! ## Lists of results -/

/-- Steps one by one whose results are given side by side. -/
theorem inStep_mapM_each {l r : ι → β} {P : ι → List Link} {f g : α → Lower β} {as : List α}
    (hf : ∀ Γ a, InStep E Γ (f a) (g a) l r P) :
    InStep E Γ (as.mapM f) (as.mapM g) (fun is : List ι => is.map l) (fun is => is.map r) fun is =>
      is.flatMap P := by
  induction as generalizing Γ with
  | nil =>
    rw [List.mapM_nil, List.mapM_nil]
    exact inStep_pure [] rfl rfl fun _ => .nil
  | cons a as ih =>
    rw [List.mapM_cons, List.mapM_cons]
    refine .bind (hf Γ a) fun i => .bind ih fun is => inStep_pure (i :: is) rfl rfl
      fun hΓ L hL => ?_
    rw [List.flatMap_cons, List.mem_append] at hL
    rcases hL with hL | hL
    · exact hΓ L (by simp [hL])
    · exact hΓ L (List.mem_append_left _ hL)

/-- Elements that are given side by side are used one by one. -/
theorem inStep_forM_each {l r : ι → α} {f g : α → Lower Unit} {is : List ι}
    (hf : ∀ i ∈ is, Alike E Γ (f (l i)) (g (r i))) :
    Alike E Γ ((is.map l).forM f) ((is.map r).forM g) := by
  induction is with
  | nil => exact inferInstanceAs (Alike E Γ (pure PUnit.unit : Lower PUnit) (pure PUnit.unit))
  | cons i is ih =>
    refine .bind (hf i (by simp)) fun _ => ?_
    exact ih fun j hj => hf j (by simp [hj])

/-! ## Targets -/

/-- Targets that are given side by side. -/
structure TargetPairs where
  blocks : List (BlockIndex × BlockId × BlockId)
  fallback : BlockId × BlockId

namespace TargetPairs

variable (t : TargetPairs)

def left : Targets where
  blocks := t.blocks.map fun b => (b.1, b.2.1)
  fallback := t.fallback.1

def right : Targets where
  blocks := t.blocks.map fun b => (b.1, b.2.2)
  fallback := t.fallback.2

def links : List Link :=
  .block t.fallback.1 t.fallback.2 :: t.blocks.flatMap fun b => [.block b.2.1 b.2.2]

end TargetPairs

/-- Steps that give targets which go together. -/
abbrev TwinTargets (E : Setting) (Γ : List Link) (x y : Lower Targets) : Prop :=
  InStep E Γ x y TargetPairs.left TargetPairs.right TargetPairs.links

/-- The blocks of lists that are given side by side go together. -/
theorem forall₂_blocks {l : List (κ × BlockId × BlockId)} {R : BlockId → BlockId → Prop}
    (h : ∀ b ∈ l, R b.2.1 b.2.2) :
    List.Forall₂ (fun p p' => p.1 = p'.1 ∧ R p.2 p'.2) (l.map fun b => (b.1, b.2.1))
      (l.map fun b => (b.1, b.2.2)) := by
  rw [List.forall₂_map_left_iff, List.forall₂_map_right_iff, List.forall₂_same]
  exact fun b hb => ⟨rfl, h b hb⟩

theorem mem_links {l : List (κ × BlockId × BlockId)} {b : κ × BlockId × BlockId} (h : b ∈ l) :
    Link.block b.2.1 b.2.2 ∈ l.flatMap fun b => [.block b.2.1 b.2.2] :=
      List.mem_flatMap.2 ⟨b, h, by simp⟩

instance (data : SwitchData) : TwinTargets E Γ (switchTargets data) (switchTargets data) := by
  have hblocks : InStep E Γ ((firstOfEach id (data.cases.map (·.target))).mapM fun t =>
    return (t, ← successorBlock t))
      ((firstOfEach id (data.cases.map (·.target))).mapM fun t => return (t, ← successorBlock t))
      (fun is : List (BlockIndex × BlockId × BlockId) => is.map fun b => (b.1, b.2.1))
        (fun is => is.map fun b => (b.1, b.2.2))
      fun is => is.flatMap fun b => [.block b.2.1 b.2.2] :=
    inStep_mapM_each fun Γ t => .bind inferInstance fun q => inStep_pure (t, q) rfl rfl fun hΓ =>
      .one (hΓ _ (by simp))
  refine .bind hblocks fun is => ?_
  have hlookup (R : BlockId → BlockId → Prop) (h : ∀ b ∈ is, R b.2.1 b.2.2) :=
    lookup_forall₂ (forall₂_blocks h) data.fallThrough
  have hsame := hlookup (fun _ _ => True) fun _ _ => trivial
  generalize (is.map fun b => (b.1, b.2.1)).lookup data.fallThrough = o,
    (is.map fun b => (b.1, b.2.2)).lookup data.fallThrough = o' at hlookup hsame
  cases hsame with
  | none =>
    refine .bind inferInstance fun q => inStep_pure ⟨is, q⟩ rfl rfl fun hΓ => ?_
    exact .cons (hΓ _ (by simp)) (List.forall_mem_append.1 (List.forall_mem_append.1 hΓ).2).1
  | @some p p' =>
    refine inStep_pure ⟨is, p, p'⟩ rfl rfl fun {π} hΓ => .cons ?_ (List.forall_mem_append.1 hΓ).1
    cases hlookup π.blocks fun b hb =>
      hΓ (.block b.2.1 b.2.2) (List.mem_append_left _ (mem_links hb)) with
    | some h => exact h

/-- The links include those of all targets. -/
class GivesTargets (Γ : List Link) (t t' : Targets) : Prop where
  fallback : ∀ {π : Pairing}, π.Has Γ → π.blocks t.fallback t'.fallback
  get : ∀ {π : Pairing}, π.Has Γ → ∀ target, π.blocks (t.get target) (t'.get target)

instance (t : TargetPairs) : GivesTargets t.links t.left t.right where
  fallback hΓ := hΓ (.block t.fallback.1 t.fallback.2) (by simp [TargetPairs.links])
  get {π} hΓ target := by
    have hall : ∀ b ∈ t.blocks, π.blocks b.2.1 b.2.2 := fun b hb =>
      hΓ (.block b.2.1 b.2.2) (List.mem_cons_of_mem _ (mem_links hb))
    have hfallback : π.blocks t.fallback.1 t.fallback.2 :=
      hΓ (.block t.fallback.1 t.fallback.2) (by simp [TargetPairs.links])
    have hrel := lookup_forall₂ (forall₂_blocks hall) target
    unfold Targets.get TargetPairs.left TargetPairs.right
    dsimp only
    generalize (t.blocks.map fun b => (b.1, b.2.1)).lookup target = o,
      (t.blocks.map fun b => (b.1, b.2.2)).lookup target = o'
      at hrel
    cases hrel with
    | none => exact hfallback
    | some h => exact h

section

variable (t t' : Targets)

instance (L : Link) [h : GivesTargets Γ t t'] : GivesTargets (L :: Γ) t t' :=
  ⟨fun hΓ => h.fallback (List.forall_mem_cons.1 hΓ).2,
    fun hΓ => h.get (List.forall_mem_cons.1 hΓ).2⟩

instance [h : GivesTargets Γ t t'] : GivesTargets (Γ ++ Δ) t t' :=
  ⟨fun hΓ => h.fallback (List.forall_mem_append.1 hΓ).1,
    fun hΓ => h.get (List.forall_mem_append.1 hΓ).1⟩

instance [h : GivesTargets Γ t t'] : GivesTargets (Δ ++ Γ) t t' := 
  ⟨fun hΓ => h.fallback (List.forall_mem_append.1 hΓ).2,
    fun hΓ => h.get (List.forall_mem_append.1 hΓ).2⟩

variable [h : GivesTargets Γ t t']

instance : Gives Γ (.block t.fallback t'.fallback) := ⟨h.fallback⟩

instance (target : BlockIndex) : Gives Γ (.block (t.get target) (t'.get target)) :=
  ⟨fun hΓ => h.get hΓ target⟩

/-- The first elements with each key, of lists with the same keys. -/
theorem forall₂_firstOfEach [BEq κ] {R : α → β → Prop} {l : List (κ × α)} {l' : List (κ × β)}
    (h : List.Forall₂ (fun c c' => c.1 = c'.1 ∧ R c.2 c'.2) l l') :
    List.Forall₂ (fun c c' => c.1 = c'.1 ∧ R c.2 c'.2) (firstOfEach (·.1) l)
      (firstOfEach (·.1) l') := by
  induction h with
  | nil => exact .nil
  | cons hc _ ih =>
    exact .cons hc (List.rel_filter (fun b b' hb => by dsimp only; rw [hb.1, hc.1]) ih)

instance (data : SwitchData) : Gives Γ (.cases (numberCases data t) (numberCases data t')) where
  holds {π} hΓ := by
    refine forall₂_firstOfEach ?_
    refine List.rel_filterMap (fun c c' hc => ?_) (List.forall₂_same.2 fun c _ => (rfl : c = c))
    rw [← hc]
    cases c.number? with
    | none => exact .none
    | some n => exact .some ⟨rfl, h.get hΓ c.target⟩

/-- The number of the case that the runtime found. -/
instance (data : SwitchData) :
    Gives Γ (.cases (data.cases.zipIdx.map fun (c, i) => (Int32.ofNat i, t.get c.target))
    (data.cases.zipIdx.map fun (c, i) => (Int32.ofNat i, t'.get c.target))) where
  holds hΓ := by
    refine List.forall₂_map_left_iff.2
      (List.forall₂_map_right_iff.2 (List.forall₂_same.2 fun c _ => ?_))
    exact ⟨rfl, h.get hΓ c.1.target⟩

end

/-! ## Numbers and characters -/

section

variable (node : Node) (data : SwitchData)

set_option synthInstance.maxSize 50000 in
instance : Alike E Γ (lowerSwitchNumber node data) (lowerSwitchNumber node data) := by
  refine .bind inferInstance fun e => ?_
  split
  · infer_instance
  · -- in pieces: the whole is too large for one search
    refine .bind inferInstance fun value => .bind inferInstance fun targets => .bind inferInstance
      fun intBlock =>
      .bind inferInstance fun notInt => .bind inferInstance fun int => .bind inferInstance fun _ =>
      .bind inferInstance fun _ => .bind inferInstance fun narrow => .bind inferInstance fun _ => ?_
    infer_instance

section

variable (r r' : Reg) [Gives Γ (.reg r r')]

set_option synthInstance.maxSize 50000 in
instance (p p' : BlockId) [Gives Γ (.block p p')] :
    Alike E Γ (requireString r p) (requireString r' p') := by
  unfold requireString
  infer_instance

instance (t t' : Targets) [GivesTargets Γ t t'] :
    Alike E Γ (switchByRuntime data t r) (switchByRuntime data t' r') := by
  unfold switchByRuntime
  infer_instance

instance : Twins E Γ (eightBitFlag r) (eightBitFlag r') := by unfold eightBitFlag; infer_instance

end

/-- Steps that give a register and targets which go together. -/
abbrev TwinOperands (E : Setting) (Γ : List Link) (x y : Lower (Reg × Targets)) : Prop :=
  InStep E Γ x y (fun i : (Reg × Reg) × TargetPairs => (i.1.1, i.2.left))
    (fun i => (i.1.2, i.2.right))
    fun i => .reg i.1.1 i.1.2 :: i.2.links

theorem inStep_operand (q : Reg × Reg) (t : TargetPairs) [hq : Gives Γ (.reg q.1 q.2)] :
    TwinOperands E (t.links ++ Γ) (pure (q.1, t.left)) (pure (q.2, t.right)) :=
  inStep_pure (q, t) rfl rfl fun hΓ => .cons (hq.holds (List.forall_mem_append.1 hΓ).2)
    (List.forall_mem_append.1 hΓ).1

instance : TwinOperands E Γ (stringOperand node data) (stringOperand node data) := by
  refine .bind inferInstance fun e => ?_
  split
  iterate 3 exact .bind inferInstance fun q => .bind inferInstance fun t => inStep_operand q t
  · refine .bind inferInstance fun q => .bind inferInstance fun t => .bind inferInstance fun _ => ?_
    exact inStep_operand q t
  · exact inStep_crash

set_option synthInstance.maxSize 50000 in
instance : Alike E Γ (lowerSwitchChar node data) (lowerSwitchChar node data) := by
  refine .bind inferInstance fun q => .bind inferInstance fun impl => .bind inferInstance
    fun rope =>
    .bind inferInstance fun resolved => .bind inferInstance fun ropeBlock => .bind inferInstance
      fun _ =>
    .bind inferInstance fun _ => .bind inferInstance fun _ => ?_
  infer_instance

/-! ## Strings -/

/-- The blocks of arms that are given side by side. -/
theorem inStep_makeArms (arms : List (Nat × List StringCase)) :
    InStep E Γ (arms.mapM fun (n, cases) => return (n, ← Emit.createBlock false, cases))
      (arms.mapM fun (n, cases) => return (n, ← Emit.createBlock false, cases))
      (fun is : List (Nat × (BlockId × BlockId) × List StringCase) => is.map fun a => (a.1, a.2.1.1,
        a.2.2))
      (fun is => is.map fun a => (a.1, a.2.1.2, a.2.2)) fun is => is.flatMap fun a =>
        [.block a.2.1.1 a.2.1.2] :=
  inStep_mapM_each fun Γ arm => .bind inferInstance fun q => inStep_pure (arm.1, q, arm.2) rfl rfl
    fun hΓ => .one (hΓ _ (by simp))

instance (L : List Link) : Within L (L ++ Γ) := ⟨List.subset_append_left L Γ⟩

section

variable (is : List (Nat × (BlockId × BlockId) × List StringCase))
  [h : Within (is.flatMap fun a => [.block a.2.1.1 a.2.1.2]) Γ]

/-- The blocks of arms that were made are those of the cases of a switch. -/
instance :
    Gives Γ (.cases ((is.map fun a => (a.1, a.2.1.1, a.2.2)).map fun a => (Int32.ofNat a.1, a.2.1))
    ((is.map fun a => (a.1, a.2.1.2, a.2.2)).map fun a => (Int32.ofNat a.1, a.2.1))) where
  holds hΓ := by
    rw [List.map_map, List.map_map]
    refine List.forall₂_map_left_iff.2
      (List.forall₂_map_right_iff.2 (List.forall₂_same.2 fun a ha => ⟨rfl, ?_⟩))
    exact hΓ (.block a.2.1.1 a.2.1.2) (h.sub (List.mem_flatMap.2 ⟨a, ha, by simp⟩))

/-- The arms are taken up one by one. -/
theorem inStep_forM_arms {f g : Nat × BlockId × List StringCase → Lower Unit}
    (hf : ∀ n cases p p', Gives Γ (.block p p') → Alike E Γ (f (n, p, cases)) (g (n, p', cases))) :
    Alike E Γ ((is.map fun a => (a.1, a.2.1.1, a.2.2)).forM f)
      ((is.map fun a => (a.1, a.2.1.2, a.2.2)).forM g) :=
  inStep_forM_each fun a ha => hf a.1 a.2.2 a.2.1.1 a.2.1.2
    ⟨fun hΓ => hΓ (.block a.2.1.1 a.2.1.2) (h.sub (List.mem_flatMap.2 ⟨a, ha, by simp⟩))⟩

end

set_option synthInstance.maxSize 50000 in
instance inStep_switchCharacters (r r' : Reg) (t t' : Targets) :
    ∀ (left place : Nat) (cases : List StringCase) (Γ : List Link)
    [Gives Γ (.reg r r')] [GivesTargets Γ t t'],
    Alike E Γ (switchCharacters r t left place cases) (switchCharacters r' t' left place cases)
  | 0, place, cases, Γ, _, _ => by
    unfold switchCharacters
    split <;> infer_instance
  | left + 1, place, cases, Γ, _, _ => by
    have ih := inStep_switchCharacters r r' t t' left (place + 1)
    unfold switchCharacters
    refine .bind inferInstance fun loaded => ?_
    split
    · infer_instance
    · exact .bind (inStep_makeArms _) fun is => inStep_then inferInstance fun _ =>
        inStep_forM_arms is fun _ _ _ _ _ => inferInstance

instance (t t' : Targets) (r r' : Reg) (cases : List StringCase) [GivesTargets Γ t t']
    [Gives Γ (.reg r r')] :
    Alike E Γ (switchInline data t r cases) (switchInline data t' r' cases) := by
  refine .bind inferInstance fun impl => .bind inferInstance fun fast => .bind inferInstance
    fun slow =>
    .bind inferInstance fun rope => .bind inferInstance fun resolved => .bind inferInstance fun _ =>
    .bind inferInstance fun _ => .bind inferInstance fun flag => .bind inferInstance fun _ =>
      .bind inferInstance fun _ =>
    .bind inferInstance fun _ => .bind inferInstance fun _ => .bind inferInstance fun length =>
    .bind inferInstance fun characters => .bind (inStep_makeArms _) fun is =>
      inStep_then inferInstance fun _ => ?_
  exact inStep_forM_arms is fun _ _ _ _ _ => inferInstance

instance : Alike E Γ (lowerSwitchString node data) (lowerSwitchString node data) := by
  refine .bind inferInstance fun q => inStep_read ?_
  rw [show stringCases? data E.leftEnv.options = stringCases? data E.env.options from rfl,
    show stringCases? data E.rightEnv.options = stringCases? data E.env.options from rfl]
  split <;> infer_instance

/-! ## Cells -/

instance : Alike E Γ (lowerSwitchCell node data) (lowerSwitchCell node data) := by
  refine .bind inferInstance fun e => .bind inferInstance fun value => .bind inferInstance
    fun targets =>
    inStep_then (inStep_forM fun c _ => ?_) fun _ => inferInstance
  split <;> infer_instance

instance : Alike E Γ (lowerSwitch node data) (lowerSwitch node data) := by
  unfold lowerSwitch
  split <;> infer_instance

end

end SpecJit.Lowering
