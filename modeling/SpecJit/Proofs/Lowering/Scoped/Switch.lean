import SpecJit.Proofs.Lowering.Proceeding
import SpecJit.Proofs.Lowering.Scoped.Control

/-!
# Switches keep to the scoping

A switch goes to blocks without parameters: to blocks of the graph, or to blocks on the edges to
them that hand over the values of phis. `Enterable` says that the blocks of the graph may be
entered; the targets of the switch may be gone to then, wherever its code branches off.
-/

namespace SpecJit

open Lir

/-! ## The targets of a switch -/

theorem Op.mem_addTarget {targets : List BlockIndex} {b t : BlockIndex} :
    t ∈ addTarget targets b ↔ t ∈ targets ∨ t = b := by
  rw [addTarget]
  split
  · rename_i h
    rw [List.contains_iff_mem] at h
    exact ⟨.inl, fun h' => h'.elim id fun e => e ▸ h⟩
  · simp

theorem Op.mem_foldl_addTarget {l targets : List BlockIndex} {t : BlockIndex} :
    t ∈ l.foldl addTarget targets ↔ t ∈ targets ∨ t ∈ l := by
  induction l generalizing targets with
  | nil => simp
  | cons b l ih => rw [List.foldl_cons, ih, mem_addTarget, List.mem_cons, or_assoc]

theorem Op.mem_successors_switch {data : SwitchData} {t : BlockIndex} :
    t ∈ (Op.switch data).successors ↔ t ∈ data.cases.map (·.target) ∨ t = data.fallThrough := by
  rw [successors, mem_addTarget, mem_foldl_addTarget]
  simp

namespace Lowering

variable {α β : Type} {strict : Bool} {env : Env} {Γ Δ : List Fact} {S S' : Scoping} {s s' : State}
  {u : Unit}

/-- The blocks of the graph may be entered. -/
def entries (g : Graph) (ts : List BlockIndex) : List Fact :=
  ts.map fun t => .leads [⟨t.index + 1⟩] (g.phiTypes t)

/-- Blocks of the graph may be entered according to the facts. -/
class Enterable (g : Graph) (Γ : List Fact) (ts : List BlockIndex) : Prop where
  leads : ∀ t ∈ ts, Leads Γ [⟨t.index + 1⟩] (g.phiTypes t)

instance (g : Graph) (ts : List BlockIndex) : Enterable g (entries g ts) ts :=
  ⟨fun _ ht => ⟨fun hΓ => hΓ _ (List.mem_map_of_mem ht)⟩⟩

instance (g : Graph) (ts : List BlockIndex) [h : Enterable g Γ ts] : Enterable g (Γ ++ Δ) ts :=
  ⟨fun t ht => ⟨fun hΓ => (h.leads t ht).holds hΓ.left⟩⟩

instance (g : Graph) (ts : List BlockIndex) [h : Enterable g Δ ts] : Enterable g (Γ ++ Δ) ts :=
  ⟨fun t ht => ⟨fun hΓ => (h.leads t ht).holds hΓ.right⟩⟩

/-- The blocks to go to for blocks of the graph, one for each. -/
theorem scoped_successorBlocks {ts : List BlockIndex} (h : Enterable env.graph Γ ts) :
    Scoped strict env Γ (ts.mapM fun t => return (t, ← successorBlock t) : Lower
      (List (BlockIndex × BlockId)))
      fun blocks => [.leads (blocks.map (·.2)) []] := by
  induction ts generalizing Γ with
  | nil =>
    rw [List.mapM_nil]
    exact scoped_pure fun _ => .cons (by simp [Fact.Holds]) .nil
  | cons t ts ih =>
    rw [List.mapM_cons]
    have hhead := h.leads t (by simp)
    have htail : Enterable env.graph Γ ts := ⟨fun t ht => h.leads t (by simp [ht])⟩
    have hpair (p : BlockId) : Scoped strict env ([.leads [p] []] ++ Γ)
      (pure (t, p) : Lower (BlockIndex × BlockId))
        fun q => [.leads [q.2] []] := scoped_pure fun hΓ => .cons (hΓ _ (by simp)) .nil
    refine .bind (.bind inferInstance hpair) fun q => .bind (ih inferInstance) fun blocks => ?_
    refine scoped_pure fun hΓ => .cons (fun p hp => ?_) .nil
    rw [List.map_cons] at hp
    rcases List.mem_cons.1 hp with rfl | hp
    · exact hΓ (.leads [q.2] []) (by simp) q.2 (by simp)
    · exact hΓ (.leads (blocks.map (·.2)) []) (by simp) p hp

/-- All blocks of a switch may be gone to. -/
@[reducible] def Targets.known (t : Targets) : List Fact :=
  [.leads (t.fallback :: t.blocks.map (·.2)) []]

instance (data : SwitchData) [h : Enterable env.graph Γ (Op.switch data).successors] :
    Scoped strict env Γ (switchTargets data) Targets.known := by
  have hcases : Enterable env.graph Γ (firstOfEach id (data.cases.map (·.target))) :=
    ⟨fun t ht => h.leads t (Op.mem_successors_switch.2 (.inl (mem_firstOfEach ht)))⟩
  have hfall := h.leads data.fallThrough (Op.mem_successors_switch.2 (.inr rfl))
  refine .bind (scoped_successorBlocks hcases) fun blocks => ?_
  split
  · rename_i fallback hl
    refine scoped_pure fun hΓ => .cons (fun p hp => hΓ (.leads (blocks.map (·.2)) []) (by simp) p
      ?_) .nil
    obtain ⟨l₁, l₂, hsplit, -⟩ := List.lookup_eq_some_iff.1 hl
    rcases List.mem_cons.1 hp with rfl | hp
    · simp [hsplit]
    · exact hp
  · refine .bind inferInstance fun fallback => scoped_pure fun hΓ => .cons (fun p hp => ?_) .nil
    rcases List.mem_cons.1 hp with rfl | hp
    · exact hΓ (.leads [p] []) (by simp) p (by simp)
    · exact hΓ (.leads (blocks.map (·.2)) []) (by simp) p hp

section Targets

variable (t : Targets) [h : Leads Γ (t.fallback :: t.blocks.map (·.2)) []]

theorem Targets.get_mem (t : Targets) (target : BlockIndex) :
    t.get target ∈ t.fallback :: t.blocks.map (·.2) := by
  rw [Targets.get]
  cases hl : t.blocks.lookup target with
  | none => simp
  | some p =>
    obtain ⟨l₁, l₂, hsplit, -⟩ := List.lookup_eq_some_iff.1 hl
    simp [hsplit]

instance : Leads Γ [t.fallback] [] := ⟨fun hΓ p hp => h.holds hΓ p (by simp_all)⟩

instance (target : BlockIndex) : Leads Γ [t.get target] [] where
  holds hΓ p hp := by
    cases List.mem_singleton.1 hp
    exact h.holds hΓ _ (t.get_mem target)

instance (data : SwitchData) : Leads Γ ((numberCases data t).map (·.2)) [] where
  holds hΓ p hp := by
    obtain ⟨c, hc, rfl⟩ := List.mem_map.1 hp
    obtain ⟨d, -, hd⟩ := List.mem_filterMap.1 (mem_firstOfEach hc)
    obtain ⟨n, -, rfl⟩ := Option.map_eq_some_iff.1 hd
    exact h.holds hΓ _ (t.get_mem d.target)

instance (data : SwitchData) :
    Leads Γ ((data.cases.zipIdx.map fun (c, i) => (Int32.ofNat i, t.get c.target)).map (·.2))
      [] where
  holds hΓ p hp := by
    obtain ⟨c, hc, rfl⟩ := List.mem_map.1 hp
    obtain ⟨d, -, rfl⟩ := List.mem_map.1 hc
    exact h.holds hΓ _ (t.get_mem d.1.target)

end Targets

/-! ## Strings -/

instance (value : Reg) (fallback : BlockId) [Known Γ value .i64] [Leads Γ [fallback] []] :
    Scoped strict env Γ (requireString value fallback) fun _ => [] where
  follows S s a s' hs hΓ h := by
    obtain ⟨cellBlock, s₁, h₁, h⟩ := bind_ok h
    obtain ⟨S₁, d₁, hΓ₁⟩ := (Detour.start hs).createBlock hΓ h₁
    obtain ⟨stringBlock, s₂, h₂, h⟩ := bind_ok h
    obtain ⟨S₂, d₂, hΓ₂⟩ := d₁.createBlock hΓ₁ h₂
    obtain ⟨cell, s₃, h₃, h⟩ := bind_ok h
    obtain ⟨S₃, d₃, hΓ₃⟩ := d₂.quiet hs hΓ₂ h₃
    obtain ⟨_, s₄, h₄, h⟩ := bind_ok h
    obtain ⟨S₄, d₄, -⟩ :=
      d₃.quiet (Γ := .leads [cellBlock] [] :: _) hs
        (.cons (d₃.leads (p := ⟨cellBlock, []⟩) (by simp)) hΓ₃) h₄
    obtain ⟨_, s₅, h₅, h⟩ := bind_ok h
    obtain ⟨d₅, -⟩ := d₄.switchTo (p := ⟨cellBlock, []⟩) (by simp) h₅
    obtain ⟨string, s₆, h₆, h⟩ := bind_ok h
    obtain ⟨S₆, d₆, hΓ₆⟩ := d₅.quiet hs (d₅.hold hΓ) h₆
    obtain ⟨_, s₇, h₇, h⟩ := bind_ok h
    obtain ⟨S₇, d₇, -⟩ :=
      d₆.quiet (Γ := .leads [stringBlock] [] :: _) hs
        (.cons (d₆.leads (p := ⟨stringBlock, []⟩) (by simp)) hΓ₆) h₇
    obtain ⟨d₈, -⟩ := d₇.switchTo (p := ⟨stringBlock, []⟩) (by simp) h
    exact ⟨S₇, d₈.follows, d₈.consistent hs, .nil⟩

section Runtime

variable (data : SwitchData) (targets : Targets) (string impl : Reg)

instance [Known Γ string .i64] [Leads Γ (targets.fallback :: targets.blocks.map (·.2)) []] :
    Scoped strict env Γ (switchByRuntime data targets string) fun _ => [] := by
  unfold switchByRuntime
  infer_instance

instance [Known Γ impl .i64] : Scoped strict env Γ (eightBitFlag impl) fun r => [.reg r .i32] := by
  unfold eightBitFlag
  infer_instance

end Runtime

/-! ## Characters -/

namespace Detour

variable {S₀ : Scoping} {s₀ : State} {P P' : List Pending} {depth : Nat}

theorem sub (d : Detour strict S₀ s₀ P depth S s) (h : ∀ p ∈ P', p ∈ P) :
    Detour strict S₀ s₀ P' depth S s :=
  ⟨d.grown, d.here, d.values, d.block, d.upsilons, d.armDepth, fun p hp => d.waits p (h p hp)⟩

/-- One block for each group of cases. -/
theorem createBlocks {groups : List (Nat × List StringCase)}
    {made : List (Nat × BlockId × List StringCase)}
    (d : Detour strict S₀ s₀ P depth S s) (hΓ : Hold strict S s.builder (s.builder.Here S) Γ)
    (h : (groups.mapM fun (n, cases) => do return (n, ← Emit.createBlock false, cases) :
      Lower (List (Nat × BlockId × List StringCase))) env s = .ok (made, s')) :
    ∃ S', Detour strict S₀ s₀ (made.map (fun c => ⟨c.2.1, []⟩) ++ P) depth S' s' ∧
      Hold strict S' s'.builder (s'.builder.Here S') Γ := by
  induction groups generalizing S s P made with
  | nil =>
    cases h
    exact ⟨S, d, hΓ⟩
  | cons group groups ih =>
    rw [List.mapM_cons] at h
    obtain ⟨c, s₁, h₁, h⟩ := bind_ok h
    obtain ⟨id, s₂, h₂, h₁⟩ := bind_ok h₁
    cases h₁
    obtain ⟨S₂, d₂, hΓ₂⟩ := d.createBlock hΓ h₂
    obtain ⟨rest, s₃, h₃, h⟩ := bind_ok h
    cases h
    obtain ⟨S₃, d₃, hΓ₃⟩ := ih d₂ hΓ₂ h₃
    refine ⟨S₃, d₃.sub fun p hp => ?_, hΓ₃⟩
    simp only [List.map_cons, List.cons_append, List.mem_cons, List.mem_append] at hp ⊢
    rcases hp with hp | hp | hp
    · exact .inr (.inl hp)
    · exact .inl hp
    · exact .inr (.inr hp)

/-- The blocks that were made are taken up one after the other. -/
theorem forM_blocks {made : List (Nat × BlockId × List StringCase)}
    {f : Nat → List StringCase → Lower Unit}
    (d : Detour strict S₀ s₀ P depth S s) (hs : Consistent strict env S₀ s₀)
    (hΓ : Hold strict S₀ s₀.builder (s₀.builder.Here S₀) Γ)
    (hf : ∀ n cases, Scoped strict env Γ (f n cases) fun _ => [])
    (hquiet : ∀ n cases, RecordsNothing (f n cases)) (hmade : ∀ c ∈ made, ⟨c.2.1, []⟩ ∈ P)
    (h : (made.forM fun (n, block, cases) => do Emit.switchTo block; f n cases : Lower Unit) env
      s = .ok (u, s')) :
    ∃ S', Detour strict S₀ s₀ P depth S' s' := by
  induction made generalizing S s with
  | nil =>
    cases h
    exact ⟨S, d⟩
  | cons c made ih =>
    change ((liftM (Emit.switchTo c.2.1) >>= fun _ => f c.1 c.2.2) >>= fun _ => made.forM _) env
      s = _ at h
    obtain ⟨_, s₂, h₂, h⟩ := bind_ok h
    obtain ⟨_, s₁, h₁, h₂⟩ := bind_ok h₂
    obtain ⟨d₁, -⟩ := d.switchTo (p := ⟨c.2.1, []⟩) (hmade c (by simp)) h₁
    obtain ⟨S₂, d₂, -⟩ := d₁.quiet hs (d₁.hold hΓ) h₂
    exact ih d₂ (fun c' hc' => hmade c' (by simp [hc'])) h

end Detour

/-- Blocks that were made for groups of cases may be gone to. -/
theorem Detour.leads_made {S₀ : Scoping} {s₀ : State} {P : List Pending} {depth : Nat}
    {made : List (Nat × BlockId × List StringCase)}
    (d : Detour strict S₀ s₀ (made.map (fun c => ⟨c.2.1, []⟩) ++ P) depth S s) :
    (Fact.leads (made.map (·.2.1)) []).Holds strict S s.builder (s.builder.Here S) := by
  intro p hp
  obtain ⟨c, hc, rfl⟩ := List.mem_map.1 hp
  exact d.leads (p := ⟨c.2.1, []⟩) (List.mem_append_left _ (List.mem_map_of_mem hc)) c.2.1 (by simp)

instance (made : List (Nat × BlockId × List StringCase)) [h : Leads Γ (made.map (·.2.1)) []] :
    Leads Γ ((made.map fun c => (Int32.ofNat c.1, c.2.1)).map (·.2)) [] where
  holds hΓ := by
    rw [List.map_map]
    exact h.holds hΓ

theorem scoped_switchCharacters {characters : Reg} {targets : Targets} {left place : Nat}
    {cases : List StringCase} [Known Γ characters .i64]
    [Leads Γ (targets.fallback :: targets.blocks.map (·.2)) []] :
    Scoped strict env Γ (switchCharacters characters targets left place cases) fun _ => [] := by
  induction left generalizing Γ place cases with
  | zero =>
    unfold switchCharacters
    split <;> infer_instance
  | succ left ih =>
    rw [switchCharacters]
    refine .bind inferInstance fun loaded => ?_
    split
    · refine .bind inferInstance fun equal => ⟨fun S s a s' hs hΓ h => ?_⟩
      obtain ⟨next, s₁, h₁, h⟩ := bind_ok h
      obtain ⟨S₁, d₁, hΓ₁⟩ := (Detour.start hs).createBlock hΓ h₁
      obtain ⟨_, s₂, h₂, h⟩ := bind_ok h
      obtain ⟨S₂, d₂, -⟩ :=
        d₁.quiet (Γ := .leads [next] [] :: _) hs (.cons (d₁.leads (p := ⟨next, []⟩) (by simp)) hΓ₁)
          h₂
      obtain ⟨_, s₃, h₃, h⟩ := bind_ok h
      obtain ⟨d₃, -⟩ := d₂.switchTo (p := ⟨next, []⟩) (by simp) h₃
      obtain ⟨S', hF, hC, -⟩ := ih.follows S₂ s₃ a s' (d₃.consistent hs) (d₃.hold hΓ) h
      exact ⟨S', d₃.follows.trans hF, hC, .nil⟩
    · refine ⟨fun S s a s' hs hΓ h => ?_⟩
      obtain ⟨made, s₁, h₁, h⟩ := bind_ok h
      obtain ⟨S₁, d₁, hΓ₁⟩ := (Detour.start hs).createBlocks hΓ h₁
      obtain ⟨_, s₂, h₂, h⟩ := bind_ok h
      obtain ⟨S₂, d₂, -⟩ := d₁.quiet (Γ := .leads (made.map (·.2.1)) [] :: _) hs
        (.cons d₁.leads_made hΓ₁) h₂
      obtain ⟨S', d'⟩ :=
        d₂.forM_blocks (f := fun _ cases => switchCharacters characters targets left (place + 1)
          cases) hs hΓ
        (fun _ _ => ih) (fun _ _ => inferInstance) (fun c hc => List.mem_append_left _
          (List.mem_map_of_mem hc)) h
      exact ⟨S', d'.follows, d'.consistent hs, .nil⟩

instance (data : SwitchData) (targets : Targets) (string : Reg) (cases : List StringCase)
    [Known Γ string .i64] [Leads Γ (targets.fallback :: targets.blocks.map (·.2)) []] :
    Scoped strict env Γ (switchInline data targets string cases) fun _ => [] := by
  refine .bind inferInstance fun impl => ⟨fun S s a s' hs hΓ h => ?_⟩
  obtain ⟨fast, s₁, h₁, h⟩ := bind_ok h
  obtain ⟨S₁, d₁, hΓ₁⟩ := (Detour.start hs).createBlock hΓ h₁
  obtain ⟨slow, s₂, h₂, h⟩ := bind_ok h
  obtain ⟨S₂, d₂, hΓ₂⟩ := d₁.createBlock hΓ₁ h₂
  obtain ⟨rope, s₃, h₃, h⟩ := bind_ok h
  obtain ⟨S₃, d₃, hΓ₃⟩ := d₂.quiet hs hΓ₂ h₃
  obtain ⟨resolved, s₄, h₄, h⟩ := bind_ok h
  obtain ⟨S₄, d₄, hΓ₄⟩ := d₃.createBlock hΓ₃ h₄
  obtain ⟨_, s₅, h₅, h⟩ := bind_ok h
  obtain ⟨S₅, d₅, -⟩ := d₄.quiet (Γ := .leads [slow] [] :: .leads [resolved] [] :: _) hs
    (.cons (d₄.leads (p := ⟨slow, []⟩) (by simp)) (.cons (d₄.leads (p := ⟨resolved, []⟩) (by simp))
      hΓ₄)) h₅
  obtain ⟨_, s₆, h₆, h⟩ := bind_ok h
  obtain ⟨d₆, -⟩ := d₅.switchTo (p := ⟨resolved, []⟩) (by simp) h₆
  obtain ⟨flag, s₇, h₇, h⟩ := bind_ok h
  obtain ⟨S₇, d₇, hΓ₇⟩ := d₆.quiet hs (d₆.hold hΓ) h₇
  obtain ⟨_, s₈, h₈, h⟩ := bind_ok h
  obtain ⟨S₈, d₈, -⟩ := d₇.quiet (Γ := .leads [fast] [] :: .leads [slow] [] :: _) hs
    (.cons (d₇.leads (p := ⟨fast, []⟩) (by simp)) (.cons (d₇.leads (p := ⟨slow, []⟩) (by simp))
      hΓ₇)) h₈
  obtain ⟨_, s₉, h₉, h⟩ := bind_ok h
  obtain ⟨d₉, -⟩ := d₈.switchTo (p := ⟨slow, []⟩) (by simp) h₉
  obtain ⟨_, s₁₀, h₁₀, h⟩ := bind_ok h
  obtain ⟨S₁₀, d₁₀, -⟩ := d₉.quiet hs (d₉.hold hΓ) h₁₀
  obtain ⟨_, s₁₁, h₁₁, h⟩ := bind_ok h
  obtain ⟨d₁₁, -⟩ := d₁₀.switchTo (p := ⟨fast, []⟩) (by simp) h₁₁
  obtain ⟨length, s₁₂, h₁₂, h⟩ := bind_ok h
  obtain ⟨S₁₂, d₁₂, hΓ₁₂⟩ := d₁₁.quiet hs (d₁₁.hold hΓ) h₁₂
  obtain ⟨characters, s₁₃, h₁₃, h⟩ := bind_ok h
  obtain ⟨S₁₃, d₁₃, hΓ₁₃⟩ := d₁₂.quiet hs hΓ₁₂ h₁₃
  -- the blocks for the lengths, in which the characters are known
  have hs₁₃ := d₁₃.consistent hs
  obtain ⟨made, s₁₄, h₁₄, h⟩ := bind_ok h
  obtain ⟨S₁₄, d₁₄, hΓ₁₄⟩ := (Detour.start hs₁₃).createBlocks hΓ₁₃ h₁₄
  obtain ⟨_, s₁₅, h₁₅, h⟩ := bind_ok h
  obtain ⟨S₁₅, d₁₅, -⟩ := d₁₄.quiet (Γ := .leads (made.map (·.2.1)) [] :: _) hs₁₃
    (.cons d₁₄.leads_made hΓ₁₄) h₁₅
  obtain ⟨S', d'⟩ :=
    d₁₅.forM_blocks (f := fun n cases => switchCharacters characters targets n 0 cases) hs₁₃ hΓ₁₃
    (fun _ _ => scoped_switchCharacters) (fun _ _ => inferInstance)
    (fun c hc => List.mem_append_left _ (List.mem_map_of_mem hc)) h
  exact ⟨S', d₁₃.follows.trans d'.follows, d'.consistent hs₁₃, .nil⟩

end Lowering

end SpecJit
