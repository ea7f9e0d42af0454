import SpecJit.Proofs.Availability.Rounds
import SpecJit.Proofs.Exits.Table
import SpecJit.Proofs.Lir.InStep
import SpecJit.Proofs.Lowering.Datum

/-!
# Two lowerings in step

A graph is lowered twice, with exits that restore less or more (`Setting`). The two lowerings go the
same way: what they know of the program is the same, and their code is the same but for the names of
registers and blocks and for the constants that one of them puts aside for its exits (`Twin`). Their
exits are matched with the records of either table, and exits with the same id are twins.

`InStep E Γ x y l r P` says that the steps `x` and `y` keep it that way, as `Emit.InStep` does for
building steps. For a lowering beside itself this is what is true of one lowering, whatever the
mode.
-/

namespace SpecJit

open Lir

namespace Lowering

variable {α β ι κ : Type} {env : Env} {π π' : Pairing} {s s' s₁ s₁' : State}

/-! ## Exits and their records -/

/-- The exits of the code and the records of the table go together one to one: the record of an exit
reads all that the exit captures, and has an entry for each variable, which is dead if it is left
out. -/
structure Matched (env : Env) (b : Builder) (t : ExitTable) : Prop where
  recorded : ∀ {i id regs}, b.ExitsAt i id regs → ∃ e, t.exit? id = some e ∧
    t.Measures e regs.length ∧
    e.values.Shaped env.graph.numArguments env.graph.numLocals
  placed : ∀ {id e}, t.exit? id = some e → ∃ i regs, b.ExitsAt i id regs
  once : ∀ {i j id regs regs'}, b.ExitsAt i id regs → b.ExitsAt j id regs' → i = j
  pruned : env.options.exitLiveness = .pruned → ∀ {id e v x}, t.exit? id = some e →
    env.graph.isLiveInBytecode v e.origin = false → e.values.get? v = some x → x = .dead

theorem Matched.keep {b b₁ : Builder} {t : ExitTable} (h : Matched env b t) (hb : b.SameExits b₁) :
    Matched env b₁ t where
  recorded hi := h.recorded ((hb _ _ _).1 hi)
  placed he := by
    obtain ⟨i, regs, hi⟩ := h.placed he
    exact ⟨i, regs, (hb _ _ _).2 hi⟩
  once hi hj := h.once ((hb _ _ _).1 hi) ((hb _ _ _).1 hj)
  pruned := h.pruned

/-- Exits with the same id restore what is live in the same way. -/
def SameExits (g : Graph) (π : Pairing) (b : Builder) (t : ExitTable) (b' : Builder)
    (t' : ExitTable) : Prop :=
  ∀ {i i' id regs regs' e e'}, b.ExitsAt i id regs → b'.ExitsAt i' id regs' → t.exit? id = some e →
    t'.exit? id = some e' →
    t.Twins t' (π.Captured regs regs') (fun v => g.isLiveInBytecode v e.origin = true) e e'

/-! ## States that go together -/

/-- A lowering in two modes. -/
structure Setting where
  env : Env
  left : ExitLiveness
  right : ExitLiveness

/-- The same lowering, with exits that restore less or more. -/
@[reducible] def Env.inMode (env : Env) (mode : ExitLiveness) : Env :=
  { env with options.exitLiveness := mode }

/-- The lowering on the left. -/
@[reducible] def Setting.leftEnv (E : Setting) : Env := E.env.inMode E.left

/-- The lowering on the right. -/
@[reducible] def Setting.rightEnv (E : Setting) : Env := E.env.inMode E.right

/-- The states agree on everything that is neither code nor a register. -/
structure SameData (s s' : State) : Prop where
  facts : s.facts = s'.facts
  availability : s.availability = s'.availability
  caches : s.caches = s'.caches
  stats : s.stats = s'.stats
  block : s.block = s'.block
  node : s.node = s'.node
  origin : s.origin = s'.origin
  armDepth : s.armDepth = s'.armDepth

/-- The states of two lowerings that are in step (module doc). -/
structure Twin (E : Setting) (π : Pairing) (s s' : State) : Prop where
  data : SameData s s'
  builder : Builder.Pairs π s.builder s'.builder
  values : List.Forall₂ (fun v v' => v.1 = v'.1 ∧ π.regs v.2.1 v'.2.1 ∧ v.2.2 = v'.2.2) s.values
    s'.values
  upsilons : List.Forall₂ (fun u u' => u.1 = u'.1 ∧ π.regs u.2 u'.2) s.upsilons s'.upsilons
  context : π.regs E.env.context E.env.context
  frame : π.regs E.env.frame E.env.frame
  phis : ∀ {id r}, E.env.phiParams.lookup id = some r → π.regs r r
  bodies : ∀ {i}, i < E.env.graph.blocks.size → π.blocks ⟨i + 1⟩ ⟨i + 1⟩
  fits : s.availability.Fits E.env.graph
  count : s.stats.exits = s.exits.exits.size
  size : s.exits.exits.size = s'.exits.exits.size
  left : Matched E.leftEnv s.builder s.exits
  right : Matched E.rightEnv s'.builder s'.exits
  exits : SameExits E.env.graph π s.builder s.exits s'.builder s'.exits

variable {E : Setting} {Γ Δ : List Link}

/-- More code, and other data, but the same records of registers and exits. -/
theorem Twin.keep (h : Twin E π s s')
    (hb : Builder.Advance π s.builder s'.builder π' s₁.builder s₁'.builder)
    (hdata : SameData s₁ s₁') (hvalues : s₁.values = s.values ∧ s₁'.values = s'.values)
    (hupsilons : s₁.upsilons = s.upsilons ∧ s₁'.upsilons = s'.upsilons)
    (hexits : s₁.exits = s.exits ∧ s₁'.exits = s'.exits) (hcount : s₁.stats.exits = s.stats.exits)
    (hfits : s₁.availability.Fits E.env.graph) : Twin E π' s₁ s₁' where
  data := hdata
  builder := hb.pairs
  values := by
    rw [hvalues.1, hvalues.2]
    exact h.values.imp fun _ _ hv => ⟨hv.1, hb.le.regs hv.2.1, hv.2.2⟩
  upsilons := by
    rw [hupsilons.1, hupsilons.2]
    exact h.upsilons.imp fun _ _ hu => ⟨hu.1, hb.le.regs hu.2⟩
  context := hb.le.regs h.context
  frame := hb.le.regs h.frame
  phis hr := hb.le.regs (h.phis hr)
  bodies hi := hb.le.blocks (h.bodies hi)
  fits := hfits
  count := by rw [hcount, hexits.1, h.count]
  size := by rw [hexits.1, hexits.2, h.size]
  left := by
    rw [hexits.1]
    exact h.left.keep hb.exits
  right := by
    rw [hexits.2]
    exact h.right.keep hb.exits'
  exits := by
    rw [hexits.1, hexits.2]
    intro i i' id regs regs' e e' hi hi' he he'
    exact (h.exits ((hb.exits _ _ _).1 hi) ((hb.exits' _ _ _).1 hi') he he').mono
      (fun _ _ hC => hC.mono hb.le)
      (fun _ _ => rfl) fun _ _ => rfl

/-- There is a place for every variable of the frame. -/
theorem Twin.shaped (h : Twin E π s s') :
    s.availability.operands.Shaped E.env.graph.numArguments E.env.graph.numLocals :=
  ⟨h.fits.arguments, h.fits.locals⟩

theorem Twin.advance {b b' : Builder} (h : Twin E π s s')
    (hb : Builder.Advance π s.builder s'.builder π' b b') :
    Twin E π' { s with builder := b } { s' with builder := b' } :=
  h.keep hb ⟨h.data.facts, h.data.availability, h.data.caches, h.data.stats, h.data.block,
    h.data.node, h.data.origin,
    h.data.armDepth⟩ ⟨rfl, rfl⟩ ⟨rfl, rfl⟩ ⟨rfl, rfl⟩ rfl h.fits

/-! ## The class -/

/-- Lowering steps that are in step (module doc). -/
class InStep (E : Setting) (Γ : List Link) (x y : Lower α) {ι : outParam Type}
    (l r : outParam (ι → α)) (P : outParam (ι → List Link)) : Prop where
  steps : ∀ π s s' a a' s₁ s₁', Twin E π s s' → π.Has Γ → x E.leftEnv s = .ok (a, s₁) →
    y E.rightEnv s' = .ok (a', s₁') →
    ∃ π' i, π.Le π' ∧ Twin E π' s₁ s₁' ∧ a = l i ∧ a' = r i ∧ π'.Has (P i)

/-- Steps with the same result. -/
abbrev Alike (E : Setting) (Γ : List Link) (x y : Lower α) : Prop :=
  InStep E Γ x y (fun a => a) (fun a => a) fun _ => []

/-- Steps that give registers which go together. -/
abbrev Twins (E : Setting) (Γ : List Link) (x y : Lower Reg) : Prop :=
  InStep E Γ x y Prod.fst Prod.snd fun i => [.reg i.1 i.2]

/-- Steps that give lists of registers which go together. -/
abbrev TwinLists (E : Setting) (Γ : List Link) (x y : Lower (List Reg)) : Prop :=
  InStep E Γ x y Prod.fst Prod.snd fun i => [.regs i.1 i.2]

/-- Steps that give blocks which go together. -/
abbrev TwinBlocks (E : Setting) (Γ : List Link) (x y : Lower BlockId) : Prop :=
  InStep E Γ x y Prod.fst Prod.snd fun i => [.block i.1 i.2]

section Class

variable {l r : ι → α} {P : ι → List Link} {l₂ r₂ : κ → β} {Q : κ → List Link}

theorem InStep.bind {x y : Lower α} {f g : α → Lower β} (hx : InStep E Γ x y l r P)
    (hf : ∀ i, InStep E (P i ++ Γ) (f (l i)) (g (r i)) l₂ r₂ Q) :
    InStep E Γ (x >>= f) (y >>= g) l₂ r₂ Q where
  steps π s s' c c' s₂ s₂' hs hΓ h h' := by
    obtain ⟨a, s₁, h₁, h₂⟩ := bind_ok h
    obtain ⟨a', s₁', h₁', h₂'⟩ := bind_ok h'
    obtain ⟨π₁, i, hle₁, hs₁, rfl, rfl, hP⟩ := hx.steps π s s' a a' s₁ s₁' hs hΓ h₁ h₁'
    obtain ⟨π₂, k, hle₂, hs₂, hc, hc', hQ⟩ :=
      (hf i).steps π₁ s₁ s₁' c c' s₂ s₂' hs₁ (hP.append (hΓ.mono hle₁)) h₂ h₂'
    exact ⟨π₂, k, hle₁.trans hle₂, hs₂, hc, hc', hQ⟩

instance (x y : Lower α) (f g : α → Lower β) [hx : InStep E Γ x y l r P]
    [hf : ∀ i, InStep E (P i ++ Γ) (f (l i)) (g (r i)) l₂ r₂ Q] :
    InStep E Γ (x >>= f) (y >>= g) l₂ r₂ Q := .bind hx hf

theorem inStep_then {x y : Lower α} {f g : α → Lower β} (hx : Alike E Γ x y)
    (hf : ∀ a, InStep E Γ (f a) (g a) l₂ r₂ Q) :
    InStep E Γ (x >>= f) (y >>= g) l₂ r₂ Q := InStep.bind hx hf

/-- Steps that need fewer links. -/
theorem InStep.weaken {x y : Lower α} (hx : InStep E Γ x y l r P)
    (hΓ : ∀ {π : Pairing}, π.Has Δ → π.Has Γ) :
    InStep E Δ x y l r P :=
  ⟨fun π s s' a a' s₁ s₁' hs hΔ h h' => hx.steps π s s' a a' s₁ s₁' hs (hΓ hΔ) h h'⟩

/-- Results that go together. -/
theorem inStep_pure {a a' : α} (i : ι) (ha : a = l i) (ha' : a' = r i)
    (h : ∀ {π : Pairing}, π.Has Γ → π.Has (P i)) :
    InStep E Γ (pure a : Lower α) (pure a') l r P where
  steps π s s' c c' s₁ s₁' hs hΓ hx hy := by
    cases hx
    cases hy
    exact ⟨π, i, .refl π, hs, ha, ha', h hΓ⟩

instance (priority := low) (a : α) : Alike E Γ (pure a : Lower α) (pure a) :=
  inStep_pure a rfl rfl fun _ => .nil

instance (r r' : Reg) [h : Gives Γ (.reg r r')] : Twins E Γ (pure r : Lower Reg) (pure r') :=
  inStep_pure (r, r') rfl rfl fun hΓ => .one (h.holds hΓ)

instance (rs rs' : List Reg) [h : Gives Γ (.regs rs rs')] :
    TwinLists E Γ (pure rs : Lower (List Reg)) (pure rs') :=
  inStep_pure (rs, rs') rfl rfl fun hΓ => .one (h.holds hΓ)

instance (p p' : BlockId) [h : Gives Γ (.block p p')] :
    TwinBlocks E Γ (pure p : Lower BlockId) (pure p') :=
  inStep_pure (p, p') rfl rfl fun hΓ => .one (h.holds hΓ)

instance (p : Prop) [Decidable p] (x y x' y' : Lower α) [hx : InStep E Γ x x' l r P]
    [hy : InStep E Γ y y' l r P] :
    InStep E Γ (if p then x else y) (if p then x' else y') l r P := by
  split
  · exact hx
  · exact hy

/-- A test that comes out the same. -/
theorem inStep_ite {p p' : Prop} [Decidable p] [Decidable p'] {x y x' y' : Lower α}
    (hp : ∀ {π : Pairing}, π.Has Γ → (p ↔ p')) (hx : InStep E Γ x x' l r P)
    (hy : InStep E Γ y y' l r P) :
    InStep E Γ (if p then x else y) (if p' then x' else y') l r P where
  steps π s s' a a' s₁ s₁' hs hΓ h h' := by
    rw [← if_congr (hp hΓ) rfl rfl] at h'
    split at h
    · rename_i hc
      rw [if_pos hc] at h'
      exact hx.steps π s s' a a' s₁ s₁' hs hΓ h h'
    · rename_i hc
      rw [if_neg hc] at h'
      exact hy.steps π s s' a a' s₁ s₁' hs hΓ h h'

/-- The context and the frame go together everywhere. -/
theorem inStep_read {f g : Env → Lower α}
    (hf : InStep E (.reg E.env.context E.env.context :: .reg E.env.frame E.env.frame :: Γ)
      (f E.leftEnv) (g E.rightEnv) l r P) :
    InStep E Γ ((read : Lower Env) >>= f) ((read : Lower Env) >>= g) l r P where
  steps π s s' a a' s₁ s₁' hs hΓ h h' :=
    hf.steps π s s' a a' s₁ s₁' hs (.cons hs.context (.cons hs.frame hΓ)) h h'

instance (priority := high) (f g : Env → Lower α)
    [hf : InStep E (.reg E.env.context E.env.context :: .reg E.env.frame E.env.frame :: Γ)
      (f E.leftEnv) (g E.rightEnv) l r P] :
    InStep E Γ ((read : Lower Env) >>= f) ((read : Lower Env) >>= g) l r P := inStep_read hf

/-- What is read of the states is the same. -/
theorem inStep_get {f g : State → Lower α}
    (hf : ∀ s s', SameData s s' → InStep E Γ (f s) (g s') l r P) :
    InStep E Γ ((get : Lower State) >>= f) ((get : Lower State) >>= g) l r P where
  steps π s s' a a' s₁ s₁' hs hΓ h h' := (hf s s' hs.data).steps π s s' a a' s₁ s₁' hs hΓ h h'

/-- A change of the states that leaves them in step. -/
theorem inStep_modify {f g : State → State}
    (hf : ∀ {π s s'}, Twin E π s s' → π.Has Γ → Twin E π (f s) (g s')) :
    Alike E Γ (modify f : Lower Unit) (modify g) where
  steps π s s' a a' s₁ s₁' hs hΓ hx hy := by
    cases hx
    cases hy
    exact ⟨π, (), .refl π, hf hs hΓ, rfl, rfl, .nil⟩

theorem inStep_of_error {x y : Lower α} (h : ∀ s, ∃ f, x E.leftEnv s = .error f) :
    InStep E Γ x y l r P where
  steps π s s' a a' s₁ s₁' _ _ hx _ := by
    obtain ⟨f, hf⟩ := h s
    rw [hf] at hx
    cases hx

/-- Behind a crash anything holds. -/
theorem inStep_crash {cause cause' : CrashCause} :
    InStep E Γ (crash cause : Lower α) (crash cause') l r P :=
  inStep_of_error fun _ => ⟨_, rfl⟩

instance (cause cause' : CrashCause) : Alike E Γ (crash cause : Lower α) (crash cause') :=
  inStep_crash

instance (priority := high) (p : Prop) [Decidable p] (x y : Lower α) (cause cause' : CrashCause)
    [hx : InStep E Γ x y l r P] :
    InStep E Γ (if p then x else crash cause) (if p then y else crash cause') l r P := by
  split
  · exact hx
  · exact inStep_crash

instance (x y : Emit α) [hx : x.InStep Γ y l r P] :
    InStep E Γ (liftM x : Lower α) (liftM y) l r P where
  steps π s s' a a' s₁ s₁' hs hΓ h h' := by
    obtain ⟨b, hb, rfl⟩ := emit_ok h
    obtain ⟨b', hb', rfl⟩ := emit_ok h'
    obtain ⟨π', i, had, ha, ha', hP⟩ := hx.steps π s.builder s'.builder a a' b b' hs.builder hΓ hb
      hb'
    exact ⟨π', i, had.le, hs.advance had, ha, ha', hP⟩

end Class

instance (x : Except Fault α) : Alike E Γ (liftM x : Lower α) (liftM x) where
  steps π s s' a a' s₁ s₁' hs _ hx hy := by
    obtain ⟨ha, rfl⟩ := check_ok hx
    obtain ⟨ha', rfl⟩ := check_ok hy
    exact ⟨π, a, .refl π, hs, rfl, Except.ok.inj (ha'.symm.trans ha), .nil⟩

instance (x : Except Fault α) : Alike E Γ (check x : Lower α) (check x) :=
  inferInstanceAs (Alike E Γ (liftM x : Lower α) (liftM x))

/-! ## Lists -/

theorem InStep.under {x y : Lower α} {l r : ι → α} {P : ι → List Link} (hx : InStep E Γ x y l r P)
    [h : Within Γ Δ] :
    InStep E Δ x y l r P := hx.weaken fun hΔ L hL => hΔ L (h.sub hL)

theorem inStep_forM {f g : α → Lower Unit} {l : List α} (hf : ∀ a ∈ l, Alike E Γ (f a) (g a)) :
    Alike E Γ (l.forM f) (l.forM g) := by
  induction l with
  | nil => exact inferInstanceAs (Alike E Γ (pure PUnit.unit : Lower PUnit) (pure PUnit.unit))
  | cons a l ih =>
    refine .bind (hf a (by simp)) fun _ => ?_
    exact ih fun b hb => hf b (by simp [hb])

instance (f g : α → Lower Unit) (l : List α) [hf : ∀ a, Alike E Γ (f a) (g a)] :
    Alike E Γ (l.forM f) (l.forM g) :=
  inStep_forM fun a _ => hf a

/-- Steps that are in step where the links hold. -/
theorem inStep_of_has {x y : Lower α} {l r : ι → α} {P : ι → List Link}
    (h : ∀ {π : Pairing}, π.Has Γ → InStep E Γ x y l r P) : InStep E Γ x y l r P :=
  ⟨fun π s s' a a' s₁ s₁' hs hΓ hx hy => (h hΓ).steps π s s' a a' s₁ s₁' hs hΓ hx hy⟩

/-- Registers that go together are used one by one. -/
theorem inStep_forM_regs {f g : α × Reg → Lower Unit} {l : List α} {rs rs' : List Reg}
    (hrs : Gives Γ (.regs rs rs'))
    (hf : ∀ a r r', Gives Γ (.reg r r') → Alike E Γ (f (a, r)) (g (a, r'))) :
    Alike E Γ ((l.zip rs).forM f) ((l.zip rs').forM g) := by
  have hnone : Alike E Γ (([] : List (α × Reg)).forM f) (([] : List (α × Reg)).forM g) :=
    inferInstanceAs (Alike E Γ (pure PUnit.unit : Lower PUnit) (pure PUnit.unit))
  refine inStep_of_has fun hΓ => ?_
  have hall := hrs.holds hΓ
  induction hall generalizing l with
  | nil => simpa using hnone
  | cons _ _ ih =>
    cases l with
    | nil => simpa using hnone
    | cons a l =>
      refine .bind (hf a _ _ hrs.head) fun _ => ?_
      exact ih hrs.tail

instance (f g : α → Lower β) (l : List α) [hf : ∀ Γ a, Alike E Γ (f a) (g a)] :
    Alike E Γ (l.mapM f) (l.mapM g) := by
  induction l generalizing Γ with
  | nil => exact inferInstanceAs (Alike E Γ (pure []) (pure []))
  | cons a l ih => rw [List.mapM_cons, List.mapM_cons]; infer_instance

/-- Registers that go together are computed one by one. -/
theorem inStep_mapM {f g : α → Lower Reg} {l : List α}
    (hf : ∀ a ∈ l, ∀ Δ, Within Γ Δ → Twins E Δ (f a) (g a)) :
    TwinLists E Γ (l.mapM f) (l.mapM g) := by
  induction l generalizing Γ with
  | nil => exact inferInstanceAs (TwinLists E Γ (pure []) (pure []))
  | cons a l ih =>
    rw [List.mapM_cons, List.mapM_cons]
    refine .bind (hf a (by simp) Γ inferInstance) fun i => .bind (ih fun b hb Δ hΔ => ?_)
      fun j => inferInstance
    exact hf b (by simp [hb]) Δ ⟨fun L hL => hΔ.sub (by simp [hL])⟩

instance (f g : α → Lower Reg) (l : List α) [hf : ∀ Γ a, Twins E Γ (f a) (g a)] :
    TwinLists E Γ (l.mapM f) (l.mapM g) :=
  inStep_mapM fun a _ Δ _ => hf Δ a

/-- A step for each of some registers that go together. -/
theorem inStep_mapM_regs {f g : Reg → Lower Reg} {rs rs' : List Reg} (hrs : Gives Γ (.regs rs rs'))
    (hf : ∀ Δ r r', Gives Δ (.reg r r') → Twins E Δ (f r) (g r')) :
    TwinLists E Γ (rs.mapM f) (rs'.mapM g) := by
  refine inStep_of_has fun hΓ => ?_
  have hall := hrs.holds hΓ
  clear hΓ
  induction hall generalizing Γ with
  | nil => exact inferInstanceAs (TwinLists E Γ (pure []) (pure []))
  | cons _ _ ih =>
    rw [List.mapM_cons, List.mapM_cons]
    refine .bind (hf Γ _ _ hrs.head) fun i => .bind (ih (hrs.tail.under fun L hL => ?_))
      fun j => inferInstance
    simp [hL]

/-! ## Nodes -/

instance (id : NodeId) : Alike E Γ (getNode id) (getNode id) := by unfold getNode; infer_instance

instance (field : CellField) : Alike E Γ (fieldOffset field) (fieldOffset field) := by
  unfold fieldOffset
  infer_instance

instance (id : NodeId) : Alike E Γ (factOf id) (factOf id) := by
  refine inStep_get fun s s' hs => ?_
  rw [hs.facts]
  infer_instance

instance (id : NodeId) : Alike E Γ (typeOfNode id) (typeOfNode id) := by
  refine inStep_get fun s s' hs => ?_
  rw [hs.facts]
  infer_instance

instance (id : StructureId) : Alike E Γ (getStructure id) (getStructure id) := by
  unfold getStructure
  have (o : Option Structure) (Γ : List Link) : Alike E Γ (match o with
      | some s => pure s
      | none => crash (.unknownStructure id) : Lower Structure) (match o with
      | some s => pure s
      | none => crash (.unknownStructure id)) := by
    split <;> infer_instance
  infer_instance

/-- Counts of other things than exits. -/
theorem inStep_countStats {f : Stats → Stats} (hf : ∀ st, (f st).exits = st.exits) :
    Alike E Γ (countStats f) (countStats f) :=
  inStep_modify fun h _ => h.keep (.refl h.builder) { h.data with stats := congrArg f h.data.stats }
    ⟨rfl, rfl⟩ ⟨rfl, rfl⟩
    ⟨rfl, rfl⟩ (hf _) h.fits

instance : Alike E Γ elided elided := inStep_countStats fun _ => rfl

/-! ## Records -/

/-- The same key is found on both sides. -/
theorem lookup_forall₂ {R : β → β → Prop} [BEq α] {l l' : List (α × β)}
    (h : List.Forall₂ (fun p p' => p.1 = p'.1 ∧ R p.2 p'.2) l l') (k : α) :
    Option.Rel R (l.lookup k) (l'.lookup k) := by
  induction h with
  | nil => exact .none
  | @cons p p' l l' hp _ ih =>
    obtain ⟨a, b⟩ := p
    obtain ⟨a', b'⟩ := p'
    obtain rfl : a = a' := hp.1
    simp only [List.lookup_cons]
    split
    · exact .some hp.2
    · exact ih

theorem Twin.heldIn (h : Twin E π s s') (id : NodeId) (form : Form) :
    Option.Rel π.regs (heldIn E.leftEnv s id form) (heldIn E.rightEnv s' id form) := by
  have hlookup := lookup_forall₂ (R := fun (p p' : Reg × BlockIndex) => π.regs p.1 p'.1 ∧
    p.2 = p'.2) h.values (id, form)
  unfold Lowering.heldIn
  rw [h.data.block]
  generalize s.values.lookup (id, form) = o, s'.values.lookup (id, form) = o' at hlookup
  cases hlookup with
  | none => exact .none
  | @some p p' hp =>
    obtain ⟨r, b⟩ := p
    obtain ⟨r', b'⟩ := p'
    obtain rfl : b = b' := hp.2
    dsimp only
    split
    · exact .some hp.1
    · exact .none

/-- The two ways in which a look for a record goes on. -/
theorem inStep_held {l r : ι → α} {P : ι → List Link} {id : NodeId} {form : Form}
    {f g : Option Reg → Lower α}
    (hsome : ∀ q q', InStep E (.reg q q' :: Γ) (f (some q)) (g (some q')) l r P)
    (hnone : InStep E Γ (f none) (g none) l r P) :
    InStep E Γ (held? id form >>= f) (held? id form >>= g) l r P where
  steps π s s' a a' s₁ s₁' hs hΓ h h' := by
    rw [held?_bind] at h h'
    have hheld := hs.heldIn id form
    generalize Lowering.heldIn E.leftEnv s id form = o, Lowering.heldIn E.rightEnv s' id form = o'
      at hheld h h'
    cases hheld with
    | none => exact hnone.steps π s s' a a' s₁ s₁' hs hΓ h h'
    | some hr => exact (hsome _ _).steps π s s' a a' s₁ s₁' hs (.cons hr hΓ) h h'

instance (priority := high) {l r : ι → α} {P : ι → List Link} (id : NodeId) (form : Form)
    (f g : Option Reg → Lower α)
    [hsome : ∀ q q', InStep E (.reg q q' :: Γ) (f (some q)) (g (some q')) l r P]
    [hnone : InStep E Γ (f none) (g none) l r P] :
    InStep E Γ (held? id form >>= f) (held? id form >>= g) l r P := inStep_held hsome hnone

instance (id : NodeId) (form : Form) (q q' : Reg) [hq : Gives Γ (.reg q q')] :
    Alike E Γ (record id form q) (record id form q') :=
  inStep_modify fun {π s s'} h hΓ => by
    by_cases ha : s.armDepth = 0
    · rw [if_pos ha, if_pos (h.data.armDepth.symm.trans ha)]
      exact { h with values := .cons ⟨rfl, hq.holds hΓ, h.data.block⟩ h.values,
                     data := ⟨h.data.facts, h.data.availability,
        h.data.caches, h.data.stats, h.data.block, h.data.node, h.data.origin, h.data.armDepth⟩ }
    · rw [if_neg ha, if_neg fun ha' => ha (h.data.armDepth.trans ha')]
      exact h

instance (id : NodeId) : Alike E Γ (isRecorded id) (isRecorded id) where
  steps π s s' a a' s₁ s₁' hs _ hx hy := by
    have hlookup (form : Form) : (s.values.lookup (id, form)).isSome = (s'.values.lookup
      (id, form)).isSome := by
      have := lookup_forall₂ (R := fun (p p' : Reg × BlockIndex) => π.regs p.1 p'.1 ∧ p.2 = p'.2)
        hs.values (id, form)
      generalize s.values.lookup (id, form) = o, s'.values.lookup (id, form) = o' at this
      cases this <;> rfl
    unfold isRecorded at hx hy
    rw [get_bind] at hx hy
    simp only [hlookup] at hx
    cases hx
    cases hy
    exact ⟨π, _, .refl π, hs, rfl, rfl, .nil⟩

instance (id : NodeId) (q q' : Reg) [Gives Γ (.reg q q')] :
    Alike E Γ (setResult id q) (setResult id q') := by
  refine .bind inferInstance fun node => ?_
  split <;> infer_instance

/-! ## Control -/

theorem inStep_inArm {l r : ι → α} {P : ι → List Link} {x y : Lower α} (hx : InStep E Γ x y l r P) :
    InStep E Γ (inArm x) (inArm y) l r P where
  steps π s s' a a' s₂ s₂' hs hΓ h h' := by
    obtain ⟨s₁, h₁, rfl⟩ := inArm_ok h
    obtain ⟨s₁', h₁', rfl⟩ := inArm_ok h'
    have hs₀ : Twin E π { s with armDepth := s.armDepth + 1 }
      { s' with armDepth := s'.armDepth + 1 } :=
      hs.keep (.refl hs.builder) ⟨hs.data.facts, hs.data.availability, hs.data.caches,
        hs.data.stats, hs.data.block, hs.data.node,
        hs.data.origin, congrArg (· + 1) hs.data.armDepth⟩ ⟨rfl, rfl⟩ ⟨rfl, rfl⟩ ⟨rfl, rfl⟩ rfl
          hs.fits
    obtain ⟨π₁, i, hle, hs₁, ha, ha', hP⟩ := hx.steps π _ _ a a' s₁ s₁' hs₀ hΓ h₁ h₁'
    refine ⟨π₁, i, hle, hs₁.keep (.refl hs₁.builder) ?_ ⟨rfl, rfl⟩ ⟨rfl, rfl⟩ ⟨rfl, rfl⟩ rfl
      hs₁.fits, ha, ha', hP⟩
    exact ⟨hs₁.data.facts, hs₁.data.availability, hs₁.data.caches, hs₁.data.stats, hs₁.data.block,
      hs₁.data.node, hs₁.data.origin,
      congrArg (· - 1) hs₁.data.armDepth⟩

instance {l r : ι → α} {P : ι → List Link} (x y : Lower α) [hx : InStep E Γ x y l r P] :
    InStep E Γ (inArm x) (inArm y) l r P :=
  inStep_inArm hx

set_option synthInstance.maxSize 4000 in
instance (ty : Ty) (c c' : Reg) (weight : BranchWeight) (x x' y y' : Lower Reg)
    [Gives Γ (.reg c c')] [hx : Twins E Γ x x'] [hy : Twins E Γ y y'] :
    Twins E Γ (diamond ty c weight x y) (diamond ty c' weight x' y') := by
  have (Δ : List Link) [Within Γ Δ] : Twins E Δ x x' := hx.under
  have (Δ : List Link) [Within Γ Δ] : Twins E Δ y y' := hy.under
  unfold diamond
  infer_instance

set_option synthInstance.maxSize 4000 in
instance (c c' : Reg) (weight : BranchWeight) (x x' : Lower Unit) [Gives Γ (.reg c c')]
    [hx : Alike E Γ x x'] :
    Alike E Γ (when c weight x) (when c' weight x') := by
  have (Δ : List Link) [Within Γ Δ] : Alike E Δ x x' := hx.under
  unfold when
  infer_instance

/-- The block of a block of the graph is the same on both sides. -/
instance (target : BlockIndex) :
    TwinBlocks E Γ (liftM (E.leftEnv.bodyBlock target) : Lower BlockId)
      (liftM (E.rightEnv.bodyBlock target)) where
  steps π s s' p p' s₁ s₁' hs _ hx hy := by
    obtain ⟨hp, rfl⟩ := check_ok hx
    obtain ⟨hp', rfl⟩ := check_ok hy
    unfold Env.bodyBlock at hp hp'
    split at hp
    · rename_i hlt
      rw [if_pos hlt] at hp'
      cases hp
      cases hp'
      exact ⟨π, (_, _), .refl π, hs, rfl, rfl, .one (hs.bodies hlt)⟩
    · cases hp

/-- Upsilons for the same phis, with registers that go together. -/
theorem forall₂_upsilons {l l' : List (NodeId × Reg)} :
    List.Forall₂ (fun u u' => u.1 = u'.1 ∧ π.regs u.2 u'.2) l l' ↔
      l.map Prod.fst = l'.map Prod.fst ∧ List.Forall₂ π.regs (l.map Prod.snd)
        (l'.map Prod.snd) := by
  rw [← List.forall₂_eq_eq_eq]
  induction l generalizing l' with
  | nil => cases l' <;> simp
  | cons u l ih =>
    cases l' with
    | nil => simp
    | cons u' l' => simp only [List.forall₂_cons, List.map_cons, ih, and_and_and_comm]

instance (target : BlockIndex) : TwinLists E Γ (phiArguments target) (phiArguments target) where
  steps π s s' rs rs' s₁ s₁' hs hΓ hx hy := by
    obtain ⟨hkeys, hregs⟩ := forall₂_upsilons.1 hs.upsilons
    have hall (phis : List NodeId) (Δ : List Link)
      [hΔ : Gives Δ (.regs (s.upsilons.map Prod.snd) (s'.upsilons.map Prod.snd))] :
        TwinLists E Δ
          (phis.mapM fun phi => match s.upsilons.lookup phi with
            | some r => pure r
            | none => crash (.noUpsilon phi target) : Lower (List Reg))
          (phis.mapM fun phi => match s'.upsilons.lookup phi with
            | some r => pure r
            | none => crash (.noUpsilon phi target)) := by
      refine inStep_mapM fun phi _ Δ' hw => ?_
      have hrel {π' : Pairing} (hπ : π'.Has Δ') :=
        lookup_forall₂ (forall₂_upsilons.2 ⟨hkeys, (hΔ.under hw.sub).holds hπ⟩) phi
      have hrel₀ := lookup_forall₂ hs.upsilons phi
      generalize s.upsilons.lookup phi = o, s'.upsilons.lookup phi = o' at hrel hrel₀
      cases hrel₀ with
      | none => exact inStep_crash
      | some =>
        refine inStep_pure (_, _) rfl rfl fun hπ => .one ?_
        cases hrel hπ with
        | some hr => exact hr
    have hargs : TwinLists E (.regs (s.upsilons.map Prod.snd) (s'.upsilons.map Prod.snd) :: Γ)
        (do (← (← read).graph.phis target).mapM fun phi => match s.upsilons.lookup phi with
          | some r => pure r
          | none => crash (.noUpsilon phi target) : Lower (List Reg))
        (do (← (← read).graph.phis target).mapM fun phi => match s'.upsilons.lookup phi with
          | some r => pure r
          | none => crash (.noUpsilon phi target)) := by
      infer_instance
    exact hargs.steps π s s' rs rs' s₁ s₁' hs (.cons hregs hΓ) hx hy

set_option synthInstance.maxSize 4000 in
instance (target : BlockIndex) :
    TwinBlocks E Γ (successorBlock target) (successorBlock target) := by
  refine .bind inferInstance fun rs => ?_
  have (Δ : List Link) [hΔ : Gives Δ (.regs rs.1 rs.2)] (p p' : BlockId) [Gives Δ (.block p p')] :
    TwinBlocks E Δ
      (if rs.1.isEmpty then pure p else do
        let here ← Emit.currentBlock
        let edge ← Emit.createBlock false
        Emit.switchTo edge
        Emit.jump p rs.1
        Emit.switchTo here
        return edge : Lower BlockId)
      (if rs.2.isEmpty then pure p' else do
        let here ← Emit.currentBlock
        let edge ← Emit.createBlock false
        Emit.switchTo edge
        Emit.jump p' rs.2
        Emit.switchTo here
        return edge) := by
    refine inStep_ite (fun hπ => ?_) inferInstance inferInstance
    rw [List.isEmpty_iff_length_eq_zero, List.isEmpty_iff_length_eq_zero,
      List.Forall₂.length_eq (hΔ.holds hπ)]
  infer_instance

instance (target : BlockIndex) : Alike E Γ (jumpTo target) (jumpTo target) := by
  unfold jumpTo
  infer_instance

/-- What is known of the nodes is replaced on both sides. -/
theorem Twin.setFacts (h : Twin E π s s') (facts : AbstractState) :
    Twin E π { s with facts } { s' with facts } :=
  h.keep (.refl h.builder) { h.data with facts := rfl } ⟨rfl, rfl⟩ ⟨rfl, rfl⟩ ⟨rfl, rfl⟩ rfl h.fits

instance : Alike E Γ invalidateDominated invalidateDominated where
  steps π s s' u u' s₁ s₁' hs _ hx hy := by
    rw [invalidateDominated, read_bind, get_bind] at hx hy
    obtain ⟨facts, hfacts, hx⟩ := check_bind_ok hx
    obtain ⟨facts', hfacts', hy⟩ := check_bind_ok hy
    rw [← hs.data.block, ← hs.data.facts, hfacts] at hfacts'
    cases hfacts'
    cases hx
    cases hy
    exact ⟨π, (), .refl π, hs.setFacts facts, rfl, rfl, .nil⟩

/-- From here on nothing is known. -/
theorem inStep_invalidate :
    Alike E Γ (modify fun s => { s with facts := s.facts.invalidate } : Lower Unit)
    (modify fun s => { s with facts := s.facts.invalidate }) :=
  inStep_modify fun {π s s'} h _ => by
    rw [← h.data.facts]
    exact h.setFacts s.facts.invalidate

instance : Alike E Γ endUnreachable endUnreachable :=
  .bind inferInstance fun _ => .bind inStep_invalidate fun _ => inferInstance

/-! ## The runtime -/

instance (helper : Helper) (args args' : List Reg) [hargs : Gives Γ (.regs args args')] :
    Twins E Γ (callHelper helper args) (callHelper helper args') :=
  inStep_ite (fun hπ => by rw [List.Forall₂.length_eq (hargs.holds hπ)]) inferInstance inStep_crash

instance (cell cell' : Reg) [Gives Γ (.reg cell cell')] :
    Alike E Γ (writeBarrier cell) (writeBarrier cell') := by
  unfold writeBarrier
  infer_instance

end Lowering

end SpecJit
