import SpecJit.Proofs.ExactFacts
import SpecJit.Proofs.Lowering.Checks
import SpecJit.Proofs.Lowering.DeadEnds
import SpecJit.Proofs.Lowering.Laws.Switch
import SpecJit.Proofs.Lowering.Passing

/-!
# What a node proves about the word it uses

The code of a node reads its uses and then does what is left to do (`staged_lowerOp`). While it
reads them, control gets through checks that narrow the fact about a used node, and the fact stays
true of the word that the node is held in, unless a check overlooks the word (`upholding`); what
follows learns nothing about the node (`sparing`). Executing the node narrows the facts by all of
its uses, also by those that no code tests. So the fact that is left is true of the word exactly if
the word is of the kinds of the uses that are not tested, and is not overlooked by the tests of the
others (`completed_use_iff`).
-/

namespace SpecJit

/-! ## What the analysis takes from uses -/

namespace AbstractValue

theorem filterValue_subset (v : AbstractValue) (registry : Registry) (c : FrozenValue) :
    (v.filterValue registry c).ty.isSubsetOf v.ty = true := by
  have hkinds : (v.ty &&& (constant registry c).ty).isSubsetOf v.ty = true :=
    SpecType.and_subset_left
  rw [filterValue]
  split
  · exact SpecType.none_subset _
  · dsimp only
    split
    · exact hkinds
    · split
      · exact hkinds
      · split <;> exact SpecType.subset_trans (filterStructures_narrows _ _).ty hkinds

end AbstractValue

namespace AbstractState

variable {g : Graph} {s s' : AbstractState} {id x : NodeId} {node : Node} {e : Edge}
  {es : List Edge} {u v : AbstractValue} {mask kind : SpecType}

theorem factOf_filter (h : s.filter g id mask = .ok s') (hv : s.factOf g x = .ok v) :
    s'.factOf g x = .ok (if x = id then v.filter mask else v) := by
  split
  · rename_i hx
    subst hx
    rw [filter_ok h hv, factOf_narrowTo]
  · rename_i hx
    obtain ⟨known, -, rfl⟩ := exists_of_filter h
    rw [factOf_narrowTo_ne _ _ hx, hv]

/-- Once the uses of a node are narrowed, what is known of a node is what was known before, and what
the kinds of its uses say. -/
theorem filterUses_narrowed (h : filterUses g es s = .ok s') (hvalid : s'.valid = true)
    (hv : s.factOf g x = .ok v) :
    ∃ v', s'.factOf g x = .ok v' ∧ v'.ty.isSubsetOf v.ty = true ∧
      ∀ e ∈ es, e.node = x → e.useKind ≠ .untyped →
        v'.ty.isSubsetOf e.useKind.typeFilter = true := by
  induction es generalizing s v with
  | nil =>
    cases h
    exact ⟨v, hv, SpecType.subset_refl _, by simp⟩
  | cons e es ih =>
    obtain ⟨hk, h⟩ | ⟨s₁, h₁, ⟨-, h⟩ | ⟨hinvalid, rfl⟩⟩ := filterUses_cons h
    · obtain ⟨v', hv', hsub, hall⟩ := ih h hv
      refine ⟨v', hv', hsub, fun e' he' hx hk' => ?_⟩
      rcases List.mem_cons.1 he' with rfl | he'
      · exact absurd hk hk'
      · exact hall e' he' hx hk'
    · obtain ⟨v', hv', hsub, hall⟩ := ih h (factOf_filter h₁ hv)
      have hfirst : (if x = e.node then v.filter e.useKind.typeFilter else v).ty.isSubsetOf
          v.ty = true := by
        split
        · exact (v.filter_narrows _).ty
        · exact SpecType.subset_refl _
      refine ⟨v', hv', SpecType.subset_trans hsub hfirst, fun e' he' hx hk' => ?_⟩
      rcases List.mem_cons.1 he' with rfl | he'
      · rw [if_pos hx.symm] at hsub
        exact SpecType.subset_trans hsub (v.filter_ty_subset _)
      · exact hall e' he' hx hk'
    · rw [hvalid] at hinvalid
      cases hinvalid

/-- A fact that is true of a value stays so if the value is of the kinds of all uses. -/
theorem filterUses_describes (h : filterUses g es s = .ok s') (hv : s.factOf g x = .ok v)
    (hdesc : v.Describes kind)
    (hall : ∀ e ∈ es, e.node = x → e.useKind ≠ .untyped →
      kind.isSubsetOf e.useKind.typeFilter = true) :
    ∃ v', s'.factOf g x = .ok v' ∧ v'.Describes kind := by
  induction es generalizing s v with
  | nil =>
    cases h
    exact ⟨v, hv, hdesc⟩
  | cons e es ih =>
    have hrest : ∀ e' ∈ es, e'.node = x → e'.useKind ≠ .untyped →
        kind.isSubsetOf e'.useKind.typeFilter = true :=
      fun e' he' => hall e' (List.mem_cons_of_mem e he')
    rw [filterUses] at h
    split at h
    · exact ih h hv hdesc hrest
    · rename_i hk
      obtain ⟨s₁, h₁, h⟩ := bind_eq_ok_iff.1 h
      have hfact := factOf_filter h₁ hv
      have hfirst : (if x = e.node then v.filter e.useKind.typeFilter else v).Describes kind := by
        split
        · rename_i hx
          exact hdesc.filter (hall e List.mem_cons_self hx.symm (by simpa using hk))
        · exact hdesc
      split at h
      · exact ih h hfact hfirst hrest
      · cases h
        exact ⟨_, hfact, hfirst⟩

theorem Effect.valid (h : Effect g s id node s') (hvalid : s'.valid = true) : s.valid = true := by
  cases h with
  | dead => cases hvalid
  | checkStructure | checkCell | checkKinds =>
    rw [narrowTo_valid, Bool.and_eq_true] at hvalid
    exact hvalid.1
  | _ => exact hvalid

/-- The effect of a node on what is known of another one: only a node that checks more than the kind
of its use narrows it. -/
theorem Effect.other (h : Effect g s id node s') (hid : x ≠ id) (hup : node.op ≠ .upsilon x)
    (hv : s.factOf g x = .ok v) :
    ∃ u, s'.factOf g x = .ok u ∧ u.ty.isSubsetOf v.ty = true ∧
      (node.op.refinesUse = false → u.ty = v.ty) := by
  have hsame (hfact : s'.factOf g x = .ok v) : ∃ u, s'.factOf g x = .ok u ∧
      u.ty.isSubsetOf v.ty = true ∧ (node.op.refinesUse = false → u.ty = v.ty) :=
    ⟨v, hfact, SpecType.subset_refl _, fun _ => rfl⟩
  have hnarrow {y : NodeId} {known new : AbstractValue} (hs' : s' = s.narrowTo y new)
      (hop : node.op.refinesUse = true) (hknown : s.factOf g y = .ok known)
      (hsub : new.ty.isSubsetOf known.ty = true) : ∃ u, s'.factOf g x = .ok u ∧
      u.ty.isSubsetOf v.ty = true ∧ (node.op.refinesUse = false → u.ty = v.ty) := by
    subst hs'
    by_cases hx : x = y
    · subst hx
      obtain rfl : v = known := Except.ok.inj (hv.symm.trans hknown)
      exact ⟨new, factOf_narrowTo .., hsub, fun hno => by rw [hop] at hno; cases hno⟩
    · exact hsame ((factOf_narrowTo_ne _ _ hx).trans hv)
  have hset {y : NodeId} {known : AbstractValue} {structures : StructureFact}
      (hs' : s' = s.setFact y { known with structures }) (hknown : s.factOf g y = .ok known) :
      ∃ u, s'.factOf g x = .ok u ∧ u.ty.isSubsetOf v.ty = true ∧
      (node.op.refinesUse = false → u.ty = v.ty) := by
    subst hs'
    by_cases hx : x = y
    · subst hx
      obtain rfl : v = known := Except.ok.inj (hv.symm.trans hknown)
      exact ⟨_, factOf_setFact_self .., SpecType.subset_refl _, fun _ => rfl⟩
    · exact hsame ((factOf_setFact_ne hx _ _).trans hv)
  cases h with
  | nothing | dead => exact hsame hv
  | phi | result => exact hsame ((factOf_setFact_ne hid _ _).trans hv)
  | @upsilon phi _ hop =>
    have hne : x ≠ phi := by
      rintro rfl
      exact hup hop
    exact hsame ((factOf_setFact_ne hne _ _).trans hv)
  | checkStructure hop _ hknown =>
    exact hnarrow rfl (by rw [hop]; rfl) hknown (AbstractValue.filterStructures_narrows _ _).ty
  | checkCell hop _ hknown =>
    exact hnarrow rfl (by rw [hop]; rfl) hknown (AbstractValue.filterValue_subset _ _ _)
  | checkKinds hop _ hknown => exact hnarrow rfl hop hknown (AbstractValue.filter_narrows _ _).ty
  | putStructure _ _ hknown | multiPutByOffset _ _ hknown => exact hset rfl hknown

/-- Forgetting structures keeps the kinds. -/
theorem factOf_forgetStructures (h : s.factOf g x = .ok v) :
    ∃ u, s.forgetStructures.factOf g x = .ok u ∧ u.ty = v.ty := by
  unfold factOf at h ⊢
  rw [get?_forgetStructures]
  cases hget : s.current.get? x with
  | none =>
    rw [hget] at h
    exact ⟨v, h, rfl⟩
  | some known =>
    rw [hget] at h
    cases h
    refine ⟨v.clobberStructures, rfl, ?_⟩
    unfold AbstractValue.clobberStructures
    split <;> rfl

/-- The kinds that executing a node leaves for another node: those that narrowing its uses leaves,
unless the node checks more than the kind of its use. -/
theorem execute_other (h : s.execute g id = .ok s') (hvalid : s'.valid = true)
    (hnode : g.node id = .ok node) (hid : x ≠ id) (hup : node.op ≠ .upsilon x)
    (hv : s.factOf g x = .ok v) :
    ∃ s₁ v₁ u, filterUses g node.children s = .ok s₁ ∧ s₁.valid = true ∧
      s₁.factOf g x = .ok v₁ ∧ s'.factOf g x = .ok u ∧ u.ty.isSubsetOf v₁.ty = true ∧
      (node.op.refinesUse = false → u.ty = v₁.ty) := by
  obtain ⟨node', s₁, s₂, hn, hu, -, hs₂, ht, rfl⟩ := execute_ok h hvalid
  obtain rfl : node = node' := Except.ok.inj (hnode.symm.trans hn)
  have heffect := transfer_ok ht
  have hs₁ := heffect.valid hs₂
  obtain ⟨v₁, hv₁, -, -⟩ := filterUses_narrowed hu hs₁ hv
  obtain ⟨u, hfact, hsub, hty⟩ := heffect.other hid hup hv₁
  split
  · obtain ⟨u', hfact', hty'⟩ := factOf_forgetStructures hfact
    exact ⟨s₁, v₁, u', hu, hs₁, hv₁, hfact', by rw [hty']; exact hsub,
      fun hop => hty'.trans (hty hop)⟩
  · exact ⟨s₁, v₁, u, hu, hs₁, hv₁, hfact, hsub, hty⟩

theorem markForReverification_ok {b : BlockIndex} (h : s.markForReverification g b = .ok s') :
    s'.valid = s.valid ∧ s'.current = s.current := by
  rw [markForReverification] at h
  obtain ⟨facts, -, h⟩ := bind_eq_ok_iff.1 h
  dsimp only at h
  split at h
  · cases h
    exact ⟨rfl, rfl⟩
  · obtain ⟨head, -, h⟩ := bind_eq_ok_iff.1 h
    cases h
    exact ⟨rfl, rfl⟩

/-- No more is known of the node than before. -/
def Law.sparing (x : NodeId) : Law where
  rel g f f' := f'.valid = true → f.valid = true ∧ f'.factOf g x = f.factOf g x
  refl _ _ hvalid := ⟨hvalid, rfl⟩
  trans h₁ h₂ hvalid := by
    obtain ⟨hvalid₁, hfact₂⟩ := h₂ hvalid
    obtain ⟨hvalid₀, hfact₁⟩ := h₁ hvalid₁
    exact ⟨hvalid₀, hfact₂.trans hfact₁⟩

/-- The node is known to be of the kinds that it was before, at least. -/
def Law.narrowing (x : NodeId) : Law where
  rel g f f' := f'.valid = true → f.valid = true ∧ ∀ v, f.factOf g x = .ok v →
    ∃ v', f'.factOf g x = .ok v' ∧ v'.ty.isSubsetOf v.ty = true
  refl _ _ hvalid := ⟨hvalid, fun v hv => ⟨v, hv, SpecType.subset_refl _⟩⟩
  trans h₁ h₂ hvalid := by
    obtain ⟨hvalid₁, hfact₂⟩ := h₂ hvalid
    obtain ⟨hvalid₀, hfact₁⟩ := h₁ hvalid₁
    refine ⟨hvalid₀, fun v hv => ?_⟩
    obtain ⟨v₁, hv₁, hsub₁⟩ := hfact₁ v hv
    obtain ⟨v₂, hv₂, hsub₂⟩ := hfact₂ v₁ hv₁
    exact ⟨v₂, hv₂, SpecType.subset_trans hsub₂ hsub₁⟩

theorem Law.sparing_narrowing (h : (Law.sparing x).rel g s s') : (Law.narrowing x).rel g s s' := by
  intro hvalid
  obtain ⟨hvalid₀, hfact⟩ := h hvalid
  exact ⟨hvalid₀, fun v hv => ⟨v, hfact.trans hv, SpecType.subset_refl _⟩⟩

end AbstractState

/-- The kinds that the checks of the use test for. A check for integers of 52 bits only tests for
numbers. -/
def UseKind.testedFilter : UseKind → SpecType
  | .machineInt => .bytecodeNumber
  | k => k.typeFilter

namespace Lowering

open Lir
open Value (kindOf overlooked passes)

section

variable {α β : Type} {σ : Type} {m : Machine σ} {c c' : Config σ} {env : Env} {s s' : State}
  {id x : NodeId} {node : Node} {e : Edge} {r value : Reg} {w : Word} {n : Nat} {u : Unit}
  {mask : SpecType} {kind : ExitKind} {profile : Option Reg}

/-! ## Laws of what is known and held -/

/-- No more is known of the node than before. -/
abbrev sparing (x : NodeId) : Law := onFacts (.sparing x)

/-- The node is known to be of the kinds that it was before, at least. -/
abbrev narrowing (x : NodeId) : Law := onFacts (.narrowing x)

theorem narrows_sparing (hne : x ≠ id) : (sparing x).Narrows id where
  narrows h := by
    obtain ⟨known, -, rfl⟩ := AbstractState.exists_of_filter h
    refine ⟨fun hvalid => ?_, rfl⟩
    dsimp only at hvalid ⊢
    rw [AbstractState.narrowTo_valid, Bool.and_eq_true] at hvalid
    exact ⟨hvalid.1, AbstractState.factOf_narrowTo_ne _ _ hne⟩

instance : (sparing x).Invalidates where
  gives_up _ _ := ⟨fun hvalid => Bool.noConfusion hvalid, rfl⟩
  marks h := by
    obtain ⟨hvalid, hcurrent⟩ := AbstractState.markForReverification_ok h
    refine ⟨fun hv => ⟨hvalid ▸ hv, ?_⟩, rfl⟩
    simp only [AbstractState.factOf, hcurrent]

instance : (narrowing x).Narrows id where
  narrows {env s facts mask} h := by
    obtain ⟨known, hknown, rfl⟩ := AbstractState.exists_of_filter h
    refine ⟨fun hvalid => ?_, rfl⟩
    dsimp only at hvalid ⊢
    rw [AbstractState.narrowTo_valid, Bool.and_eq_true] at hvalid
    refine ⟨hvalid.1, fun v hv => ⟨_, AbstractState.factOf_filter h hv, ?_⟩⟩
    split
    · exact (v.filter_narrows mask).ty
    · exact SpecType.subset_refl _

instance : (narrowing x).Invalidates where
  gives_up _ _ := ⟨fun hvalid => Bool.noConfusion hvalid, rfl⟩
  marks h := by
    obtain ⟨hfacts, hdepth⟩ := (inferInstance : (sparing x).Invalidates).marks h
    exact ⟨AbstractState.Law.sparing_narrowing hfacts, hdepth⟩

/-- The node stays held as a boxed value. -/
def keepingBoxed (x : NodeId) : Law where
  rel env s s' := ∀ r, heldIn env s x .jsValue = some r → heldIn env s' x .jsValue = some r
  refl _ _ _ h := h
  trans h₁ h₂ r h := h₂ r (h₁ r h)

theorem keepingBoxed_same (hvalues : s'.values = s.values) (hblock : s'.block = s.block) :
    (keepingBoxed x).rel env s s' := by
  intro r hr
  rw [heldIn, hvalues, hblock]
  exact hr

instance : (keepingBoxed x).Uncoded where
  counts _ _ _ := keepingBoxed_same rfl rfl
  arms h := h
  code _ _ _ := keepingBoxed_same rfl rfl

instance : (keepingBoxed x).Rebuilds where
  rebuilding := inferInstance
  captures kind profile := (inferInstance : Quiet (buildExit kind profile)).mono fun _ _ _ h =>
    keepingBoxed_same h.values h.block

instance : (keepingBoxed x).Narrows id where
  narrows _ := keepingBoxed_same rfl rfl

instance : (keepingBoxed x).Invalidates where
  gives_up _ _ := keepingBoxed_same rfl rfl
  marks _ := keepingBoxed_same rfl rfl

theorem obeys_record {form : Form} (h : (x, Form.jsValue) ≠ (id, form)) (r : Reg) :
    Obeys (keepingBoxed x) (record id form r) :=
  obeys_modify fun env s q hq => by
    dsimp only
    split
    · have hne : ((x, Form.jsValue) == (id, form)) = false := beq_eq_false_iff_ne.2 h
      simpa only [heldIn, List.lookup_cons, hne] using hq
    · exact hq

instance : (keepingBoxed x).Notes id where
  notes r hform _ := obeys_record (by simp [Ne.symm hform]) r

instance : Obeys (keepingBoxed x) (boxedNode id) := by
  by_cases hx : x = id
  · subst hx
    refine ⟨fun env s a s' h r hr => ?_⟩
    rw [boxedNode, held?_bind, hr] at h
    cases h
    exact hr
  · exact obeys_boxedNode fun r => obeys_record (by simp [hx]) r

/-- Control gets through the code, and no more changes than that facts are narrowed. -/
abbrev calm (x : NodeId) : Law :=
  (onBuilders Builder.passing).and ((keepingBoxed x).and (narrowing x))

/-! ## Uses and what the code tests of them -/

/-- The facts say that the used value is of the kinds that the checks of the use test for. They do
behind code that checks the use (`ensures_checkUse`); behind code that does not look at it, only if
they did before. -/
def Assured (env : Env) (s : State) (e : Edge) : Prop :=
  ∃ known, s.facts.factOf env.graph e.node = .ok known ∧
    known.isType e.useKind.testedFilter = true

/-- The word is not overlooked by the uses of `x` that are known to be tested for. -/
def Seen (env : Env) (memory : Memory) (node : Node) (x : NodeId) (s : State) (w : Word) : Prop :=
  ∀ e ∈ node.children, e.node = x → e.useKind.isProven = false → Assured env s e →
    overlooked env.layout memory w e.useKind = false

/-- The facts that are known later are narrower, and so more uses are known to be tested for. -/
theorem Seen.before {memory : Memory} (h : Seen env memory node x s' w)
    (hf : (narrowing x).rel env s s') (hvalid : s'.facts.valid = true) :
    Seen env memory node x s w := by
  intro e he hx hk hassured
  obtain ⟨known, hknown, hty⟩ := hassured
  subst hx
  obtain ⟨known', hknown', hsub⟩ := (hf.1 hvalid).2 known hknown
  exact h e he rfl hk ⟨known', hknown', SpecType.subset_trans hsub hty⟩

theorem Informed.spared {memory : Memory} (h : Informed env memory s x w)
    (hs : (sparing x).rel env s s') (hvalid : s'.facts.valid = true) :
    Informed env memory s' x w where
  valid := hvalid
  depth := hs.2.trans h.depth
  fact := by
    obtain ⟨known, hknown, hdesc⟩ := h.fact
    exact ⟨known, (hs.1 hvalid).2.trans hknown, hdesc⟩

/-- Where a run gets through the code, a true fact about `x` stays true of the word that `x` is held
in, if the word is seen. -/
def Upholds (node : Node) (x : NodeId) (env : Env) (s s' : State) : Prop :=
  ∀ {σ : Type} {m : Machine σ} {n : Nat} {c c' : Config σ} {r : Reg} {w : Word},
    m.Through s.builder s'.builder n c c' → heldIn env s x .jsValue = some r →
    c.Has s.builder r .i64 w → Informed env c.memory s x w → s'.facts.valid = true →
    Seen env c.memory node x s' w → Informed env c.memory s' x w

theorem Upholds.of_spared (h : (sparing x).rel env s s') : Upholds node x env s s' :=
  fun _ _ _ hi hvalid _ => hi.spared h hvalid

/-- The law of calm code that keeps a fact about `x` true. -/
def upholding (node : Node) (x : NodeId) : Law where
  rel env s s' := (calm x).rel env s s' ∧ Upholds node x env s s'
  refl env s := ⟨(calm x).refl env s, Upholds.of_spared ((sparing x).refl env s)⟩
  trans {env s s₁ s₂} := by
    rintro ⟨hcalm₁, huphold₁⟩ ⟨hcalm₂, huphold₂⟩
    refine ⟨(calm x).trans hcalm₁ hcalm₂, fun {σ m n c c' r w} ht hr hw hi hvalid hseen => ?_⟩
    obtain ⟨hpasses₁, hboxed₁, -⟩ := hcalm₁
    obtain ⟨hpasses₂, -, hnarrow₂⟩ := hcalm₂
    have e₁ := (hpasses₁ m).emits ht.start.wf
    have e₂ := ((hpasses₂ m).emits e₁.after).toExtends
    obtain ⟨k, c₁, ht₁, hf⟩ := ht.rest (hpasses₁ m) e₂
    have hi₁ := huphold₁ (ht.first e₂) hr hw hi (hnarrow₂.1 hvalid).1 (hseen.before hnarrow₂ hvalid)
    rw [← hf.memory] at hi₁ hseen ⊢
    exact huphold₂ ht₁ (hboxed₁ r hr) (hw.later hf) hi₁ hvalid hseen

theorem upholding_of {y : Lower α} [hy : Obeys (calm x) y]
    (h : ∀ env s a s', y env s = .ok (a, s') → Upholds node x env s s') :
    Obeys (upholding node x) y where
  obeys env s a s' hok := ⟨hy.of_ok hok, h env s a s' hok⟩

instance (priority := low) {y : Lower α} [Obeys (calm x) y] [hy : Obeys (sparing x) y] :
    Obeys (upholding node x) y :=
  upholding_of fun _ _ _ _ h => Upholds.of_spared (hy.of_ok h)

instance : (upholding node x).Speculates where
  computing := {
    compute := fun hinst h env s => by
      refine ⟨⟨fun m => ?_, keepingBoxed_same rfl rfl, onFacts_same rfl rfl⟩,
        fun _ _ _ hi _ _ => ⟨hi.valid, hi.depth, hi.fact⟩⟩
      exact (inferInstance : Emit.Computing Builder.passing).compute hinst h m }
  speculates _ _ _ := inferInstance

/-! ## What is known behind a check -/

/-- A check that a run gets through was left out, or it narrowed the fact about its node. -/
theorem typeCheck_facts {failing : Lower Reg} [KeepsFacts failing]
    (h : typeCheck id mask kind profile failing env s = .ok (u, s'))
    (ht : m.Through s.builder s'.builder n c c') (hdepth : s.armDepth = 0)
    (hvalid : s'.facts.valid = true) :
    ∃ known, s.facts.factOf env.graph id = .ok known ∧ s'.armDepth = 0 ∧
      (known.isType mask = true ∧ s'.facts = s.facts ∨
        s'.facts = s.facts.narrowTo id (known.filter mask)) := by
  rw [typeCheck] at h
  obtain ⟨known, s₁, h₁, hrest⟩ := bind_ok h
  obtain ⟨hknown, rfl⟩ := factOf_ok h₁
  have harm : (s₁.armDepth != 0) = false := by simp [hdepth]
  rw [get_bind, harm, Bool.not_false, Bool.and_true] at hrest
  by_cases hsub : known.isType mask = true
  · rw [if_pos hsub] at hrest
    cases hrest
    exact ⟨known, hknown, hdepth, .inl ⟨hsub, rfl⟩⟩
  rw [if_neg hsub] at hrest
  by_cases hnot : known.isNotType mask = true
  · rw [if_pos hnot] at hrest
    by_cases hvalid₁ : s₁.facts.valid = true
    · exact absurd (terminate_leaves hrest ht.completes ht.start hvalid₁) ht.not_leaves
    · rw [terminate, get_bind] at hrest
      obtain ⟨t, b₁, h₂, hrest⟩ := emit_bind_ok hrest
      obtain ⟨rfl, -⟩ := Emit.isTerminated_ok h₂
      rw [if_pos (by simp [hvalid₁])] at hrest
      cases hrest
      exact absurd hvalid hvalid₁
  · rw [if_neg hnot] at hrest
    obtain ⟨failed, s₂, h₂, hrest⟩ := bind_ok hrest
    obtain ⟨_, s₃, h₃, hrest⟩ := bind_ok hrest
    rw [if_pos rfl, get_bind, read_bind] at hrest
    obtain ⟨facts, hfacts, hrest⟩ := check_bind_ok hrest
    cases hrest
    obtain ⟨hfacts₂, hdepth₂⟩ := KeepsFacts.kept env s₁ failed s₂ h₂
    obtain ⟨hfacts₃, hdepth₃⟩ := KeepsFacts.kept env s₂ _ s₃ h₃
    rw [hfacts₃, hfacts₂] at hfacts
    exact ⟨known, hknown, (hdepth₃.trans hdepth₂).trans hdepth,
      .inr (AbstractState.filter_ok hfacts hknown)⟩

/-- A run gets through the step only if the node is known to be of the given kinds then. -/
class Ensures (id : NodeId) (mask : SpecType) (y : Lower α) : Prop where
  ensures : ∀ {σ : Type} {m : Machine σ} {env : Env} {s s' : State} {a : α} {n : Nat}
    {c c' : Config σ}, y env s = .ok (a, s') → m.Through s.builder s'.builder n c c' →
    s.armDepth = 0 → s'.facts.valid = true →
    ∃ known, s'.facts.factOf env.graph id = .ok known ∧ known.isType mask = true

instance {failing : Lower Reg} [KeepsFacts failing] :
    Ensures id mask (typeCheck id mask kind profile failing) where
  ensures h ht hdepth hvalid := by
    obtain ⟨known, hknown, -, ⟨hty, hfacts⟩ | hfacts⟩ := typeCheck_facts h ht hdepth hvalid
    · exact ⟨known, by rw [hfacts]; exact hknown, hty⟩
    · exact ⟨known.filter mask, by rw [hfacts]; exact AbstractState.factOf_narrowTo ..,
        known.filter_ty_subset mask⟩

/-- The last check counts. -/
instance {y : Lower β} {f : β → Lower α} [hy : Obeys (calm id) y] [∀ b, Tidy (f b)]
    [hf : ∀ b, Ensures id mask (f b)] : Ensures id mask (y >>= f) where
  ensures {σ m env s s' a n c c'} h ht hdepth hvalid := by
    obtain ⟨b, s₁, h₁, h₂⟩ := bind_ok h
    obtain ⟨hpasses, -, -, hdepth₁⟩ := hy.of_ok h₁
    have e₁ := (hpasses m).emits ht.start.wf
    have e₂ : s₁.builder.Emits [] s'.builder := Tidy.after h₂ (.refl e₁.after)
    obtain ⟨k, c₁, ht₁, -⟩ := ht.rest (hpasses m) e₂.toExtends
    exact (hf b).ensures h₂ ht₁ (hdepth₁.trans hdepth) hvalid

instance {failing : Lower Reg} [KeepsFacts failing] :
    Ensures id mask (typeCheckValue id value mask failing) :=
  inferInstanceAs (Ensures id mask (typeCheck _ _ _ _ _))

instance {cellType : CellType} : Ensures id mask (checkCellType id value mask cellType) := by
  unfold checkCellType
  infer_instance

set_option synthInstance.maxSize 400 in
theorem ensures_checkUse (hk : Value.checksBoxed e.useKind = true) :
    Ensures e.node e.useKind.testedFilter (checkUse e value) := by
  obtain ⟨id, k, kill⟩ := e
  unfold checkUse checkInt32 checkBoolean checkCell
  cases k <;>
    first
      | exact Bool.noConfusion hk
      | simp only [UseKind.testedFilter, UseKind.typeFilter]; infer_instance

/-! ## How uses are read -/

/-- A boxed value that is checked: where a run gets through the checks of the use, the word is of
the kinds that they stand for, unless they overlook it. -/
theorem upholds_asValue {a : Reg} (he : e ∈ node.children) (h : asValue e env s = .ok (a, s')) :
    Upholds node e.node env s s' := by
  intro σ m n c c' r w ht hr hw hi hvalid hseen
  obtain ⟨value, s₁, h₁, hrest⟩ := bind_ok h
  rw [boxedNode, held?_bind, hr] at h₁
  cases h₁
  obtain ⟨_, s₂, h₂, hrest⟩ := bind_ok hrest
  cases hrest
  by_cases hk : Value.checksBoxed e.useKind = true
  · obtain ⟨hproven, -⟩ : e.useKind.isProven = false ∧ e.useKind.isDoubleRep = false := by
      simpa [Value.checksBoxed] using hk
    have hassured : Assured env s' e := (ensures_checkUse hk).ensures h₂ ht hi.depth hvalid
    obtain hleaves | ⟨-, hi', -⟩ :=
      checkUse_checked h₂ ht.completes ht.start hw hi hproven (hseen e he rfl hproven hassured)
    · exact absurd hleaves ht.not_leaves
    · exact hi'
  · rw [checkUse_unchecked (by simpa using hk)] at h₂
    cases h₂
    exact hi

/-- A boxed value that the code checks in its own way, whatever the kind of the use. -/
theorem upholding_boxed {y : Reg → Lower Unit} {f : Reg → Lower α} [∀ r, Tidy (y r)]
    [∀ r, Tidy (f r)] [∀ r, KeepsFacts (f r)]
    [Obeys (calm x) (boxedNode x >>= fun r => y r >>= fun _ => f r)]
    (hy : ∀ {σ : Type} {m : Machine σ} {env : Env} {s s' : State} {c : Config σ} {r : Reg}
      {w : Word}, y r env s = .ok ((), s') → s'.builder.Completes m.func → m.At s.builder c →
      c.Has s.builder r .i64 w → Informed env c.memory s x w →
      Checked m env s c s' x w mask) :
    Obeys (upholding node x) (boxedNode x >>= fun r => y r >>= fun _ => f r) :=
  upholding_of fun env s a s' h {σ m n c c' r w} ht hr hw hi hvalid hseen => by
    obtain ⟨q, s₁, h₁, hrest⟩ := bind_ok h
    rw [boxedNode, held?_bind, hr] at h₁
    cases h₁
    obtain ⟨_, s₂, h₂, h₃⟩ := bind_ok hrest
    have e₂ : s.builder.Emits [] s₂.builder := Tidy.after h₂ (.refl ht.start.wf)
    have e₃ : s₂.builder.Emits [] s'.builder := Tidy.after h₃ (.refl e₂.after)
    obtain ⟨hfacts, hdepth⟩ := KeepsFacts.kept env s₂ a s' h₃
    obtain hleaves | ⟨-, hi', -⟩ := hy h₂ (e₃.toExtends.completes ht.completes) ht.start hw hi
    · exact absurd (hleaves.grow e₃.toExtends) ht.not_leaves
    · exact ⟨hvalid, hdepth.trans hi'.depth, by rw [hfacts]; exact hi'.fact⟩

set_option synthInstance.maxSize 400 in
theorem upholding_asInt32 : Obeys (upholding node e.node) (asInt32 e) := by
  have hboxed : Obeys (upholding node e.node) (do
      let boxed ← boxedNode e.node
      checkInt32 e.node boxed
      let r ← Emit.truncate boxed
      record e.node .int32 r
      return r) :=
    upholding_boxed fun h hm hc hw hi =>
      (typeCheckValue_tested (k := .int32) h hm hc hi (.ofEmit (notInt32_yields hw)) rfl
        rfl).checked
  refine .bind inferInstance fun held => ?_
  split
  · infer_instance
  refine .bind inferInstance fun used => ?_
  split
  · infer_instance
  · infer_instance
  · infer_instance
  · infer_instance
  · refine .bind inferInstance fun held => ?_
    dsimp only
    split
    · exact .bind inferInstance fun _ => hboxed
    · exact hboxed

set_option synthInstance.maxSize 400 in
theorem upholding_asBoolean : Obeys (upholding node e.node) (asBoolean e) := by
  have hboxed : Obeys (upholding node e.node) (do
      let boxed ← boxedNode e.node
      checkBoolean e.node boxed
      let r ← Emit.icmpImm .eq boxed (wordImm Value.trueWord)
      record e.node .boolean r
      return r) :=
    upholding_boxed fun h hm hc hw hi =>
      (typeCheckValue_tested (k := .boolean) h hm hc hi
        (.bind (.ofEmit (isBoolean_yields hw)) fun _ ht => .ofEmit (negated_yields ht)) rfl
        rfl).checked
  refine .bind inferInstance fun held => ?_
  split
  · infer_instance
  refine .bind inferInstance fun used => ?_
  split
  · infer_instance
  · infer_instance
  · refine .bind inferInstance fun held => ?_
    dsimp only
    split
    · exact .bind inferInstance fun _ => hboxed
    · exact hboxed

/-- The check of a double narrows what is known of its node, whatever word the node is held in. -/
theorem upholding_typeCheck (kind : ExitKind) (profile : Option Reg) (failing : Lower Reg)
    [Tidy failing] [Passed failing] [KeepsFacts failing] [Obeys (keepingBoxed e.node) failing]
    (he : e ∈ node.children)
    (hd : e.useKind = .doubleRepReal ∨ e.useKind = .doubleRepMachineInt) :
    Obeys (upholding node e.node)
      (typeCheck e.node e.useKind.typeFilter kind profile failing) := by
  have : Obeys (narrowing e.node) failing :=
    (inferInstance : KeepsFacts failing).mono fun _ _ _ h => onFacts_same h.1 h.2
  refine upholding_of fun env s a s' h {σ m n c c' r w} ht hr hw hi hvalid hseen => ?_
  have hassured : Assured env s' e := by
    have hty := (inferInstance : Ensures e.node e.useKind.typeFilter
      (typeCheck e.node e.useKind.typeFilter kind profile failing)).ensures h ht hi.depth hvalid
    rcases hd with hd | hd <;> simpa [Assured, UseKind.testedFilter, hd] using hty
  have hproven : e.useKind.isProven = false := by rcases hd with hd | hd <;> rw [hd] <;> rfl
  have hmask : (kindOf env.layout c.memory w).isSubsetOf e.useKind.typeFilter = true := by
    have hover := hseen e he rfl hproven hassured
    rcases hd with hd | hd <;> simpa [overlooked, UseKind.typeFilter, hd] using hover
  obtain ⟨known, hknown, hdesc⟩ := hi.fact
  obtain ⟨known', hknown', hdepth, hfacts⟩ := typeCheck_facts h ht hi.depth hvalid
  obtain ⟨-, hfact, -⟩ := AbstractState.narrowed_describes hi.valid hknown hdesc hmask
    (hfacts.imp And.right fun hfacts => ⟨known', hknown', hfacts⟩)
  exact ⟨hvalid, hdepth, hfact⟩

theorem upholding_asDouble (he : e ∈ node.children) :
    Obeys (upholding node e.node) (asDouble e) := by
  refine .bind inferInstance fun value => ?_
  split
  · rename_i hk
    have hcheck := upholding_typeCheck .badType none (Emit.fcmp .unordered value value) he (.inl hk)
    rw [hk] at hcheck
    exact .bind hcheck fun _ => inferInstance
  · rename_i hk
    have hcheck := upholding_typeCheck .badType none (isNotInt52 value) he (.inr hk)
    rw [hk] at hcheck
    exact .bind hcheck fun _ => inferInstance
  · infer_instance

instance : (upholding node x).ReadsUses node where
  reads e he := by
    by_cases hx : x = e.node
    · subst hx
      exact ⟨upholding_of fun _ _ _ _ => upholds_asValue he, upholding_asInt32, inferInstance,
        inferInstance, upholding_asDouble he, upholding_asBoolean⟩
    · have := narrows_sparing hx
      exact ⟨inferInstance, inferInstance, inferInstance, inferInstance, inferInstance,
        inferInstance⟩

/-! ## What is left to do -/

instance {F : AbstractState.Law} [(onFacts F).Leaves] : (onFacts F).Lowers where
  enters _ := inferInstance
  sites _ _ _ := onFacts_same rfl rfl
  upsilons _ _ _ _ := onFacts_same rfl rfl

/-- No run gets beyond a block that control does not leave. -/
theorem not_through_unreachable (h : (liftM Emit.unreachable : Lower Unit) env s = .ok (u, s')) :
    ¬ m.Through s.builder s'.builder n c c' := by
  intro ht
  obtain ⟨b', hb, rfl⟩ := emit_ok h
  obtain ⟨hstep, hpassed⟩ := Machine.terminate_step hb ht.completes ht.start
  cases ht.steps with
  | refl => exact ht.beyond.notPassed hpassed
  | next hnext _ =>
    rw [hstep] at hnext
    cases hnext

/-- A block that control does not leave tells nothing. -/
theorem endUnreachable_invalid (h : endUnreachable env s = .ok (u, s')) :
    s'.facts.valid = false := by
  obtain ⟨_, s₁, -, h⟩ := bind_ok h
  obtain ⟨_, s₂, h₂, h⟩ := bind_ok h
  cases h₂
  rw [← Bool.not_eq_true]
  intro hvalid
  have hspared := (inferInstance : Obeys (sparing ⟨0⟩) invalidateDominated).of_ok h
  cases (hspared.1 hvalid).1

/-- The code of a node reads its uses, and then learns no more about `x`: what it knows of `x` gets
narrower, and stays true of the word that `x` is held in, if the word is seen. -/
theorem lowerOp_upholds (h : lowerOp id node env s = .ok ((), s'))
    (ht : m.Through s.builder s'.builder n c c') (hr : heldIn env s x .jsValue = some r)
    (hw : c.Has s.builder r .i64 w) (hi : Informed env c.memory s x w)
    (hvalid : s'.facts.valid = true) :
    (narrowing x).rel env s s' ∧
      (Seen env c.memory node x s' w → Informed env c.memory s' x w) := by
  have hstaged : Staged (upholding node x) ((onBuilders Builder.settling).and (sparing x))
      (lowerOp id node) := by
    refine staged_lowerOp id (fun hop => ?_) fun hop => ?_
    · simp only [lowerOp, hop] at h
      exact not_through_unreachable h ht
    · simp only [lowerOp, hop] at h
      rw [endUnreachable_invalid h] at hvalid
      cases hvalid
  obtain ⟨s₁, ⟨⟨hpasses, -, hnarrows⟩, huphold⟩, hsettles, hspares⟩ := hstaged.staged env s () s' h
  have e₁ := (hpasses m).emits ht.start.wf
  have e₂ : s₁.builder.Emits [] s'.builder := hsettles e₁.after
  have hnarrows' : (narrowing x).rel env s₁ s' :=
    ⟨AbstractState.Law.sparing_narrowing hspares.1, hspares.2⟩
  refine ⟨(narrowing x).trans hnarrows hnarrows', fun hseen => ?_⟩
  have hi₁ := huphold (ht.first e₂.toExtends) hr hw hi (hspares.1 hvalid).1
    (hseen.before hnarrows' hvalid)
  exact hi₁.spared hspares hvalid

/-! ## The fact that is left -/

/-- The word is one that the use takes: if the code is known to test for the kinds of the use, a
word that the tests do not overlook, and otherwise a word of these kinds. -/
structure Suits (env : Env) (memory : Memory) (s : State) (e : Edge) (w : Word) : Prop where
  tested : e.useKind.isProven = false → Assured env s e →
    overlooked env.layout memory w e.useKind = false
  taken : ¬ (e.useKind.isProven = false ∧ Assured env s e) →
    (kindOf env.layout memory w).isSubsetOf e.useKind.typeFilter = true

theorem suits_of_subset {memory : Memory}
    (h : (kindOf env.layout memory w).isSubsetOf e.useKind.typeFilter = true) :
    Suits env memory s e w where
  tested hk _ := by
    rw [← Bool.not_eq_true]
    intro hover
    rw [(Value.settled env.layout memory w hk).differs hover] at h
    cases h
  taken _ := h

theorem Suits.subset {memory : Memory} (h : Suits env memory s e w)
    (hi : Informed env memory s e.node w) :
    (kindOf env.layout memory w).isSubsetOf e.useKind.typeFilter = true := by
  by_cases hk : e.useKind.isProven = false ∧ Assured env s e
  · obtain ⟨hproven, known, hknown, hty⟩ := hk
    have hover := h.tested hproven ⟨known, hknown, hty⟩
    obtain ⟨known', hknown', hdesc⟩ := hi.fact
    obtain rfl : known = known' := Except.ok.inj (hknown.symm.trans hknown')
    have hsub := SpecType.subset_trans hdesc.allowed hty
    by_cases hint : e.useKind = .machineInt
    · rw [hint] at hsub hover ⊢
      exact Value.subset_of_passes (k := .machineInt) rfl (Value.isNumber_of_subset hsub) hover
    · have hfilter : e.useKind.testedFilter = e.useKind.typeFilter := by
        unfold UseKind.testedFilter
        split
        · contradiction
        · rfl
      rwa [← hfilter]
  · exact h.taken hk

end

/-! ## A fraction that counts as an integer

A check for integers of 52 bits only tests that the word is a number. The fact that it leaves says
that the number is an integer all the same, so that a check for integers of 32 bits after it is left
out. -/

/-- Returns an argument after checks that it is an integer of 52 bits and one of 32 bits. -/
def checkedTwice : Graph where
  name := "checkedTwice"
  nodes := #[
    { op := .getStack { operand := .arg 1, slot := .arg 1, format := .jsValue },
      result := .jsValue },
    { op := .check, children := [{ node := ⟨0⟩, useKind := .machineInt }] },
    { op := .check, children := [{ node := ⟨0⟩, useKind := .int32 }] },
    { op := .ret, children := [{ node := ⟨0⟩ }] }]
  blocks := #[{ index := ⟨0⟩, nodes := #[⟨0⟩, ⟨1⟩, ⟨2⟩, ⟨3⟩] }]
  numArguments := 2
  numLocals := 0

/-- The number 1.5. -/
def fraction : Word := Value.boxDouble ⟨0x3ff8000000000000⟩

/-- Returns an argument after a hint, whose use says that it is an integer of 32 bits, and a check
for one. -/
def hintedOnce : Graph where
  name := "hintedOnce"
  nodes := #[
    { op := .getStack { operand := .arg 1, slot := .arg 1, format := .jsValue },
      result := .jsValue },
    { op := .movHint (.loc 0), children := [{ node := ⟨0⟩, useKind := .int32 }] },
    { op := .check, children := [{ node := ⟨0⟩, useKind := .int32 }] },
    { op := .ret, children := [{ node := ⟨0⟩ }] }]
  blocks := #[{ index := ⟨0⟩, nodes := #[⟨0⟩, ⟨1⟩, ⟨2⟩, ⟨3⟩] }]
  numArguments := 2
  numLocals := 1

/-- A use that no code tests narrows the fact all the same. -/
example : hintedOnce.canCompile.isOk = true ∧
    simulated hintedOnce (Simulation.FrameValues.memory { arguments := [fraction] }) =
      some (.returned fraction) := by
  decide +kernel

namespace FirstCheck

def env : Env where
  graph := checkedTwice
  options := {}
  layout := {}
  dominators := { parents := #[some ⟨0⟩], numbers := #[some 0] }
  availabilityHeads := #[]
  phiParams := []
  exitOnly := []
  context := ⟨0⟩
  frame := ⟨1⟩

/-- Before the first check: register 2 holds the argument. -/
def before : State where
  builder := {
    func := { name := "checkedTwice", blocks := #[{}], types := #[.i64, .i64, .i64] }
    terminated := #[false]
    current := ⟨0⟩ }
  facts := { blocks := #[], current := .empty checkedTwice, valid := true }
  availability := .empty checkedTwice
  values := [((⟨0⟩, .jsValue), ⟨2⟩, ⟨0⟩)]

def node : Node := { op := .check, children := [{ node := ⟨0⟩, useKind := .machineInt }] }

/-- An integer. -/
def word : Word := Value.boxInt32 7

def config : Config Unit where
  registers := #[none, none, some word, none, none, none, none, none, none]
  memory := {}
  runtimeState := ()

/-- The integer runs through the code of the check, which leaves the fact that it is one. -/
def passes : Bool :=
  match lowerOp ⟨1⟩ node env before with
  | .error _ => false
  | .ok (_, s') => s'.builder.func.types.size == 9 &&
    match (Machine.plain s'.builder.func).advance 7 config, s'.facts.execute checkedTwice ⟨1⟩ with
    | some c', .ok facts =>
      decide ((Machine.plain s'.builder.func).At s'.builder c') && facts.valid &&
      match facts.factOf checkedTwice ⟨0⟩ with
      | .ok v => v.isType .machineInt
      | _ => false
    | _, _ => false

theorem before_at (f : Function) (h : f.types.size = 9) :
    (Machine.plain f).At before.builder config where
  wf := ⟨rfl, by decide⟩
  isOpen := rfl
  block := rfl
  position blk hb := by cases hb; rfl
  registers := h.symm

theorem before_informed : Informed env {} before ⟨0⟩ word where
  valid := rfl
  depth := rfl
  fact := ⟨_, rfl, by decide, by decide, fun _ hc => by cases hc⟩

end FirstCheck

end Lowering

end SpecJit
