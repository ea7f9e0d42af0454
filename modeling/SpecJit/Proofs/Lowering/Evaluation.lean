import SpecJit.Proofs.Lowering.Forms
import SpecJit.Proofs.Lowering.Leaving

/-!
# What the code of a node evaluates to

The code of a node reads its uses and then computes its value, or leaves (`Results`). A value is
recorded for the node, so that the node can be boxed where it is used next: `Evaluates` says what
comes out then.
-/

namespace SpecJit.Lowering

open Lir

variable {σ : Type} {m : Machine σ} {b : Builder} {c c' : Config σ} {env : Env} {s s₁ s' : State}
  {u : Unit} {id : NodeId} {node : Node} {form : Form} {kind : ExitKind} {w : Word} {r : Reg}
  {e : Edge} {o : Except ExitKind Word}

/-- The code of node `id` is to be built here: control comes here, not in an arm, and nothing is
recorded for the node. -/
structure Ready (s : State) (id : NodeId) : Prop where
  valid : s.facts.valid = true
  depth : s.armDepth = 0
  fresh : ∀ form, s.values.lookup (id, form) = none

theorem Ready.heldIn (h : Ready s id) (form : Form) : heldIn env s id form = none := by
  rw [Lowering.heldIn, h.fresh]

theorem Ready.read {x : NodeId} (h : Ready s id) (hread : ReadIn x form r s s') (hne : id ≠ x)
    (hvalid : s'.facts.valid = true) :
    Ready s' id :=
  ⟨hvalid, hread.depth.trans h.depth, fun form' => by rw [hread.lookup hne]; exact h.fresh form'⟩

/-! ## Results -/

/-- The code of node `id` computes the word, which is all that is recorded for the node, or it
leaves by an exit of a kind. -/
def Results (m : Machine σ) (id : NodeId) (form : Form) (s s' : State) (c : Config σ) :
    Except ExitKind Word → Prop
  | .ok w => ∃ r, s'.block = s.block ∧ s'.values.lookup (id, form) = some (r, s'.block) ∧
      (∀ form', form' ≠ form → s'.values.lookup (id, form') = none) ∧
      m.Runs s.builder c s'.builder fun c' => c'.Has s'.builder r form.type w
  | .error kind => LeavesBy m kind s' c

/-- Code that runs before the rest of the code of a node. -/
theorem Results.after {Q : Config σ → Prop} (h : m.Runs s.builder c s₁.builder Q)
    (hblock : s₁.block = s.block)
    (e₁ : s.builder.Emits [] s₁.builder) (e₂ : s₁.builder.Emits [] s'.builder)
    (k : ∀ c₁, m.At s₁.builder c₁ → c.Follows s.builder c₁ s₁.builder → Q c₁ →
      Results m id form s₁ s' c₁ o) :
    Results m id form s s' c o := by
  obtain ⟨c₁, hgoes, hc₁, hk, hq⟩ := h
  have hruns : m.Runs s.builder c s₁.builder (· = c₁) := ⟨c₁, hgoes, hc₁, hk, rfl⟩
  have hrest := k c₁ hc₁ ⟨e₁.toExtends, hk⟩ hq
  cases o with
  | ok w =>
    obtain ⟨r, hblock', hvalue, hothers, hrest⟩ := hrest
    exact ⟨r, hblock'.trans hblock, hvalue, hothers, hruns.bind e₁.toExtends e₂.toGrows
      fun c₂ _ _ hc₂ => hc₂ ▸ hrest⟩
  | error kind => exact .after hruns e₂.toExtends fun c₂ _ _ hc₂ => hc₂ ▸ hrest

/-- The last part of the code of a node, which reads no more uses. -/
theorem Finishes.results {x : Lower Unit} (hx : Finishes m env b c id form x o)
    (hf : c.Follows b c' s.builder) (hc : m.At s.builder c') (hready : Ready s id)
    (h : x env s = .ok (u, s')) (hm : s'.builder.Completes m.func) :
    Results m id form s s' c' o := by
  have hends := hx hf hc hready.depth h hm
  cases o with
  | ok w =>
    obtain ⟨r, hvalues, hblock, hruns⟩ := hends
    refine ⟨r, hblock, ?_, fun form' hne => ?_, hruns⟩
    · rw [hvalues, hblock, List.lookup_cons, beq_self_eq_true]
    · have hk : ((id, form') == (id, form)) = false := by simp [hne]
      rw [hvalues, List.lookup_cons, hk]
      exact hready.fresh form'
  | error kind => exact hends

/-- Code that reads the uses of a node before its last part. -/
theorem Results.ofReads {α : Type} {uses : Lower α} {rest : α → Lower Unit} [Tidy uses]
    [∀ a, Tidy (rest a)]
    {Q : α → State → Config σ → Prop} (h : (uses >>= rest) env s = .ok (u, s'))
    (hm : s'.builder.Completes m.func)
    (hc : m.At s.builder c)
    (hreads : ∀ {a s₁}, uses env s = .ok (a, s₁) → s₁.builder.Completes m.func →
      Ready s₁ id ∧ s₁.block = s.block ∧ m.Runs s.builder c s₁.builder (Q a s₁))
    (k : ∀ {a s₁ c₁}, Q a s₁ c₁ → Finishes m env s₁.builder c₁ id form (rest a) o) :
    Results m id form s s' c o := by
  obtain ⟨a, s₁, h₁, h₂⟩ := bind_ok h
  have e₁ : s.builder.Emits [] s₁.builder := Tidy.after h₁ (.refl hc.wf)
  have e₂ : s₁.builder.Emits [] s'.builder := Tidy.after h₂ (.refl e₁.after)
  obtain ⟨hready, hblock, hruns⟩ := hreads h₁ (e₂.toExtends.completes hm)
  exact .after hruns hblock e₁ e₂ fun c₁ hc₁ _ hq => (k hq).results (.refl _ _) hc₁ hready h₂ hm

/-- Control leaves by the exit that the result says. -/
theorem Results.leavesBy_iff (h : Results m id form s s' c o) :
    LeavesBy m kind s' c ↔ o = .error kind := by
  cases o with
  | ok w =>
    obtain ⟨r, -, -, -, hruns⟩ := h
    exact ⟨fun hleave => absurd hleave.leaves hruns.not_leaves, nofun⟩
  | error kind' =>
    constructor
    · intro hleave
      rw [hleave.unique h]
    · rintro ⟨⟩
      exact h

theorem Results.leavesBy_map_iff {α : Type} {f : α → Word} {o : Except ExitKind α}
    (h : Results m id form s s' c (o.map f)) :
    LeavesBy m kind s' c ↔ o = .error kind := by
  rw [h.leavesBy_iff]
  cases o <;> simp [Except.map]

/-! ## Boxed results -/

/-- The code of node `id` computes the word that holds it in the form. If the node is boxed next,
under facts that allow its kind, it is boxed to `boxed`. -/
def Evaluates (m : Machine σ) (env : Env) (s : State) (c : Config σ) (s' : State) (id : NodeId)
    (form : Form) (w : Word) (kind : SpecType) (boxed : Word) : Prop :=
  ∃ r, s'.values.lookup (id, form) = some (r, s'.block) ∧
    (m.Runs s.builder c s'.builder fun c' => c'.Has s'.builder r form.type w) ∧
    ∀ {facts : AbstractState} {known r' s''}, facts.factOf env.graph id = .ok known →
    known.Describes kind →
      boxedNode id env { s' with facts } = .ok (r', s'') → s''.builder.Completes m.func →
      m.Runs s.builder c s''.builder fun c' => c'.Has s''.builder r' .i64 boxed

/-- The code evaluates the node to an int32. -/
def EvaluatesInt32 (m : Machine σ) (env : Env) (s : State) (c : Config σ) (s' : State) (id : NodeId)
    (n : Int32) : Prop :=
  Evaluates m env s c s' id .int32 (ofInt32 n) (.ofInt32 n) (Value.boxInt32 n)

/-- The code evaluates the node to an integer of 52 bits, held shifted left. -/
def EvaluatesInt52 (m : Machine σ) (env : Env) (s : State) (c : Config σ) (s' : State) (id : NodeId)
    (n : Int64) : Prop :=
  Evaluates m env s c s' id .int52 (Value.shiftInt52 n) (Source.int52 n).kind (Value.boxInt52 n)

/-- Code that evaluates a node does not leave. -/
theorem Evaluates.not_leaves {ty : SpecType} {boxed : Word}
    (h : Evaluates m env s c s' id form w ty boxed) :
    ¬ m.Leaves s'.builder c := by
  obtain ⟨r, -, hruns, -⟩ := h
  exact hruns.not_leaves

theorem Results.evaluates {ty : SpecType} {boxed : Word} (h : Results m id form s s' c (.ok w))
    (e : s.builder.Emits [] s'.builder) (hself : env.dominators.dominates s.block s.block = true)
    (hboxes : ∀ {t : State} {known r r' s'' c'},
      (∀ form', heldIn env t id form' = if form' = form then some r else none) →
      t.facts.factOf env.graph id = .ok known → known.Describes ty →
      boxedNode id env t = .ok (r', s'') →
      s''.builder.Completes m.func → m.At t.builder c' → c'.Has t.builder r form.type w →
      c'.memory = c.memory →
      m.Runs t.builder c' s''.builder fun c'' => c''.Has s''.builder r' .i64 boxed) :
    Evaluates m env s c s' id form w ty boxed := by
  obtain ⟨r, hblock, hvalue, hothers, hruns⟩ := h
  refine ⟨r, hvalue, hruns, fun {facts known r' s''} hknown hdesc hbox hm => ?_⟩
  have e' : s'.builder.Emits [] s''.builder := Tidy.after hbox (Builder.Emits.refl e.after)
  have hheld (form' : Form) : heldIn env { s' with facts } id form' = if form' = form then some r
    else none := by
    by_cases hform : form' = form
    · subst hform
      simp only [heldIn, hvalue, hblock, hself, if_true]
    · simp only [heldIn, hothers form' hform, if_neg hform]
  exact hruns.bind e.toExtends e'.toGrows fun c₁ hc₁ hk hr =>
    hboxes (t := { s' with facts }) hheld hknown hdesc hbox hm hc₁ hr hk.memory

/-- An int32 is boxed as one. -/
theorem Results.evaluatesInt32 {n : Int32} (h : Results m id .int32 s s' c (.ok (ofInt32 n)))
    (e : s.builder.Emits [] s'.builder) (hself : env.dominators.dominates s.block s.block = true)
    (hnode : env.graph.node id = .ok node) (hop : node.op.constantWord? = none) :
    EvaluatesInt32 m env s c s' id n := by
  refine h.evaluates e hself fun {t known r r' s'' c'} hheld _ _ hbox hm hc hr _ => ?_
  have hboxed : heldIn env t id .jsValue = none := hheld _
  have hint : heldIn env t id .int32 = some r := hheld _
  rw [boxedNode, held?_bind, hboxed] at hbox
  obtain ⟨node', hnode', hbox⟩ := getNode_bind_ok hbox
  rw [hnode] at hnode'
  cases hnode'
  rw [hop] at hbox
  obtain ⟨r₁, s₁, h₁, hbox⟩ := bind_ok hbox
  obtain ⟨_, s₂, h₂, hbox⟩ := bind_ok hbox
  cases hbox
  rw [boxHeld, held?_bind, hint] at h₁
  rw [record_builder h₂] at hm ⊢
  have hboxes : Yields m env t.builder c' (boxInt32 r) .i64 (Value.boxInt32 (low32 (ofInt32 n))) :=
    .ofEmit (boxInt32_yields hr)
  refine (hboxes (.refl c' _) hc h₁ hm).mono fun c'' _ hr' => ?_
  rwa [low32_ofInt32] at hr'

/-- Facts that are true of an integer of 52 bits do not change how it is boxed. -/
theorem box_int52 {n : Int64} {known : AbstractValue} (h : known.Describes (Source.int52 n).kind) :
    Datum.box known.ty (.int52 n) = Value.boxInt52 n := by
  rw [Datum.box]
  split
  · rename_i hty
    have hkind := SpecType.subset_trans h.allowed hty
    rw [Source.kind] at hkind
    split at hkind
    · rename_i hfits
      exact (if_pos hfits).symm
    · cases hkind
  · rfl

/-- An integer of 52 bits is boxed as what it is, if the runtime does as documented. -/
theorem Results.evaluatesInt52 {n : Int64} (hn : Value.isInt52 n = true)
    (h : Results m id .int52 s s' c (.ok (Value.shiftInt52 n))) (e : s.builder.Emits [] s'.builder)
    (hself : env.dominators.dominates s.block s.block = true) (hnode : env.graph.node id = .ok node)
    (hop : node.op.constantWord? = none) (hbox : m.BoxesInt52 c.memory) :
    EvaluatesInt52 m env s c s' id n := by
  refine h.evaluates e hself fun {t known r r' s'' c'} hheld hknown hdesc hboxed hm hc hr hmem => ?_
  have hx : Holds env t c' id node (.int52 n) := by
    refine ⟨hnode, fun form' q hq => ?_, fun w hw => ?_, fun _ => nofun⟩
    · obtain ⟨rfl, rfl⟩ : form' = .int52 ∧ r = q := by simpa [hheld] using hq
      exact ⟨_, Value.shiftInt52_sshr hn, hr⟩
    · rw [hop] at hw
      cases hw
  obtain ⟨w, hw, hruns⟩ := boxedNode_runs hc hx hknown (by rw [hmem]; exact hbox)
  have hw' : w = Value.boxInt52 n := by
    rcases hw with hw | ⟨-, rfl⟩
    · exact hw
    · exact box_int52 hdesc
  rw [← hw']
  exact hruns hboxed hm

end SpecJit.Lowering
