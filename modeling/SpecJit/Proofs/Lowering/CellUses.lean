import SpecJit.Proofs.Lowering.Checks
import SpecJit.Proofs.Lowering.Forms

/-!
# Uses as boxed values

A use of a boxed value takes the word as it is held, or a constant, and checks it. A use as a cell
leaves or gives the cell (`asCell_runs`). Where the word gets through the checks, it does not leave
(`asCell_used`, `asValue_used`), and what holds of the other uses of the node holds afterwards, too
(`KeepsUses`).

A use of a value that is held in boxed form leaves, or it yields the register of the value, keeps
what all nodes are held in, and leaves a fact that is true of the word (`asValue_reads`,
`asCell_reads`).
-/

namespace SpecJit

open Lir

namespace Lowering

variable {α β : Type} {σ : Type} {m : Machine σ} {c c' : Config σ} {env : Env} {s s' : State}
  {id : NodeId} {node : Node} {e : Edge} {x : Datum} {y : Lower α} {a : α} {r : Reg} {u : Unit}
  {w : Word} {n : Int32}

/-! ## Steps that record nothing -/

/-- No form of a node is recorded, and the block is the same. -/
def recordingNothing : Law where
  rel _ s s' := s'.values = s.values ∧ s'.block = s.block
  refl _ _ := ⟨rfl, rfl⟩
  trans h₁ h₂ := ⟨h₂.1.trans h₁.1, h₂.2.trans h₁.2⟩

/-- The step records no form of a node and stays in its block. -/
abbrev RecordsNothing (x : Lower α) : Prop := Obeys recordingNothing x

theorem RecordsNothing.kept {x : Lower α} [hx : RecordsNothing x] (env : Env) (s : State) (a : α)
    (s' : State) (h : x env s = .ok (a, s')) : s'.values = s.values ∧ s'.block = s.block :=
  hx.of_ok h

instance : recordingNothing.Uncoded where
  counts _ _ _ := ⟨rfl, rfl⟩
  arms h := h
  code _ _ _ := ⟨rfl, rfl⟩

instance : recordingNothing.Rebuilds where
  rebuilding := inferInstance
  captures kind profile := (inferInstance : Quiet (buildExit kind profile)).mono fun _ _ _ h =>
    ⟨h.values, h.block⟩

instance (y : NodeId) : recordingNothing.Narrows y where
  narrows _ := ⟨rfl, rfl⟩

instance : recordingNothing.Invalidates where
  gives_up _ _ := ⟨rfl, rfl⟩
  marks _ := ⟨rfl, rfl⟩

/-! ## Boxed values -/

/-- A record that is there afterwards, too. -/
theorem Holds.keep (h : Holds env s c id node x) (hf : c.Follows s.builder c' s'.builder)
    (hvalues : s'.values = s.values) (hblock : s'.block = s.block) : Holds env s' c' id node x := by
  have hheld (form : Form) : heldIn env s' id form = heldIn env s id form := by
    rw [heldIn, hvalues, hblock, heldIn]
  refine ⟨h.found, fun form r hr => ?_, h.constant, fun w hw hop => ?_⟩
  · obtain ⟨u, hu, hhas⟩ := h.shown form r (by rw [← hheld, hr])
    exact ⟨u, hu, hhas.later hf⟩
  · rw [hheld]
    exact h.boxed w hw hop

/-- A constant that is recorded keeps what is held. -/
theorem Holds.record {v : NodeId} {vnode : Node} (h : Holds env s c id node x)
    (hv : env.graph.node v = .ok vnode) (hop : vnode.op.constantWord? = some w)
    (hr : c.Has s.builder r .i64 w) (hrecord : Lowering.record v .jsValue r env s = .ok (u, s')) :
    Holds env s' c id node x := by
  cases hrecord
  dsimp only
  split
  · by_cases hid : id = v
    · subst hid
      obtain rfl : node = vnode := by
        have hnode := h.found
        rw [hv] at hnode
        exact (Except.ok.inj hnode).symm
      refine ⟨h.found, fun form r' hr' => ?_, h.constant,
        fun w' _ hop' => by rw [hop] at hop'; cases hop'⟩
      by_cases hform : form = .jsValue
      · subst hform
        have hr'' : r' = r := by
          simp only [heldIn, List.lookup_cons, beq_self_eq_true] at hr'
          split at hr'
          · exact (Option.some.inj hr').symm
          · cases hr'
        subst hr''
        exact ⟨w, h.constant w hop, hr⟩
      · refine h.shown form r' ?_
        have hne : ((id, form) == (id, Form.jsValue)) = false := by simp [hform]
        simpa only [heldIn, List.lookup_cons, hne] using hr'
    · have hheld (form : Form) :
        heldIn env { s with values := ((v, .jsValue), r, s.block) :: s.values } id form =
          heldIn env s id form := by
        have hne : ((id, form) == (v, Form.jsValue)) = false := by simp [hid]
        simp only [heldIn, List.lookup_cons, hne]
      refine ⟨h.found, fun form r' hr' => h.shown form r' (by rw [← hheld, hr']), h.constant,
        fun w' hw' hop' => ?_⟩
      rw [hheld]
      exact h.boxed w' hw' hop'
  · exact h

/-- A boxed value is taken as it is held, or it is a constant that is recorded. -/
theorem boxedNode_boxed (h : boxedNode id env s = .ok (r, s')) (hm : s'.builder.Completes m.func)
    (hc : m.At s.builder c) (hx : Holds env s c id node x)
    (hheld : (heldIn env s id .jsValue).isSome = true ∨ node.op.constantWord?.isSome = true) :
    ∃ w, x.Shows .jsValue w ∧ s'.block = s.block ∧
      m.Runs s.builder c s'.builder fun c' => c'.Has s'.builder r .i64 w ∧
        ∀ {id' node' x'}, Holds env s c id' node' x' → Holds env s' c' id' node' x' := by
  rw [boxedNode, held?_bind] at h
  cases hj : heldIn env s id .jsValue with
  | some r₁ =>
    rw [hj] at h
    cases h
    obtain ⟨w, hw, hr⟩ := hx.shown _ _ hj
    exact ⟨w, hw, rfl, .refl hc ⟨hr, fun hx' => hx'⟩⟩
  | none =>
    rw [hj] at h hheld
    obtain ⟨node', hnode, h⟩ := getNode_bind_ok h
    rw [hx.found] at hnode
    cases hnode
    cases hw : node.op.constantWord? with
    | none => simp [hw] at hheld
    | some w =>
      rw [hw] at h
      obtain ⟨r₁, b₁, h₁, h⟩ := emit_bind_ok h
      obtain ⟨_, s₂, h₂, h⟩ := bind_ok h
      cases h
      have hb : s'.builder = b₁ := record_builder h₂
      have hruns := Emit.word_yields w (.refl c _) hc h₁ (by rw [← hb]; exact hm)
      have e : s.builder.Emits [] b₁ := (inferInstance : (Emit.word w).Tidy).emits _ _ _ hc.wf h₁
      refine ⟨w, hx.constant w hw, ?_, ?_⟩
      · cases h₂
        dsimp only
        split <;> rfl
      · rw [hb]
        obtain ⟨c₁, hgoes, hc₁, hk, hr⟩ := hruns
        refine ⟨c₁, hgoes, hc₁, hk, hr, fun hx' => ?_⟩
        have hx₁ : Holds env { s with builder := b₁ } c₁ _ _ _ := hx'.keep ⟨e.toExtends, hk⟩ rfl rfl
        exact hx₁.record hx.found hw hr h₂

/-- A use as a cell leaves, or gives the cell. -/
theorem asCell_runs (h : asCell e env s = .ok (r, s')) (hm : s'.builder.Completes m.func)
    (hc : m.At s.builder c) (hx : Holds env s c e.node node (.boxed w))
    (hi : Informed env c.memory s e.node w)
    (ho : Value.overlooked env.layout c.memory w e.useKind = false) :
    m.Leaves s'.builder c ∨ (s'.facts.valid = true ∧ s'.armDepth = 0 ∧ s'.block = s.block ∧
      m.Runs s.builder c s'.builder fun c' => c'.Has s'.builder r .i64 w ∧
        ∀ {id' node' x'}, Holds env s c id' node' x' → Holds env s' c' id' node' x') := by
  rw [asCell] at h
  by_cases hcell : e.useKind.isCell = true
  case neg =>
    rw [if_neg hcell] at h
    cases h
  rw [if_pos hcell] at h
  obtain ⟨r', s₁, h₁, h⟩ := bind_ok h
  obtain ⟨_, s'', h₂, h⟩ := bind_ok h
  cases h
  have e₁ : s.builder.Emits [] s₁.builder := Tidy.after h₁ (.refl hc.wf)
  have e₂ : s₁.builder.Emits [] s'.builder := Tidy.after h₂ (.refl e₁.after)
  obtain ⟨hfacts₁, hdepth₁⟩ := (inferInstance : KeepsFacts (boxedNode e.node)).kept _ _ _ _ h₁
  have hheld : (heldIn env s e.node .jsValue).isSome = true ∨
    node.op.constantWord?.isSome = true := by
    cases hop : node.op.constantWord? with
    | none => exact .inl (hx.boxed w rfl hop)
    | some _ => exact .inr rfl
  obtain ⟨w', hw', hblock₁, hruns₁⟩ := boxedNode_boxed h₁ (e₂.toExtends.completes hm) hc hx hheld
  obtain rfl : w = w' := Eq.symm hw'
  obtain ⟨c₁, hgoes₁, hc₁, hk₁, hr, hkeep₁⟩ := hruns₁
  have hruns₁ : m.Runs s.builder c s₁.builder (· = c₁) := ⟨c₁, hgoes₁, hc₁, hk₁, rfl⟩
  have hi₁ : Informed env c₁.memory s₁ e.node w := by
    rw [hk₁.memory]
    exact ⟨by rw [hfacts₁]; exact hi.valid, hdepth₁.trans hi.depth, by rw [hfacts₁]; exact hi.fact⟩
  have hchecked : m.Leaves s'.builder c₁ ∨ (m.Runs s₁.builder c₁ s'.builder (fun _ => True) ∧
      Informed env c₁.memory s' e.node w) := by
    by_cases hk : e.useKind.isProven = true
    · rw [checkUse_unchecked (by simp [Value.checksBoxed, hk])] at h₂
      cases h₂
      exact .inr ⟨.refl hc₁ trivial, hi₁⟩
    · rcases checkUse_checked h₂ hm hc₁ hr hi₁ (by simpa using hk) (by rw [hk₁.memory]; exact ho)
        with hleave | ⟨hruns, hi₂, -⟩
      · exact .inl hleave
      · exact .inr ⟨hruns, hi₂⟩
  rcases hchecked with hleave | ⟨hruns', hi₂⟩
  · exact .inl (hruns₁.leaves e₂.toExtends fun c' _ _ hc' => hc' ▸ hleave)
  · obtain ⟨hvalues', hblock₂⟩ := RecordsNothing.kept _ _ _ _ h₂
    refine .inr ⟨hi₂.valid, hi₂.depth, hblock₂.trans hblock₁, hruns₁.bind e₁.toExtends e₂.toGrows
      fun c' _ _ hc' => ?_⟩
    subst hc'
    obtain ⟨c₂, hgoes', hc₂, hk₂, -⟩ := hruns'
    have hf₂ : c'.Follows s₁.builder c₂ s'.builder := ⟨e₂.toExtends, hk₂⟩
    exact ⟨c₂, hgoes', hc₂, hk₂, hr.later hf₂, fun hx' => (hkeep₁ hx').keep hf₂ hvalues' hblock₂⟩

/-! ## Steps that record forms of one node -/

/-- No forms are recorded of other nodes than `id`, and no storage, and the block is the same. -/
def recordingOf (id : NodeId) : Law where
  rel _ s s' := s'.block = s.block ∧
    ∀ y (form : Form), y ≠ id ∨ form = .storage →
      s'.values.lookup (y, form) = s.values.lookup (y, form)
  refl _ _ := ⟨rfl, fun _ _ _ => rfl⟩
  trans h₁ h₂ := ⟨h₂.1.trans h₁.1, fun y form hne => (h₂.2 y form hne).trans (h₁.2 y form hne)⟩

/-- The step records no forms of other nodes than `id` and no storage, and stays in its block. -/
abbrev RecordsOf (id : NodeId) (x : Lower α) : Prop := Obeys (recordingOf id) x

theorem RecordsNothing.recordsOf {x : Lower α} (hx : RecordsNothing x) : RecordsOf id x :=
  hx.mono fun _ _ _ h => ⟨h.2, fun _ _ _ => by rw [h.1]⟩

instance : (recordingOf id).Uncoded where
  counts _ _ _ := ⟨rfl, fun _ _ _ => rfl⟩
  arms h := h
  code _ _ _ := ⟨rfl, fun _ _ _ => rfl⟩

instance : (recordingOf id).Rebuilds where
  rebuilding := inferInstance
  captures _ _ := RecordsNothing.recordsOf inferInstance

instance (y : NodeId) : (recordingOf id).Narrows y where
  narrows _ := ⟨rfl, fun _ _ _ => rfl⟩

instance : (recordingOf id).Invalidates where
  gives_up _ _ := ⟨rfl, fun _ _ _ => rfl⟩
  marks _ := ⟨rfl, fun _ _ _ => rfl⟩

theorem recordsOf_record {form : Form} (hform : form ≠ .storage) :
    RecordsOf id (record id form r) where
  obeys env s a s' h := by
    refine ⟨(readIn_record h).block, fun y form' hne => ?_⟩
    rcases (readIn_record h).values with hvalues | hvalues
    · rw [hvalues]
    · have hk : ((y, form') == (id, form)) = false := by
        rcases hne with hne | rfl
        · simp [hne]
        · simp [Ne.symm hform]
      rw [hvalues, List.lookup_cons, hk]

instance : (recordingOf id).Notes id where
  notes _ _ hform := recordsOf_record hform

instance (id : NodeId) : RecordsOf id (boxedNode id) :=
  obeys_boxedNode fun _ => recordsOf_record nofun

theorem RecordsOf.heldIn [hx : RecordsOf id y] (h : y env s = .ok (a, s')) {z : NodeId}
    {form : Form} (hz : z ≠ id ∨ form = .storage) :
    Lowering.heldIn env s' z form = Lowering.heldIn env s z form := by
  obtain ⟨hblock, hvalues⟩ := hx.of_ok h
  rw [Lowering.heldIn, hvalues z form hz, hblock, Lowering.heldIn]

/-! ## Uses that get through their checks -/

/-- A used value. What its node is held in shows it, and every word that it may be boxed to is as
the fact about the node says and gets through the checks of the use. -/
structure Used (env : Env) (s : State) (c : Config σ) (e : Edge) (x : Datum) : Prop where
  holds : ∃ node, Holds env s c e.node node x
  fact : ∃ known, s.facts.factOf env.graph e.node = .ok known ∧ ∀ w, x.BoxesTo known.ty w →
    known.Describes (Value.kindOf env.layout c.memory w) ∧ Value.passes env.layout c.memory w
      e.useKind = true ∧
      Value.overlooked env.layout c.memory w e.useKind = false

/-- A used cell. -/
structure IsCell (env : Env) (s : State) (c : Config σ) (e : Edge) (w : Word) :
    Prop extends Used env s c e (.boxed w) where
  cell : Value.isCell w = true

theorem Datum.boxesTo_boxed {ty : SpecType} {v : Word} : (Datum.boxed w).BoxesTo ty v ↔ v = w :=
  or_self_iff

/-- A boxed word is all that its node is. -/
theorem Holds.shows_of_boxed {y : Datum} {node' : Node} (h : Holds env s c id node (.boxed w))
    (hy : Holds env s c id node' y) :
    y.Shows .jsValue w := by
  obtain rfl : node = node' := Except.ok.inj (h.found.symm.trans hy.found)
  cases hop : node.op.constantWord? with
  | some v =>
    obtain rfl : v = w := h.constant v hop
    exact hy.constant v hop
  | none =>
    obtain ⟨r, hr⟩ := Option.isSome_iff_exists.1 (h.boxed w rfl hop)
    obtain ⟨u, rfl, hu⟩ := h.shown _ _ hr
    obtain ⟨v, hv, hv'⟩ := hy.shown _ _ hr
    obtain rfl : u = v := Option.some.inj (Option.some.inj (hu.value.symm.trans hv'.value))
    exact hv

/-- What shows a cell is the cell. -/
theorem Datum.eq_boxed_of_isCell {y : Datum} (h : y.Shows .jsValue w)
    (hcell : Value.isCell w = true) : y = .boxed w := by
  obtain ⟨hint, hnumber, hboolean, -⟩ := Value.tests_of_isCell hcell
  cases y with
  | boxed v => exact congrArg Datum.boxed (Eq.symm h)
  | int32 n =>
    obtain rfl := h
    rw [Value.isInt32_boxInt32] at hint
    cases hint
  | boolean b =>
    obtain rfl := h
    cases b <;> cases hboolean
  | int52 n =>
    obtain rfl := h
    rw [Value.boxInt52] at hint hnumber
    split at hnumber
    · rename_i hfits
      rw [if_pos hfits, Value.isInt32_boxInt32] at hint
      cases hint
    · rw [Value.isNumber_boxDouble] at hnumber
      cases hnumber
  | double d =>
    rcases h with rfl | ⟨-, rfl⟩ <;> rw [Value.isNumber_boxDouble] at hnumber <;> cases hnumber

/-- A cell is no int32. -/
theorem IsCell.ne {k : NodeId} (h : IsCell env s c e w) (hn : IsInt32 env s c k n) :
    k ≠ e.node := by
  rintro rfl
  obtain ⟨node, hx⟩ := h.holds
  have hint := (Value.tests_of_isCell h.cell).1
  cases hop : node.op.constantWord? with
  | none =>
    obtain ⟨r, hr⟩ := Option.isSome_iff_exists.1 (hx.boxed w rfl hop)
    obtain ⟨u, rfl, hu⟩ := hx.shown _ _ hr
    obtain ⟨v, hv, hisInt, -⟩ := hn.boxed hr
    obtain rfl : u = v := Option.some.inj (Option.some.inj (hu.value.symm.trans hv.value))
    rw [hint] at hisInt
    cases hisInt
  | some v =>
    obtain rfl : v = w := hx.constant v hop
    refine hn.noOther ⟨node, v, hx.found, hop, fun hconst => ?_⟩
    rw [hconst] at hop
    obtain rfl : Value.boxInt32 n = v := Option.some.inj hop
    rw [Value.isInt32_boxInt32] at hint
    cases hint

/-- What the uses of a node are, they still are later. -/
structure KeepsUses (env : Env) (s : State) (c : Config σ) (s' : State) (c' : Config σ) : Prop where
  used : ∀ {e x}, Used env s c e x → Used env s' c' e x
  int32 : ∀ {k n}, IsInt32 env s c k n → IsInt32 env s' c' k n
  storage : ∀ {k r}, heldIn env s k .storage = some r → heldIn env s' k .storage = some r

/-- Reading one node keeps what the uses of others are. -/
theorem Used.elsewhere {k : NodeId} [hy : RecordsOf k y] (hx : Used env s c e x)
    (h : y env s = .ok (a, s')) (hf : c.Follows s.builder c' s'.builder)
    (hfacts : s'.facts.factOf env.graph e.node = s.facts.factOf env.graph e.node) (hne : e.node ≠ k)
    : Used env s' c' e x := by
  obtain ⟨node, hnode⟩ := hx.holds
  have hheld (form : Form) : heldIn env s' e.node form = heldIn env s e.node form :=
    hy.heldIn h (.inl hne)
  refine ⟨⟨node, hnode.found, fun form r hr => ?_, hnode.constant, fun w hw hop => ?_⟩, ?_⟩
  · obtain ⟨u, hu, hhas⟩ := hnode.shown form r (by rw [← hheld, hr])
    exact ⟨u, hu, hhas.later hf⟩
  · rw [hheld]
    exact hnode.boxed w hw hop
  · rw [hfacts, hf.memory]
    exact hx.fact

theorem IsInt32.elsewhere {k i : NodeId} [hy : RecordsOf k y] (hn : IsInt32 env s c i n)
    (h : y env s = .ok (a, s')) (hf : c.Follows s.builder c' s'.builder)
    (hfacts : s'.facts.factOf env.graph i = s.facts.factOf env.graph i) (hne : i ≠ k) :
    IsInt32 env s' c' i n := by
  have hheld (form : Form) : heldIn env s' i form = heldIn env s i form := hy.heldIn h (.inl hne)
  refine ⟨⟨fun hr => ?_, fun hr => ?_, hn.constant⟩, hn.noOther, ?_⟩
  · exact (hn.narrow (by rw [← hheld, hr])).later hf
  · obtain ⟨v, hhas, hv⟩ := hn.boxed (by rw [← hheld, hr])
    exact ⟨v, hhas.later hf, hv⟩
  · rw [hfacts]
    exact hn.known

/-- A cell that gets through the checks is read, and what the uses of the node are is kept. -/
theorem asCell_used (h : asCell e env s = .ok (r, s')) (hm : s'.builder.Completes m.func)
    (hc : m.At s.builder c) (hx : IsCell env s c e w) (hvalid : s.facts.valid = true)
    (hdepth : s.armDepth = 0) :
    s'.facts.valid = true ∧ s'.armDepth = 0 ∧ s'.block = s.block ∧ AbstractState.NarrowedAt
      env.graph e.node s.facts s'.facts ∧
      m.Runs s.builder c s'.builder fun c' => c'.Has s'.builder r .i64 w ∧
      KeepsUses env s c s' c' := by
  have hcell := h
  rw [asCell] at h
  split at h
  case isFalse => cases h
  obtain ⟨r', s₁, h₁, h⟩ := bind_ok h
  obtain ⟨_, s'', h₂, h⟩ := bind_ok h
  cases h
  have e₁ : s.builder.Emits [] s₁.builder := Tidy.after h₁ (.refl hc.wf)
  have e₂ : s₁.builder.Emits [] s'.builder := Tidy.after h₂ (.refl e₁.after)
  obtain ⟨node, hnode⟩ := hx.holds
  obtain ⟨known, hknown, hword⟩ := hx.fact
  obtain ⟨hdesc, hpass, hseen⟩ := hword w (Datum.boxesTo_boxed.2 rfl)
  have hheld : (heldIn env s e.node .jsValue).isSome = true ∨
    node.op.constantWord?.isSome = true := by
    cases hop : node.op.constantWord? with
    | none => exact .inl (hnode.boxed w rfl hop)
    | some _ => exact .inr rfl
  obtain ⟨w', hw', hblock₁, hruns₁⟩ := boxedNode_boxed h₁ (e₂.toExtends.completes hm) hc hnode hheld
  obtain rfl : w = w' := Eq.symm hw'
  obtain ⟨c₁, hgoes₁, hc₁, hk₁, hr, hkeep₁⟩ := hruns₁
  have hruns₁ : m.Runs s.builder c s₁.builder (· = c₁) := ⟨c₁, hgoes₁, hc₁, hk₁, rfl⟩
  -- the checks
  obtain ⟨hfacts₁, hdepth₁⟩ := (inferInstance : KeepsFacts (boxedNode e.node)).kept _ _ _ _ h₁
  have hi₁ : Informed env c₁.memory s₁ e.node w :=
    ⟨by
      rw [hfacts₁]; exact hvalid, hdepth₁.trans hdepth, known, by
        rw [hfacts₁]; exact hknown, by rw [hk₁.memory]; exact hdesc⟩
  obtain ⟨hruns₂, hi₂, hnarrowed⟩ :=
    checkUse_passes h₂ hm hc₁ hr hi₁ (by rw [hk₁.memory]; exact hpass)
    (by rw [hk₁.memory]; exact hseen)
  rw [hfacts₁] at hnarrowed
  obtain ⟨hvalues₂, hblock₂⟩ := RecordsNothing.kept _ _ _ _ h₂
  refine ⟨hi₂.valid, hi₂.depth, hblock₂.trans hblock₁, hnarrowed, ?_⟩
  refine hruns₁.bind e₁.toExtends e₂.toGrows fun c' _ _ hc' => ?_
  subst hc'
  obtain ⟨c₂, hgoes₂, hc₂, hk₂, -⟩ := hruns₂
  have hf₂ : c'.Follows s₁.builder c₂ s'.builder := ⟨e₂.toExtends, hk₂⟩
  have hf : c.Follows s.builder c₂ s'.builder := .trans ⟨e₁.toExtends, hk₁⟩ hf₂
  refine ⟨c₂, hgoes₂, hc₂, hk₂, hr.later hf₂, fun {e' x'} hx' => ?_, fun {k n} hn => ?_,
    fun {k q} hq => ?_⟩
  · by_cases he : e'.node = e.node
    · obtain ⟨node', hnode'⟩ := hx'.holds
      obtain ⟨_, -, hword'⟩ := hx'.fact
      obtain ⟨known₂, hknown₂, hdesc₂⟩ := hi₂.fact
      rw [he] at hnode'
      obtain rfl := Datum.eq_boxed_of_isCell (hnode.shows_of_boxed hnode') hx.cell
      refine ⟨⟨node', by rw [he]; exact (hkeep₁ hnode').keep hf₂ hvalues₂ hblock₂⟩, known₂,
        by rw [he]; exact hknown₂,
        fun v hv => ?_⟩
      obtain rfl := Datum.boxesTo_boxed.1 hv
      obtain ⟨-, hpass', hseen'⟩ := hword' v (Datum.boxesTo_boxed.2 rfl)
      rw [hf.memory]
      rw [hk₁.memory] at hdesc₂
      exact ⟨hdesc₂, hpass', hseen'⟩
    · exact hx'.elsewhere hcell hf (hnarrowed.others _ he) he
  · have hne := hx.ne hn
    exact hn.elsewhere hcell hf (hnarrowed.others _ hne) hne
  · rw [(inferInstance : RecordsOf e.node (asCell e)).heldIn hcell (.inr rfl)]
    exact hq

/-- A value that gets through the checks is read as a word that it is boxed to. -/
theorem asValue_used (h : asValue e env s = .ok (r, s')) (hm : s'.builder.Completes m.func)
    (hc : m.At s.builder c) (hx : Used env s c e x) (hvalid : s.facts.valid = true)
    (hdepth : s.armDepth = 0) (hbox : m.BoxesInt52 c.memory) :
    s'.facts.valid = true ∧ s'.armDepth = 0 ∧ s'.block = s.block ∧ ∃ ty w, x.BoxesTo ty w ∧
      Informed env c.memory s' e.node w ∧
      m.Runs s.builder c s'.builder fun c' => c'.Has s'.builder r .i64 w := by
  have hvalue := h
  obtain ⟨r', s₁, h₁, h⟩ := bind_ok h
  obtain ⟨_, s'', h₂, h⟩ := bind_ok h
  cases h
  have e₁ : s.builder.Emits [] s₁.builder := Tidy.after h₁ (.refl hc.wf)
  have e₂ : s₁.builder.Emits [] s'.builder := Tidy.after h₂ (.refl e₁.after)
  obtain ⟨node, hnode⟩ := hx.holds
  obtain ⟨known, hknown, hword⟩ := hx.fact
  obtain ⟨w, hw, hruns₁⟩ := boxedNode_runs hc hnode hknown hbox
  have hboxes : x.BoxesTo known.ty w := hw.imp_right (·.2)
  obtain ⟨hdesc, hpass, hseen⟩ := hword w hboxes
  obtain ⟨c₁, hgoes₁, hc₁, hk₁, hr⟩ := hruns₁ h₁ (e₂.toExtends.completes hm)
  have hruns₁ : m.Runs s.builder c s₁.builder (· = c₁) := ⟨c₁, hgoes₁, hc₁, hk₁, rfl⟩
  obtain ⟨hfacts₁, hdepth₁⟩ := (inferInstance : KeepsFacts (boxedNode e.node)).kept _ _ _ _ h₁
  have hi₁ : Informed env c₁.memory s₁ e.node w :=
    ⟨by
      rw [hfacts₁]; exact hvalid, hdepth₁.trans hdepth, known, by
        rw [hfacts₁]; exact hknown, by rw [hk₁.memory]; exact hdesc⟩
  obtain ⟨hruns₂, hi₂, -⟩ := checkUse_passes h₂ hm hc₁ hr hi₁ (by rw [hk₁.memory]; exact hpass)
    (by rw [hk₁.memory]; exact hseen)
  rw [hk₁.memory] at hi₂
  refine ⟨hi₂.valid, hi₂.depth, ((inferInstance : RecordsOf e.node (asValue e)).of_ok hvalue).1,
    known.ty, w, hboxes, hi₂, ?_⟩
  refine hruns₁.bind e₁.toExtends e₂.toGrows fun c' _ _ hc' => ?_
  subst hc'
  exact hruns₂.mono fun c₂ hk₂ _ => hr.keep e₂.toExtends hk₂

end Lowering

end SpecJit

namespace SpecJit.Lowering

open Lir Value

variable {σ : Type} {m : Machine σ} {c : Config σ} {env : Env} {s s' : State} {id : NodeId}
  {e : Edge} {r q : Reg} {u : Word}

theorem child_eq {node : Node} (h : node.children = [e]) : node.child 0 = .ok e := by
  simp [Node.child, h, Fault.ofOption]

/-- The node is held as a boxed value here, and in no other form. -/
structure Boxed (env : Env) (s : State) (id : NodeId) (r : Reg) : Prop where
  held : held? id .jsValue env s = .ok (some r, s)
  only : ∀ form, form ≠ .jsValue → held? id form env s = .ok (none, s)

theorem Boxed.of_values (h : Boxed env s id r) (hvalues : s'.values = s.values)
    (hblock : s'.block = s.block) :
    Boxed env s' id r := by
  have hheld (form : Form) : heldIn env s' id form = heldIn env s id form := by
    rw [heldIn, heldIn, hvalues, hblock]
  refine ⟨?_, fun form hform => ?_⟩
  · have h₁ := h.held
    rw [held?_eq] at h₁ ⊢
    rw [hheld, (Prod.mk.inj (Except.ok.inj h₁)).1]
  · have h₁ := h.only form hform
    rw [held?_eq] at h₁ ⊢
    rw [hheld, (Prod.mk.inj (Except.ok.inj h₁)).1]

/-- The word is of the kinds that an unchecked use is promised, or is not overlooked by the checks
of the use. -/
def Sees (env : Env) (memory : Memory) (e : Edge) (u : Word) : Prop :=
  e.useKind.isProven = true ∧ (kindOf env.layout memory u).isSubsetOf e.useKind.typeFilter = true ∨
    e.useKind.isProven = false ∧ overlooked env.layout memory u e.useKind = false

/-- A use that leaves, or yields the register of the value and a fact that is true of it. -/
def Reads (m : Machine σ) (env : Env) (s : State) (c : Config σ) (s' : State) (e : Edge) (u : Word)
    : Prop :=
  m.Leaves s'.builder c ∨ (s'.values = s.values ∧ s'.block = s.block ∧ Informed env c.memory s'
    e.node u ∧
    (kindOf env.layout c.memory u).isSubsetOf e.useKind.typeFilter = true ∧
    m.Runs s.builder c s'.builder fun _ => True)

theorem asValue_reads (h : asValue e env s = .ok (r, s')) (hm : s'.builder.Completes m.func)
    (hc : m.At s.builder c) (hvalue : Boxed env s e.node q) (hu : c.Has s.builder q .i64 u)
    (hi : Informed env c.memory s e.node u) (ho : Sees env c.memory e u) :
    r = q ∧ Reads m env s c s' e u := by
  obtain ⟨value, s₁, h₁, h⟩ := bind_ok h
  rw [boxedNode, bind_of_ok hvalue.held] at h₁
  cases h₁
  obtain ⟨_, s₂, h₂, h⟩ := bind_ok h
  cases h
  refine ⟨rfl, ?_⟩
  obtain ⟨hvalues, hblock⟩ := (inferInstance : RecordsNothing (checkUse e r)).kept _ _ _ _ h₂
  rcases ho with ⟨hk, hmask⟩ | ⟨hk, ho⟩
  · rw [checkUse_unchecked (by simp [Value.checksBoxed, hk])] at h₂
    cases h₂
    exact .inr ⟨rfl, rfl, hi, hmask, .refl hc trivial⟩
  · rcases checkUse_checked h₂ hm hc hu hi hk ho with hleave | ⟨hruns, hi', hmask⟩
    · exact .inl hleave
    · exact .inr ⟨hvalues, hblock, hi', hmask, hruns⟩

theorem asCell_reads (h : asCell e env s = .ok (r, s')) (hm : s'.builder.Completes m.func)
    (hc : m.At s.builder c) (hvalue : Boxed env s e.node q) (hu : c.Has s.builder q .i64 u)
    (hi : Informed env c.memory s e.node u) (ho : Sees env c.memory e u) :
    r = q ∧ Reads m env s c s' e u := by
  rw [asCell] at h
  split at h
  · exact asValue_reads h hm hc hvalue hu hi ho
  · cases h

end SpecJit.Lowering
