import SpecJit.Proofs.Lowering.Int32Arithmetic
import SpecJit.Proofs.Lowering.KnownConditions

/-!
# Constants that the analysis finds

The analysis folds arithmetic and bit operations on known int32 values, type queries and negations,
and tells which way a branch goes. The code of such a node agrees with that: unless it leaves, it
computes the constant, and the condition of the branch goes the way that is known
(`known_results_computed`). Two uses of int32 values are read one after the other, so that what is
known of the second one has to outlast the first (`asInt32_known`).

The agreement stops at the empty value. The code takes it for a cell and reads a header at the
address 0, where a type query finds what it looks for if the memory is so
(`emptyQuery_returns_true`).
-/

namespace SpecJit

open Lir

/-! ## Folded operations -/

/-- A result that is known is the wrapped one. -/
theorem ArithOp.fold?_cases {op : ArithOp} {a b n : Int32} (h : op.fold? a b = some n) :
    op = .add ∧ n = a + b ∨ op = .sub ∧ n = a - b ∨ op = .mul ∧ n = a * b := by
  have hchecked {z : Int} {r : Int32} (hr : r.toInt = z.bmod (2 ^ 32))
      (h : (if -0x80000000 ≤ z ∧ z < 0x80000000 then some (Int32.ofInt z) else none) = some n) :
        n = r := by
    split at h
    · rw [ofInt_eq_wrapped hr]
      exact (Option.some.inj h).symm
    · cases h
  cases op with
  | add => exact .inl ⟨rfl, hchecked (Int32.toInt_add a b) h⟩
  | sub => exact .inr (.inl ⟨rfl, hchecked (Int32.toInt_sub a b) h⟩)
  | mul => exact .inr (.inr ⟨rfl, hchecked (Int32.toInt_mul a b) (Option.filter_eq_some_iff.1 h).1⟩)
  | _ => cases h

theorem BitOp.fold?_eq {op : BitOp} {a b n : Int32} (h : op.fold? a b = some n) :
    binary32 op.instruction a b = n := by
  cases op with
  | unsignedRightShift =>
    simp only [fold?] at h
    split at h
    · exact Option.some.inj h
    · cases h
  | _ => exact Option.some.inj h

namespace Lowering

section

variable {σ : Type} {m : Machine σ} {c c' : Config σ} {env : Env} {s s' : State} {id y : NodeId}
  {node arg : Node} {x : Datum} {known v : AbstractValue} {e : Edge} {l r : Reg} {w : Word}
  {k : Unit} {t : Bool} {form : Form} {o : Except ExitKind Word} {a n : Int32} {f : AbstractState}
  {frozen : FrozenValue}

/-! ## The code of a node -/

/-- The code of node `id` leaves, or records the word for the node. -/
def Computes (m : Machine σ) (id : NodeId) (form : Form) (w : Word) (s s' : State) (c : Config σ) :
    Prop :=
  m.Leaves s'.builder c ∨ ∃ r, s'.values.lookup (id, form) = some (r, s'.block) ∧
    m.Runs s.builder c s'.builder fun c' => c'.Has s'.builder r form.type w

theorem Ends.computes (h : Ends m id form s s' c o) (ho : ∀ u, o = .ok u → u = w) :
    Computes m id form w s s' c := by
  cases o with
  | error kind => exact .inl (LeavesBy.leaves h)
  | ok u =>
    obtain rfl := ho u rfl
    obtain ⟨r, hvalues, hblock, hruns⟩ := h
    refine .inr ⟨r, ?_, hruns⟩
    rw [hvalues, hblock, List.lookup_cons, beq_self_eq_true]

/-- Code that reads the uses of a node, unless it leaves, before the last part. -/
theorem Computes.ofReads {α : Type} {uses : Lower α} {rest : α → Lower Unit} [Tidy uses]
    [∀ a, Tidy (rest a)]
    {Q : α → State → Config σ → Prop} (h : (uses >>= rest) env s = .ok (k, s'))
    (hm : s'.builder.Completes m.func)
    (hc : m.At s.builder c)
    (hreads : ∀ {a s₁}, uses env s = .ok (a, s₁) → s₁.builder.Completes m.func →
      m.Leaves s₁.builder c ∨ s₁.armDepth = 0 ∧ m.Runs s.builder c s₁.builder (Q a s₁))
    (hrest : ∀ {a s₁ c₁}, Q a s₁ c₁ → Finishes m env s₁.builder c₁ id form (rest a) o)
    (ho : ∀ u, o = .ok u → u = w) :
    Computes m id form w s s' c := by
  obtain ⟨a, s₁, h₁, h₂⟩ := bind_ok h
  have e₁ : s.builder.Emits [] s₁.builder := Tidy.after h₁ (.refl hc.wf)
  have e₂ : s₁.builder.Emits [] s'.builder := Tidy.after h₂ (.refl e₁.after)
  rcases hreads h₁ (e₂.toExtends.completes hm) with hleave | ⟨hdepth, c₁, hgoes, hc₁, hk, hq⟩
  · exact .inl (hleave.grow e₂.toExtends)
  have hruns : m.Runs s.builder c s₁.builder (· = c₁) := ⟨c₁, hgoes, hc₁, hk, rfl⟩
  rcases (hrest hq (.refl _ _) hc₁ hdepth h₂ hm).computes ho with hleave | ⟨r, hvalue, hruns₂⟩
  · exact .inl (hruns.leaves e₂.toExtends fun _ _ _ hc' => hc' ▸ hleave)
  · exact .inr ⟨r, hvalue, hruns.bind e₁.toExtends e₂.toGrows fun c₂ _ _ hc₂ => hc₂ ▸ hruns₂⟩

/-! ## Known int32 operands -/

/-- Node `id` is the int32 `a` and its fact needs no check of that or rules it out, or the node is
no int32. -/
def KnownInt32 (env : Env) (s : State) (c : Config σ) (id : NodeId) (a : Int32) : Prop :=
  HoldsInt32 env s c id a ∧ (∃ known, s.facts.factOf env.graph id = .ok known ∧
    (known.isType .int32 = true ∨ known.isNotType .int32 = true)) ∨ NotInt32 env s c id

theorem Admitted.knownInt32 (hx : Admitted env s c id node x known) (ha : known.asInt32? = some a) :
    KnownInt32 env s c id a := by
  by_cases hint : ∃ w, x.Shows .jsValue w ∧ Value.isInt32 w = true
  · obtain ⟨w, hw, hint⟩ := hint
    have hadmits := hx.admits w hw
    refine .inl ⟨?_, known, hx.fact, hx.exact.int32_settled ha⟩
    rw [← hadmits.unboxInt32_eq ha hint]
    exact hx.holdsInt32 hw hint
  · exact .inr (hx.notInt32 fun w hw => Bool.eq_false_iff.2 fun hw' => hint ⟨w, hw, hw'⟩)

/-- Reading another node as an int32 does not make the node one. -/
theorem NotInt32.read (h : NotInt32 env s c y) (hread : ReadIn id .int32 r s s')
    (hf : c.Follows s.builder c' s'.builder) (hfacts : s'.facts = s.facts) (hne : y ≠ id) :
    NotInt32 env s' c' y where
  narrow := by
    rw [Lowering.heldIn, hread.lookup hne, hread.block]
    exact h.narrow
  boxed hq := by
    rcases hread.heldIn hq with hq | ⟨hid, -⟩
    · obtain ⟨w, hhas, hw⟩ := h.boxed hq
      exact ⟨w, hhas.later hf, hw⟩
    · exact absurd hid hne
  constant := h.constant
  fact := by
    rw [hfacts]
    exact h.fact

/-- A use of a known int32 as one leaves or gives it, and what else is known stays so. -/
theorem asInt32_known (h : asInt32 e env s = .ok (r, s')) (hm : s'.builder.Completes m.func)
    (hc : m.At s.builder c) (ha : KnownInt32 env s c e.node a) (hvalid : s.facts.valid = true)
    (hdepth : s.armDepth = 0) :
    m.Leaves s'.builder c ∨ s'.facts.valid = true ∧ s'.armDepth = 0 ∧ m.Runs s.builder c s'.builder
      fun c' =>
      c'.Has s'.builder r .i32 (ofInt32 a) ∧
        ∀ {y n}, (y = e.node → n = a) → KnownInt32 env s c y n → KnownInt32 env s' c' y n := by
  rcases ha with ⟨hholds, known, hknown, hsettled⟩ | hnot
  · rcases asInt32_course h hm hc hholds hvalid hdepth with ⟨hleave, -⟩ | ⟨hread, hfacts, hruns⟩
    · exact .inl hleave
    have hfacts : s'.facts = s.facts := by
      rcases hfacts with hsame | ⟨known', hknown', hty, hnot, -⟩
      · exact hsame
      · cases hknown.symm.trans hknown'
        simp [hty, hnot] at hsettled
    have e₁ : s.builder.Emits [] s'.builder := Tidy.after h (.refl hc.wf)
    refine .inr ⟨by
      rw [hfacts]; exact hvalid, hread.depth.trans hdepth, hruns.mono fun c' hk hr =>
        ⟨hr, fun {y n} hsame hy => ?_⟩⟩
    have hf : c.Follows s.builder c' s'.builder := ⟨e₁.toExtends, hk⟩
    by_cases hid : y = e.node
    · obtain rfl := hsame hid
      subst hid
      exact .inl ⟨hholds.read hread hf fun _ => hr, known, by rw [hfacts]; exact hknown, hsettled⟩
    · rcases hy with ⟨hy, hsettled⟩ | hy
      · exact .inl ⟨hy.read hread hf fun hid' => absurd hid' hid, by rw [hfacts]; exact hsettled⟩
      · exact .inr (hy.read hread hf hfacts hid)
  · obtain ⟨known, hknown, hty⟩ := hnot.fact
    exact .inl (asInt32_leaves h hm hc hvalid hdepth hnot.narrow hnot.constant hknown hty
      (.inr hnot.boxed))

/-- Two uses of known int32 values leave or give them. -/
theorem asBoth_known (h : asBoth asInt32 node env s = .ok ((l, r), s'))
    (hm : s'.builder.Completes m.func) (hc : m.At s.builder c)
    (hargs : Operands (KnownInt32 env s c) node a n) (hvalid : s.facts.valid = true)
    (hdepth : s.armDepth = 0) :
    m.Leaves s'.builder c ∨ s'.armDepth = 0 ∧ m.Runs s.builder c s'.builder fun c' =>
      c'.Has s'.builder l .i32 (ofInt32 a) ∧ c'.Has s'.builder r .i32 (ofInt32 n) := by
  obtain ⟨e, he, h⟩ := check_bind_ok h
  obtain ⟨l', s₁, h₁, h⟩ := bind_ok h
  obtain ⟨e', he', h⟩ := check_bind_ok h
  obtain ⟨r', s₂, h₂, h⟩ := bind_ok h
  cases h
  have e₁ : s.builder.Emits [] s₁.builder := Tidy.after h₁ (.refl hc.wf)
  have e₂ : s₁.builder.Emits [] s'.builder := Tidy.after h₂ (.refl e₁.after)
  rcases asInt32_known h₁ (e₂.toExtends.completes hm) hc (hargs.first he) hvalid hdepth with
    hleave | ⟨hvalid₁, hdepth₁, c₁, hgoes, hc₁, hk, hl, hkeep⟩
  · exact .inl (hleave.grow e₂.toExtends)
  have hruns₁ : m.Runs s.builder c s₁.builder (· = c₁) := ⟨c₁, hgoes, hc₁, hk, rfl⟩
  rcases asInt32_known h₂ hm hc₁ (hkeep (hargs.same he he') (hargs.second he')) hvalid₁ hdepth₁ with
    hleave | ⟨-, hdepth₂, hruns₂⟩
  · exact .inl (hruns₁.leaves e₂.toExtends fun _ _ _ hc' => hc' ▸ hleave)
  · refine .inr ⟨hdepth₂, hruns₁.bind e₁.toExtends e₂.toGrows fun c' _ _ hc' => ?_⟩
    subst hc'
    exact hruns₂.mono fun c₂ hk₂ hr => ⟨hl.keep e₂.toExtends hk₂, hr.1⟩

/-! ## Int32 results -/

/-- An operation on int32 values that the analysis knows the result of. -/
theorem lowerAddSub_known {mode : ArithMode} {instruction : BinaryOp} {overflow : OverflowOp}
    {double : FBinaryOp}
    (h : lowerAddSub id node mode instruction overflow double env s = .ok (k, s'))
    (hm : s'.builder.Completes m.func) (hc : m.At s.builder c)
    (hargs : Operands (KnownInt32 env s c) node a n) (hvalid : s.facts.valid = true)
    (hdepth : s.armDepth = 0) (hnode : env.graph.node id = .ok node)
    (hresult : node.result = .int32) (hneeded : env.exitOnly.contains id = false) :
    Computes m id .int32 (ofInt32 (binary32 instruction a n)) s s' c := by
  rw [lowerAddSub, hresult] at h
  refine .ofReads h hm hc (fun h₁ hm₁ => asBoth_known h₁ hm₁ hc hargs hvalid hdepth) (fun hregs =>
    addSub_finishes hregs.1 hregs.2 hnode hresult hneeded) fun u hu => ?_
  split at hu <;> cases hu
  rfl

theorem lowerMul_known {mode : ArithMode} (h : lowerMul id node mode env s = .ok (k, s'))
    (hm : s'.builder.Completes m.func) (hc : m.At s.builder c)
    (hargs : Operands (KnownInt32 env s c) node a n) (hvalid : s.facts.valid = true)
    (hdepth : s.armDepth = 0) (hnode : env.graph.node id = .ok node)
    (hresult : node.result = .int32) :
    Computes m id .int32 (ofInt32 (a * n)) s s' c := by
  rw [lowerMul, hresult] at h
  refine .ofReads h hm hc (fun h₁ hm₁ => asBoth_known h₁ hm₁ hc hargs hvalid hdepth) (fun hregs =>
    mul_finishes hregs.1 hregs.2 hnode hresult) fun u hu => ?_
  split at hu
  · cases hu
  split at hu <;> cases hu
  rfl

theorem lowerBit_known {op : BitOp} (h : lowerBit id node op env s = .ok (k, s'))
    (hm : s'.builder.Completes m.func) (hc : m.At s.builder c)
    (hargs : Operands (KnownInt32 env s c) node a n) (hvalid : s.facts.valid = true)
    (hdepth : s.armDepth = 0) (hnode : env.graph.node id = .ok node)
    (hresult : node.result = .int32) :
    Computes m id .int32 (ofInt32 (binary32 op.instruction a n)) s s' c := by
  refine .ofReads h hm hc (fun h₁ hm₁ => asBoth_known h₁ hm₁ hc hargs hvalid hdepth)
    (fun hregs => ?_)
    fun u hu => (Except.ok.inj hu).symm
  refine .bind (.ofEmit (Emit.binary_int32 hregs.1 hregs.2)) fun _ hr => ?_
  exact finishes_setResult hnode (by rw [hresult]; rfl) hr

/-! ## Type queries -/

/-- The code of a type query that is known leaves or computes the answer. -/
theorem lowerTypeQuery_known {q : TypeQuery} (h : lowerTypeQuery id node q env s = .ok (k, s'))
    (hm : s'.builder.Completes m.func)
    (hc : m.At s.builder c) (he : node.child 0 = .ok e) (hx : Admitted env s c e.node arg x known)
    (hv : ∀ w, x.Shows .jsValue w → v.Admits env.layout c.memory w) (ht : q.answer? v.ty = some t)
    (hsees : ∀ {w}, x.Shows .jsValue w → Value.isNumber w = false →
      e.useKind.isProven = true ∨ Value.overlooked env.layout c.memory w e.useKind = false)
    (hempty : x.Shows .jsValue Value.empty → Cell.EmptyHeader env.layout c.memory)
    (hnode : env.graph.node id = .ok node) (hresult : node.result = .boolean)
    (hvalid : s.facts.valid = true) (hdepth : s.armDepth = 0)
    (hbox : m.BoxesInt52 c.memory) (hlayout : env.layout.firstObjectTag = CellType.firstObjectTag)
    (hmasq : Cell.OnlyOthersMasquerade env.layout c.memory) :
    Computes m id .boolean (ofBool t) s s' c := by
  have hform : node.result.form? = some .boolean := by rw [hresult]; rfl
  have hanswer {w : Word} (hw : x.Shows .jsValue w) : q.holds env.layout c.memory w = t :=
    TypeQuery.answer?_eq ht (hv w hw) hlayout hmasq fun hw' => hempty (hw' ▸ hw)
  -- the operand is read, and the answer is computed from what was read
  have hquery {f : Reg → Lower Unit} [∀ r, Tidy (f r)] (h : (asValue e >>= f) env s = .ok (k, s'))
      (hf : ∀ {value b c₁ w}, x.Shows .jsValue w → c₁.Has b value .i64 w → c₁.memory = c.memory →
        Finishes m env b c₁ id .boolean (f value) (.ok (ofBool t))) : Computes m id .boolean
          (ofBool t) s s' c := by
    refine .ofReads (Q := fun value s₁ c₁ => ∃ w, x.Shows .jsValue w ∧ c₁.Has s₁.builder value .i64
      w ∧ c₁.memory = c.memory) h hm hc
      (fun h₁ hm₁ => ?_) (fun ⟨w, hw, hr, hmem⟩ => hf hw hr hmem) fun u hu =>
        (Except.ok.inj hu).symm
    refine (hx.asValue_goes h₁ hm₁ hc hbox hvalid hdepth hsees).imp_right fun ⟨w, hw, hdepth₁,
      hruns, _⟩ => ⟨hdepth₁, ?_⟩
    exact hruns.mono fun c₁ hk hr => ⟨w, hw, hr, hk.memory⟩
  have hequal {b : Builder} {c₁ : Config σ} {value : Reg} {w : Word} (hr : c₁.Has b value .i64 w)
    (v : Word) :
      (Emit.icmpImm .eq value (wordImm v)).Yields m b c₁ .i32 (ofBool (w == v)) := by
    refine (Emit.icmpImm_yields hr).congr ?_
    rw [Ty.normalize_i64, ofInt_wordImm, IntCC.eq_eval]
  have htag {cellType : CellType} {b : Builder} {c₁ : Config σ} {value : Reg} {w : Word}
    (hr : c₁.Has b value .i64 w) :
      Yields m env b c₁ (cellQuery value (hasCellType value cellType)) .i32
        (ofBool (Value.isCell w && Cell.tag env.layout c₁.memory w == cellType.tag)) :=
    cellQuery_yields hr fun hf => by rw [← hf.memory]; exact hasCellType_yields (hr.later hf)
  have hobject {b : Builder} {c₁ : Config σ} {value : Reg} {w : Word} (hr : c₁.Has b value .i64 w) :
      Yields m env b c₁ (cellQuery value (isPlainObject value)) .i32
        (ofBool (Value.isCell w && Cell.isPlainObject env.layout c₁.memory w)) :=
    cellQuery_yields hr fun hf => by rw [← hf.memory]; exact isPlainObject_yields (hr.later hf)
  rw [lowerTypeQuery] at h
  obtain ⟨e', he', h⟩ := check_bind_ok h
  rw [he] at he'
  cases he'
  cases q with
  | undefined =>
    obtain ⟨rfl, -⟩ := TypeQuery.answer?_cases ht
    refine hquery h fun {value b c₁ w} hw hr hmem => ?_
    have hholds := hanswer hw
    rw [TypeQuery.holds] at hholds
    -- without a fact about objects, the test for the word itself is all there is
    have hplain : (w == Value.undefined) = false := by
      rw [← Bool.not_eq_true, beq_iff_eq]
      rintro rfl
      cases hholds
    refine .bind (undefinedLike_yields hr (fun hf => ?_) fun hcell => ?_) fun _ hr' =>
      finishes_setResult hnode hform hr'
    · exact (hequal (hr.later hf) _).congr (by rw [hplain])
    · rw [hmem]
      rwa [if_pos hcell] at hholds
  | boolean =>
    refine hquery h fun hw hr _ => .bind (.ofEmit (isBoolean_yields hr)) fun _ hr' => ?_
    rw [← hanswer hw]
    exact finishes_setResult hnode hform hr'
  | number =>
    refine hquery h fun hw hr _ => .bind (.ofEmit (isNumber_yields hr)) fun _ hr' => ?_
    rw [← hanswer hw]
    exact finishes_setResult hnode hform hr'
  | string | function =>
    refine hquery h fun hw hr hmem => .bind (htag hr) fun _ hr' => ?_
    rw [← hanswer hw, TypeQuery.holds, ← hmem]
    exact finishes_setResult hnode hform hr'
  | object =>
    refine hquery h fun hw hr hmem => .bind (hobject hr) fun _ hr' => ?_
    rw [← hanswer hw, TypeQuery.holds, ← hmem]
    exact finishes_setResult hnode hform hr'
  | objectOrNull =>
    refine hquery h fun hw hr hmem => .bind (.ofEmit (hequal hr _)) fun hf hnull => ?_
    refine .bind (hobject (hr.later hf)) fun hf' hobject => ?_
    refine .bind (.ofEmit (Emit.binary_yields (hnull.later hf') hobject)) fun _ hr' => ?_
    rw [BinaryOp.or_ofBool] at hr'
    rw [← hanswer hw, TypeQuery.holds, ← hmem, ← hf.memory]
    exact finishes_setResult hnode hform hr'
  | arrayObject => exact (TypeQuery.answer?_cases ht).elim

instance (e : Edge) : Tidy (truth e) := Staged.obeys inferInstance

/-- The code of a negation that is known leaves or computes it. -/
theorem lowerLogicalNot_known (h : lowerLogicalNot id node env s = .ok (k, s'))
    (hm : s'.builder.Completes m.func)
    (hc : m.At s.builder c) (he : node.child 0 = .ok e)
    (hreaches : ∀ {r s₁}, truth e env s = .ok (r, s₁) →
      s₁.builder.Completes m.func → LeavesOrGives m s s₁ c r .i32 (ofBool t))
    (hnode : env.graph.node id = .ok node) (hresult : node.result = .boolean) :
    Computes m id .boolean (ofBool !t) s s' c := by
  rw [lowerLogicalNot] at h
  obtain ⟨e', he', h⟩ := check_bind_ok h
  rw [he] at he'
  cases he'
  refine .ofReads h hm hc hreaches (fun hr => ?_) fun u hu => (Except.ok.inj hu).symm
  exact .bind (.ofEmit (negated_yields hr)) fun _ hr' =>
    finishes_setResult hnode (by rw [hresult]; rfl) hr'

/-! ## Known results -/

/-- The code of node `id` leaves, or records a word that shows the constant in the form of the
node's result. -/
def ComputesConstant (m : Machine σ) (id : NodeId) (node : Node) (v : FrozenValue) (s s' : State)
    (c : Config σ) : Prop :=
  ∃ form w, node.result.form? = some form ∧ (Datum.boxed (Value.ofFrozen v)).Shows form w ∧
    Computes m id form w s s' c

theorem Computes.int32 (h : Computes m id .int32 (ofInt32 n) s s' c)
    (hresult : node.result = .int32) :
    ComputesConstant m id node (.int32 n) s s' c :=
  ⟨.int32, ofInt32 n,
    by rw [hresult]; rfl, ⟨Value.isInt32_boxInt32 n,
      (congrArg ofInt32 (Value.unboxInt32_boxInt32 n)).symm⟩, h⟩

theorem Computes.boolean (h : Computes m id .boolean (ofBool t) s s' c)
    (hresult : node.result = .boolean) :
    ComputesConstant m id node (.boolean t) s s' c :=
  ⟨.boolean, ofBool t, by rw [hresult]; rfl, by cases t <;> exact ⟨by decide, by decide⟩, h⟩

/-- Before the code of a node, the facts `f`, where its uses were narrowed, admit the values of its
operands. A query of the empty value reads no header of a string or of an object. -/
structure Narrowed (env : Env) (s : State) (f : AbstractState) (c : Config σ) (node : Node) :
    Prop where
  uses : AbstractState.filterUses env.graph node.children s.facts = .ok f
  valid : f.valid = true
  exact : s.facts.current.Exact
  operands : ∀ e ∈ node.children, ∃ arg x v, Admitted env { s with facts := f } c e.node arg x v ∧
    ((∃ q, node.op = .isType q) → x.Shows .jsValue Value.empty → Cell.EmptyHeader env.layout
      c.memory)

/-- What the narrowed facts admit, the facts before the node admit, too. -/
theorem Narrowed.admitted (h : Narrowed env s f c node)
    (hx : Admitted env { s with facts := f } c y arg x v) :
    ∃ known, Admitted env s c y arg x known ∧ v.value = known.value := by
  obtain ⟨known, hknown, hnarrows⟩ := AbstractState.filterUses_narrows h.uses hx.fact
  refine ⟨known, ⟨⟨hx.found, hx.shown, hx.constant, hx.boxed⟩, hknown,
    fun w hw => (hx.admits w hw).of_narrows hnarrows,
    AbstractState.factOf_exact h.exact hknown, fun d hd himpure => ?_, hx.range⟩, ?_⟩
  · exact SpecType.overlaps_mono (hx.purified d hd himpure) hnarrows.ty (SpecType.subset_refl _)
  · obtain ⟨w, hw⟩ := x.exists_shows
    refine hnarrows.value.resolve_right fun hempty => ?_
    rw [(hx.admits w hw).isEmpty_eq_false] at hempty
    cases hempty

/-- A word that the narrowed facts admit is of the kinds that the use asks for. -/
theorem Narrowed.subset (h : Narrowed env s f c node) (he : e ∈ node.children)
    (hk : e.useKind ≠ .untyped) (hx : Admitted env { s with facts := f } c e.node arg x v) :
    v.ty.isSubsetOf e.useKind.typeFilter = true :=
  AbstractState.filterUses_subset h.uses h.valid he hk hx.fact

/-- The checks of a use see what a word that the narrowed facts admit is. -/
theorem Narrowed.sees (h : Narrowed env s f c node) (he : e ∈ node.children)
    (hx : Admitted env { s with facts := f } c e.node arg x v) (hw : x.Shows .jsValue w)
    (hn : Value.isNumber w = false) :
    e.useKind.isProven = true ∨ Value.overlooked env.layout c.memory w e.useKind = false := by
  cases hk : e.useKind.isProven with
  | true => exact .inl rfl
  | false =>
    have huntyped : e.useKind ≠ .untyped := by
      intro hu
      rw [hu] at hk
      cases hk
    have hkind := SpecType.subset_trans ((hx.admits w hw).other hn) (h.subset he huntyped hx)
    refine .inr ?_
    rw [← Bool.not_eq_true]
    intro hover
    rw [(Value.settled env.layout c.memory w hk).differs hover] at hkind
    cases hkind

theorem Narrowed.knownInt32 {i : Nat} (h : Narrowed env s f c node) (he : node.child i = .ok e)
    (ha : ∃ e v, node.child i = .ok e ∧ f.factOf env.graph e.node = .ok v ∧ v.asInt32? = some a) :
    KnownInt32 env s c e.node a := by
  obtain ⟨e', v, he', hv, ha⟩ := ha
  cases he.symm.trans he'
  obtain ⟨arg, x, v', hx, -⟩ := h.operands e (Node.mem_of_child he)
  cases hx.fact.symm.trans hv
  obtain ⟨known, hx', hvalue⟩ := h.admitted hx
  exact hx'.knownInt32 (by rw [AbstractValue.asInt32?, ← hvalue]; exact ha)

/-- Where an operation is folded, its operands are known int32 values. -/
theorem Narrowed.int32Operands {k : Int32 → Int32 → Option Int32} {b : Int32}
    (h : Narrowed env s f c node) (hfolds : AbstractState.FoldsInt32 env.graph node f k a b n) :
    Operands (KnownInt32 env s c) node a b where
  first he := h.knownInt32 he hfolds.first
  second he := h.knownInt32 he hfolds.second
  same {e e'} he he' hsame := by
    obtain ⟨d, v, hd, hv, ha⟩ := hfolds.first
    obtain ⟨d', v', hd', hv', hb⟩ := hfolds.second
    cases he.symm.trans hd
    cases he'.symm.trans hd'
    rw [hsame] at hv'
    cases hv.symm.trans hv'
    exact Option.some.inj (hb.symm.trans ha)

theorem arith_computed {op : ArithOp} {mode : ArithMode} (h : lowerOp id node env s = .ok (k, s'))
    (hm : s'.builder.Completes m.func) (hc : m.At s.builder c) (hvalid : s.facts.valid = true)
    (hdepth : s.armDepth = 0) (hnode : env.graph.node id = .ok node)
    (hneeded : env.exitOnly.contains id = false) (hargs : Narrowed env s f c node)
    (hop : node.op = .arith op mode) (hv : f.resultFact env.graph node = .ok (some v))
    (hconst : v.value = some frozen) : ComputesConstant m id node frozen s s' c := by
  rw [lowerOp, hop] at h
  unfold AbstractState.resultFact at hv
  rw [hop] at hv
  -- the fact of a result that is not folded names no constant
  have hnumeric
    (hv : (do return some (← f.numericResult env.graph node) : Except Fault (Option AbstractValue))
      = .ok (some v)) :
      ComputesConstant m id node frozen s s' c := by
    obtain ⟨v', hn, hv⟩ := bind_eq_ok_iff.1 hv
    cases hv
    rw [AbstractState.numericResult_value hn] at hconst
    cases hconst
  have hfolded {v' : AbstractValue} (hfolded : f.foldInt32 env.graph node op.fold? = .ok (some v'))
      (hconst : v'.value = some frozen) : ComputesConstant m id node frozen s s' c := by
    obtain ⟨a, b, n, hfolds, rfl⟩ := AbstractState.foldInt32_ok hfolded
    cases hconst
    have hoperands := hargs.int32Operands hfolds
    have hresult := hfolds.result
    rcases ArithOp.fold?_cases hfolds.folds with ⟨rfl, rfl⟩ | ⟨rfl, rfl⟩ | ⟨rfl, rfl⟩
    · exact (lowerAddSub_known h hm hc hoperands hvalid hdepth hnode hresult hneeded).int32 hresult
    · exact (lowerAddSub_known h hm hc hoperands hvalid hdepth hnode hresult hneeded).int32 hresult
    · exact (lowerMul_known h hm hc hoperands hvalid hdepth hnode hresult).int32 hresult
  cases op with
  | add | sub | mul =>
    obtain ⟨folded, hf, hv⟩ := bind_eq_ok_iff.1 hv
    cases folded with
    | none => exact hnumeric hv
    | some v' =>
      cases hv
      exact hfolded hf hconst
  | _ => exact hnumeric hv

theorem bit_computed {op : BitOp} (h : lowerOp id node env s = .ok (k, s'))
    (hm : s'.builder.Completes m.func) (hc : m.At s.builder c) (hvalid : s.facts.valid = true)
    (hdepth : s.armDepth = 0) (hnode : env.graph.node id = .ok node)
    (hargs : Narrowed env s f c node) (hop : node.op = .bit op)
    (hv : f.resultFact env.graph node = .ok (some v)) (hconst : v.value = some frozen) :
    ComputesConstant m id node frozen s s' c := by
  rw [lowerOp, hop] at h
  unfold AbstractState.resultFact at hv
  rw [hop] at hv
  obtain ⟨folded, hfolded, hv⟩ := bind_eq_ok_iff.1 hv
  cases folded with
  | none =>
    dsimp only at hv
    split at hv <;> cases hv <;> cases hconst
  | some v' =>
    cases hv
    obtain ⟨a, b, n, hfolds, rfl⟩ := AbstractState.foldInt32_ok hfolded
    cases hconst
    have hcomputes := lowerBit_known h hm hc (hargs.int32Operands hfolds) hvalid hdepth hnode
      hfolds.result
    rw [BitOp.fold?_eq hfolds.folds] at hcomputes
    exact hcomputes.int32 hfolds.result

theorem logicalNot_computed (h : lowerOp id node env s = .ok (k, s'))
    (hm : s'.builder.Completes m.func) (hc : m.At s.builder c) (hvalid : s.facts.valid = true)
    (hdepth : s.armDepth = 0) (hbox : m.BoxesInt52 c.memory)
    (htruth : m.TellsTruth env.layout c.memory)
    (hlayout : env.layout.firstObjectTag = CellType.firstObjectTag)
    (hmasq : Cell.OnlyOthersMasquerade env.layout c.memory) (hnode : env.graph.node id = .ok node)
    (hargs : Narrowed env s f c node) (hop : node.op = .logicalNot)
    (hresult : node.result = .boolean) (hv : f.resultFact env.graph node = .ok (some v))
    (hconst : v.value = some frozen) : ComputesConstant m id node frozen s s' c := by
  rw [lowerOp, hop] at h
  unfold AbstractState.resultFact at hv
  rw [hop] at hv
  obtain ⟨e, he, hv⟩ := bind_eq_ok_iff.1 hv
  obtain ⟨known, hknown, hv⟩ := bind_eq_ok_iff.1 hv
  cases hv
  cases ht : known.conditionTruth? e.useKind with
  | none =>
    rw [ht] at hconst
    cases hconst
  | some t =>
    rw [ht] at hconst
    cases hconst
    have hmem := Node.mem_of_child he
    obtain ⟨arg, x, v, hx, -⟩ := hargs.operands e hmem
    cases hx.fact.symm.trans hknown
    obtain ⟨known', hx', hvalue⟩ := hargs.admitted hx
    refine (lowerLogicalNot_known h hm hc he (fun h₁ hm₁ => ?_) hnode hresult).boolean hresult
    refine truth_known h₁ hm₁ hc hx' hx.admits hvalue ht (fun hu w hw => ?_) hvalid hdepth hbox
      htruth hlayout hmasq
    have hkind := hargs.subset hmem (by rw [hu]; decide) hx
    rw [hu] at hkind
    exact (hx.admits w hw).kind hkind (by decide)

theorem isType_computed {q : TypeQuery} (h : lowerOp id node env s = .ok (k, s'))
    (hm : s'.builder.Completes m.func) (hc : m.At s.builder c) (hvalid : s.facts.valid = true)
    (hdepth : s.armDepth = 0) (hbox : m.BoxesInt52 c.memory)
    (hlayout : env.layout.firstObjectTag = CellType.firstObjectTag)
    (hmasq : Cell.OnlyOthersMasquerade env.layout c.memory) (hnode : env.graph.node id = .ok node)
    (hargs : Narrowed env s f c node) (hop : node.op = .isType q) (hresult : node.result = .boolean)
    (hv : f.resultFact env.graph node = .ok (some v)) (hconst : v.value = some frozen) :
    ComputesConstant m id node frozen s s' c := by
  rw [lowerOp, hop] at h
  unfold AbstractState.resultFact at hv
  rw [hop] at hv
  have hquery (hv : (do return some (AbstractState.booleanResult env.graph
      (q.answer? (← f.typeOf env.graph (← node.child 0).node))) : Except Fault
        (Option AbstractValue)) = .ok (some v)) :
      ComputesConstant m id node frozen s s' c := by
    obtain ⟨e, he, hv⟩ := bind_eq_ok_iff.1 hv
    obtain ⟨ty, hty, hv⟩ := bind_eq_ok_iff.1 hv
    cases hv
    cases ht : q.answer? ty with
    | none =>
      rw [ht] at hconst
      cases hconst
    | some t =>
      rw [ht] at hconst
      cases hconst
      have hmem := Node.mem_of_child he
      obtain ⟨arg, x, v, hx, hempty⟩ := hargs.operands e hmem
      obtain ⟨v', hv', hty⟩ := bind_eq_ok_iff.1 hty
      cases hty
      cases hx.fact.symm.trans hv'
      obtain ⟨known, hx', -⟩ := hargs.admitted hx
      exact (lowerTypeQuery_known h hm hc he hx' hx.admits ht (hargs.sees hmem hx) (hempty ⟨q, hop⟩)
        hnode hresult hvalid hdepth hbox
        hlayout hmasq).boolean hresult
  cases q with
  | arrayObject =>
    cases hv
    cases hconst
  | _ => exact hquery hv

/-- The results of the node are folded where the facts about its operands tell them. -/
inductive Folds (node : Node) : Prop
  | arith (op : ArithOp) (mode : ArithMode) (h : node.op = .arith op mode)
  | bit (op : BitOp) (h : node.op = .bit op)
  | logicalNot (h : node.op = .logicalNot) (hresult : node.result = .boolean)
  | isType (q : TypeQuery) (h : node.op = .isType q) (hresult : node.result = .boolean)

/-- Where the analysis names the result of a node, the code of the node leaves or computes it; where
it names the way of a branch, the code of the condition leaves or goes that way. The operands have
values that the facts admit, only other objects masquerade as `undefined`, and the runtime does as
documented. -/
theorem known_results_computed (hnode : env.graph.node id = .ok node) (hc : m.At s.builder c)
    (hvalid : s.facts.valid = true) (hdepth : s.armDepth = 0) (hbox : m.BoxesInt52 c.memory)
    (htruth : m.TellsTruth env.layout c.memory)
    (hlayout : env.layout.firstObjectTag = CellType.firstObjectTag)
    (hmasq : Cell.OnlyOthersMasquerade env.layout c.memory) :
    (∀ {u s' f v frozen}, Folds node → lowerOp id node env s = .ok (u, s') →
      s'.builder.Completes m.func →
      env.exitOnly.contains id = false → Narrowed env s f c node → f.resultFact env.graph
        node = .ok (some v) →
      v.value = some frozen → ComputesConstant m id node frozen s s' c) ∧
    ∀ {e arg x known r s' t}, node.child 0 = .ok e → s.facts.branchDirection? env.graph
      node = .ok (some t) →
      Admitted env s c e.node arg x known →
      (e.useKind = .knownString → ∀ w, x.Shows .jsValue w →
        (Value.kindOf env.layout c.memory w).isSubsetOf .string = true) →
      truth e env s = .ok (r, s') → s'.builder.Completes m.func → LeavesOrGives m s s' c r .i32
        (ofBool t) := by
  constructor
  · intro u s' f v frozen hfolds h hm hneeded hargs hv hconst
    cases hfolds with
    | arith op mode hop =>
      exact arith_computed h hm hc hvalid hdepth hnode hneeded hargs hop hv hconst
    | bit op hop => exact bit_computed h hm hc hvalid hdepth hnode hargs hop hv hconst
    | logicalNot hop hresult =>
      exact logicalNot_computed h hm hc hvalid hdepth hbox htruth hlayout hmasq hnode hargs hop
        hresult hv hconst
    | isType q hop hresult =>
      exact isType_computed h hm hc hvalid hdepth hbox hlayout hmasq hnode hargs hop hresult hv
        hconst
  · intro e arg x known r s' t he hdirection hx hstring h hm
    obtain ⟨e', he', hdirection⟩ := bind_eq_ok_iff.1 hdirection
    cases he.symm.trans he'
    obtain ⟨known', hknown, ht⟩ := bind_eq_ok_iff.1 hdirection
    cases hx.fact.symm.trans hknown
    exact truth_known h hm hc hx hx.admits rfl (Except.ok.inj ht) hstring hvalid hdepth hbox htruth
      hlayout hmasq

end

/-! ## A negation -/

namespace Negation

open TwoArguments

def node : Node := { op := .logicalNot, children := [{ node := ⟨0⟩ }], result := .boolean }

/-- Returns the negation of `true`. -/
def graph : Graph := { TwoArguments.graph node .jsValue .jsValue with
  nodes := #[
    { op := .jsConstant (.boolean true), result := .jsValue },
    { op := .getStack { operand := .arg 2, slot := .arg 2, format := .jsValue },
      result := .jsValue },
    node,
    { op := .ret, children := [{ node := ⟨2⟩ }] }] }

/-- What the analysis knows before the negation. -/
def analyzed : Except Fault AbstractState := do
  let s ← AbstractState.fixpoint graph 8
  AbstractState.executeAll graph [⟨0⟩, ⟨1⟩] (← s.beginBlock ⟨0⟩)

def facts : AbstractState := analyzed.toOption.getD default

/-- Before the negation: the constant is in register 2. -/
def start : State := { before graph .jsValue with facts }

theorem start_at (f : Function) :
    (Machine.truthful f).At start.builder (config f Value.trueWord Value.trueWord) where
  wf := ⟨rfl, Nat.zero_lt_one⟩
  isOpen := rfl
  block := rfl
  position blk hb := by cases hb; rfl
  registers := by simp [config, Machine.truthful]

theorem analyzed_ok : analyzed = .ok facts := by
  have h : analyzed.isOk = true := by decide +kernel
  unfold facts
  cases hr : analyzed with
  | error e => rw [hr] at h; cases h
  | ok s => rfl

theorem start_exact : start.facts.current.Exact := by
  obtain ⟨s, hs, h⟩ := bind_eq_ok_iff.1 analyzed_ok
  obtain ⟨s₁, h₁, h⟩ := bind_eq_ok_iff.1 h
  exact (AbstractState.fixpoint_exact hs).2 h₁ h

theorem admits_true {memory : Memory} :
    (AbstractValue.constant {} (.boolean true)).Admits {} memory Value.trueWord where
  number h := by cases h
  other _ := by rw [Value.kindOf_boolean (by decide)]; decide
  constant c hc := by
    obtain rfl := Option.some.inj hc
    exact ⟨fun _ hd => absurd hd (by simp [FrozenValue.asNumber?]), fun _ => rfl,
      fun _ _ hcell => absurd hcell (by simp)⟩

theorem admitted {f : Function} (hf : 3 < f.types.size) :
    Admitted (env graph) start (config f Value.trueWord Value.trueWord) ⟨0⟩
    { op := .jsConstant (.boolean true), result := .jsValue } (.boxed Value.trueWord)
    (.constant {} (.boolean true)) where
  found := rfl
  shown form r hr := by
    cases form <;> first | cases hr; done | skip
    cases hr
    have hhas : (config f Value.trueWord Value.trueWord).Has (before graph .jsValue).builder ⟨2⟩
      .i64 Value.trueWord :=
      (config_has hf).1
    exact ⟨_, rfl, hhas⟩
  constant w hw := by cases hw; rfl
  boxed w _ _ := rfl
  fact := by decide +kernel
  admits w hw := by
    obtain rfl := hw
    exact admits_true
  exact := AbstractValue.exact_constant _ _
  purified d hd := by cases hd
  range n hn := by rcases hn with hn | hn <;> cases hn

theorem uses_kept : AbstractState.filterUses graph node.children start.facts = .ok start.facts :=
  rfl

theorem result_known :
    ∃ v, start.facts.resultFact graph node = .ok (some v) ∧ v.value = some (.boolean false) :=
      ⟨_, rfl, rfl⟩

theorem onlyOthersMasquerade : Cell.OnlyOthersMasquerade {} {} := by
  intro w _ hmasq
  rw [Cell.masquerades] at hmasq
  exact absurd hmasq (by simp)

end Negation

/-- What is known to be `true` is, and its negation is computed. -/
theorem known_results_computed_negation :
    (∃ s', lowerOp ⟨2⟩ Negation.node (TwoArguments.env Negation.graph) Negation.start = .ok ((),
      s') ∧
      ComputesConstant (Machine.truthful s'.builder.func) ⟨2⟩ Negation.node (.boolean false)
        Negation.start s'
        (TwoArguments.config s'.builder.func Value.trueWord Value.trueWord)) ∧
    ∃ r s', truth { node := ⟨0⟩ } (TwoArguments.env Negation.graph) Negation.start = .ok (r, s') ∧
      LeavesOrGives (Machine.truthful s'.builder.func) Negation.start s'
        (TwoArguments.config s'.builder.func Value.trueWord Value.trueWord) r .i32
          (ofBool true) := by
  have hnegation :
    ((lowerOp ⟨2⟩ Negation.node (TwoArguments.env Negation.graph) Negation.start).toOption.any
      fun p => decide (3 < p.2.builder.func.types.size)) = true := by decide +kernel
  have hcondition :
    ((truth { node := ⟨0⟩ } (TwoArguments.env Negation.graph) Negation.start).toOption.any
      fun p => decide (3 < p.2.builder.func.types.size)) = true := by decide +kernel
  obtain ⟨⟨⟨⟩, s'⟩, h, hsize⟩ := ok_of_any hnegation
  obtain ⟨⟨r, s''⟩, h', hsize'⟩ := ok_of_any hcondition
  have hnode : (TwoArguments.env Negation.graph).graph.node ⟨2⟩ = .ok Negation.node := rfl
  have hlayout : (TwoArguments.env Negation.graph).layout.firstObjectTag
    = CellType.firstObjectTag := by decide
  have hknown (f : Function) := known_results_computed hnode (Negation.start_at f) rfl rfl
    (Machine.truthful_boxesInt52 f _)
    (Machine.truthful_tellsTruth f _) hlayout Negation.onlyOthersMasquerade
  obtain ⟨v, hv, hconst⟩ := Negation.result_known
  refine ⟨⟨s', h, ?_⟩, r, s'', h', ?_⟩
  · refine (hknown _).1 (.logicalNot rfl rfl) h s'.builder.completes_self (by decide +kernel)
      ⟨Negation.uses_kept, rfl, Negation.start_exact, ?_⟩ hv hconst
    intro e he
    obtain rfl := List.mem_singleton.1 he
    exact ⟨_, _, _, Negation.admitted (of_decide_eq_true hsize),
      fun hq => absurd hq (by simp [Negation.node])⟩
  · exact (hknown _).2 rfl rfl (Negation.admitted (of_decide_eq_true hsize'))
      (fun hu => by cases hu) h' s''.builder.completes_self

/-! ## A query of the empty value -/

/-- Returns whether the empty value is a string. -/
def emptyQuery : Graph where
  name := "emptyQuery"
  nodes := #[
    { op := .jsConstant .empty, result := .jsValue },
    { op := .isType .string, result := .boolean, children := [{ node := ⟨0⟩ }] },
    { op := .ret, children := [{ node := ⟨1⟩ }] }]
  blocks := #[{ index := ⟨0⟩, nodes := #[⟨0⟩, ⟨1⟩, ⟨2⟩] }]
  numArguments := 1
  numLocals := 0

/-- The facts say that the empty value is no string. The code says that it is one, if the header
that is read of it is one of a string. -/
theorem emptyQuery_returns_true : emptyQuery.canCompile.isOk = true ∧
    ((AbstractState.executeAll emptyQuery [⟨0⟩, ⟨1⟩] { blocks := #[], current := .empty emptyQuery,
                                                       valid := true }).toOption.bind
      fun s => (s.current.get? ⟨1⟩).bind (·.value)) = some (.boolean false) ∧
    simulated emptyQuery ((Simulation.FrameValues.memory {}).write 5 1
      (UInt64.ofNat CellType.string.tag)) =
      some (.returned Value.trueWord) := by
  decide +kernel

end Lowering

end SpecJit
