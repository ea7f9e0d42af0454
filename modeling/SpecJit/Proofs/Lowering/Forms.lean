import SpecJit.Proofs.Lowering.Conversion

/-!
# Reading integers in machine forms

A use that needs an integer reads it in one form, from a register that holds it in that form or in
another one (`asInt32_course`, `asStrictInt52_reads`, `asInt52_reads`). The register is recorded for
the node, so that what holds of the registers of other uses holds of them afterwards, too.
-/

namespace SpecJit

open Lir

/-- The int32 that a value is. -/
def Datum.int32? : Datum → Option Int32
  | .int32 n => some n
  | .boxed w => if Value.isInt32 w then some (Value.unboxInt32 w) else none
  | _ => none

/-- The words that show an int32. -/
theorem Datum.unbox_of_int32? {x : Datum} {n : Int32} {w : Word} (h : x.int32? = some n)
    (hw : x.Shows .jsValue w) :
    Value.isInt32 w = true ∧ Value.unboxInt32 w = n := by
  cases x with
  | int32 k =>
    obtain rfl := Option.some.inj h
    obtain rfl := hw
    exact ⟨Value.isInt32_boxInt32 k, Value.unboxInt32_boxInt32 k⟩
  | boxed v =>
    obtain rfl := hw
    simp only [Datum.int32?] at h
    split at h
    · exact ⟨‹_›, Option.some.inj h⟩
    · cases h
  | _ => cases h

theorem Datum.eq_ofInt32_of_int32? {x : Datum} {n : Int32} {w : Word} (h : x.int32? = some n)
    (hw : x.Shows .int32 w) :
    w = ofInt32 n := by
  cases x with
  | int32 k =>
    obtain rfl := Option.some.inj h
    exact hw
  | boxed v =>
    obtain ⟨hv, rfl⟩ := hw
    rw [Datum.int32?, if_pos hv] at h
    cases h
    rfl
  | _ => cases h

namespace Lowering

variable {σ : Type} {m : Machine σ} {c c' : Config σ} {env : Env} {s s' : State} {id x : NodeId}
  {node : Node} {e : Edge} {form form' : Form} {r q : Reg} {u : Unit}

/-! ## What reading records -/

/-- A node was read in a form: no more than the register for it was recorded. -/
structure ReadIn (id : NodeId) (form : Form) (r : Reg) (s s' : State) : Prop where
  block : s'.block = s.block
  depth : s'.armDepth = s.armDepth
  values : s'.values = s.values ∨ s'.values = ((id, form), r, s.block) :: s.values

theorem ReadIn.heldIn (h : ReadIn id form r s s') (hq : heldIn env s' x form' = some q) :
    Lowering.heldIn env s x form' = some q ∨ x = id ∧ form' = form ∧ q = r := by
  unfold Lowering.heldIn at hq ⊢
  rcases h.values with hvalues | hvalues
  · rw [hvalues, h.block] at hq
    exact .inl hq
  · rw [hvalues, h.block, List.lookup_cons] at hq
    by_cases hk : (x, form') = (id, form)
    · rw [hk, beq_self_eq_true] at hq
      simp only [Option.ite_none_right_eq_some, Option.some.injEq] at hq
      exact .inr ⟨congrArg Prod.fst hk, congrArg Prod.snd hk, hq.2.symm⟩
    · rw [beq_eq_false_iff_ne.2 hk] at hq
      exact .inl hq

/-- Nothing is recorded in other forms. -/
theorem ReadIn.heldIn_of_ne (h : ReadIn id form r s s') (hne : form' ≠ form) :
    Lowering.heldIn env s' x form' = Lowering.heldIn env s x form' := by
  unfold Lowering.heldIn
  rcases h.values with hvalues | hvalues
  · rw [hvalues, h.block]
  · have hk : ((x, form') == (id, form)) = false := by simp [hne]
    rw [hvalues, h.block, List.lookup_cons, hk]

/-- Nothing is recorded for other nodes. -/
theorem ReadIn.lookup (h : ReadIn id form r s s') (hne : x ≠ id) (form' : Form) :
    s'.values.lookup (x, form') = s.values.lookup (x, form') := by
  rcases h.values with hvalues | hvalues
  · rw [hvalues]
  · have hk : ((x, form') == (id, form)) = false := by simp [hne]
    rw [hvalues, List.lookup_cons, hk]

theorem readIn_record (h : record id form r env s = .ok (u, s')) : ReadIn id form r s s' := by
  cases h
  dsimp only
  split
  · exact ⟨rfl, rfl, .inr rfl⟩
  · exact ⟨rfl, rfl, .inl rfl⟩

/-! ## Integers of 32 bits -/

section Int32

variable {n k : Int32}

/-- Where node `id` is held, and where it is a constant, it is the int32 `n`. -/
structure HoldsInt32 (env : Env) (s : State) (c : Config σ) (id : NodeId) (n : Int32) : Prop where
  narrow : ∀ {r}, heldIn env s id .int32 = some r → c.Has s.builder r .i32 (ofInt32 n)
  boxed : ∀ {r}, heldIn env s id .jsValue = some r →
    ∃ w, c.Has s.builder r .i64 w ∧ Value.isInt32 w = true ∧ Value.unboxInt32 w = n
  constant : ∀ {node k}, env.graph.node id = .ok node → node.op = .jsConstant (.int32 k) → k = n

theorem Holds.holdsInt32 {x : Datum} (hx : Holds env s c id node x) (hn : x.int32? = some n) :
    HoldsInt32 env s c id n where
  narrow hr := by
    obtain ⟨w, hw, hhas⟩ := hx.shown _ _ hr
    rw [Datum.eq_ofInt32_of_int32? hn hw] at hhas
    exact hhas
  boxed hr := by
    obtain ⟨w, hw, hhas⟩ := hx.shown _ _ hr
    exact ⟨w, hhas, Datum.unbox_of_int32? hn hw⟩
  constant {node' k} hnode hop := by
    rw [hx.found] at hnode
    cases hnode
    obtain ⟨-, rfl⟩ := Datum.unbox_of_int32? hn (hx.constant _ (by rw [hop]; rfl))
    exact (Value.unboxInt32_boxInt32 k).symm

/-- Reading one node as an int32 keeps what others are. -/
theorem HoldsInt32.read (h : HoldsInt32 env s c x k) (hread : ReadIn id .int32 r s s')
    (hf : c.Follows s.builder c' s'.builder) (hr : x = id → c'.Has s'.builder r .i32 (ofInt32 k)) :
    HoldsInt32 env s' c' x k where
  narrow hq := by
    rcases hread.heldIn hq with hq | ⟨hid, -, rfl⟩
    · exact (h.narrow hq).later hf
    · exact hr hid
  boxed hq := by
    rcases hread.heldIn hq with hq | ⟨-, hform, -⟩
    · obtain ⟨w, hhas, hw⟩ := h.boxed hq
      exact ⟨w, hhas.later hf, hw⟩
    · cases hform
  constant := h.constant

/-- A constant of another kind than int32. -/
def OtherConstant (env : Env) (id : NodeId) (n : Int32) : Prop :=
  ∃ node w, env.graph.node id = .ok node ∧ node.op.constantWord? = some w ∧
    node.op ≠ .jsConstant (.int32 n)

/-- A use as an int32 leaves, if the node is a constant of another kind or its fact rules out int32,
or gives the int32. -/
theorem asInt32_course (h : asInt32 e env s = .ok (r, s')) (hm : s'.builder.Completes m.func)
    (hc : m.At s.builder c) (hn : HoldsInt32 env s c e.node n) (hvalid : s.facts.valid = true)
    (hdepth : s.armDepth = 0) :
    (m.Leaves s'.builder c ∧ (OtherConstant env e.node n ∨
      ∃ known, s.facts.factOf env.graph e.node = .ok known ∧ known.isNotType .int32 = true)) ∨
    (ReadIn e.node .int32 r s s' ∧
      (s'.facts = s.facts ∨ ∃ known, s.facts.factOf env.graph e.node = .ok known ∧
        known.isType .int32 = false ∧
        known.isNotType .int32 = false ∧ s'.facts = s.facts.narrowTo e.node (known.filter .int32)) ∧
      m.Runs s.builder c s'.builder fun c' => c'.Has s'.builder r .i32 (ofInt32 n)) := by
  rw [asInt32, held?_bind] at h
  cases hint : heldIn env s e.node .int32 with
  | some r₁ =>
    rw [hint] at h
    cases h
    exact .inr ⟨⟨rfl, rfl, .inl rfl⟩, .inl rfl, .refl hc (hn.narrow hint)⟩
  | none =>
  rw [hint] at h
  obtain ⟨node, hnode, h⟩ := getNode_bind_ok h
  -- a constant that is no int32 leaves
  have hbad {w : Word} (h : badConstant env s = .ok (r, s')) (hw : node.op.constantWord? = some w)
      (hne : node.op ≠ .jsConstant (.int32 n)) : m.Leaves s'.builder c ∧ OtherConstant env e.node
        n := by
    obtain ⟨_, s₁, h₁, h₂⟩ := bind_ok h
    have e₁ : s.builder.Emits [] s₁.builder := Tidy.after h₁ (.refl hc.wf)
    have e₂ : s₁.builder.Emits [] s'.builder := Tidy.after h₂ (.refl e₁.after)
    exact ⟨(terminate_leaves h₁ (e₂.toExtends.completes hm) hc hvalid).grow e₂.toExtends, node, w,
      hnode, hw, hne⟩
  -- a boxed value is checked
  have hboxed (h : (do
      if (← held? e.node .jsValue).isNone then missingForm e .int32
      let boxed ← boxedNode e.node
      checkInt32 e.node boxed
      let r ← Emit.truncate boxed
      record e.node .int32 r
      return r : Lower Reg) env s = .ok (r, s')) :
      (m.Leaves s'.builder c ∧ ∃ known, s.facts.factOf env.graph e.node = .ok known ∧
        known.isNotType .int32 = true) ∨
      (ReadIn e.node .int32 r s s' ∧
        (s'.facts = s.facts ∨ ∃ known, s.facts.factOf env.graph e.node = .ok known ∧
          known.isType .int32 = false ∧
          known.isNotType .int32 = false ∧ s'.facts = s.facts.narrowTo e.node (known.filter .int32))
            ∧
        m.Runs s.builder c s'.builder fun c' => c'.Has s'.builder r .i32 (ofInt32 n)) := by
    rw [held?_bind] at h
    cases hj : heldIn env s e.node .jsValue with
    | none => rw [hj] at h; cases h
    | some r₁ =>
      rw [hj] at h
      obtain ⟨w, hr₁, hisInt, hunbox⟩ := hn.boxed hj
      obtain ⟨r₁', s₁, h₁, h⟩ := bind_ok h
      have h₁' : (r₁', s₁) = (r₁, s) := by
        rw [boxedNode, held?_bind, hj] at h₁
        cases h₁
        rfl
      cases h₁'
      obtain ⟨_, s₂, h₂, h⟩ := bind_ok h
      obtain ⟨r₃, b₃, h₃, h⟩ := emit_bind_ok h
      obtain ⟨_, s₄, h₄, h⟩ := bind_ok h
      cases h
      have e₂ : s.builder.Emits [] s₂.builder := Tidy.after h₂ (.refl hc.wf)
      have e₃ := (inferInstance : (Emit.truncate r₁).Tidy).emits _ _ _ e₂.after h₃
      have hb₄ : s'.builder = b₃ := record_builder h₄
      have hm₃ : b₃.Completes m.func := by rw [← hb₄]; exact hm
      obtain ⟨known, s₀, h₀, -⟩ := bind_ok h₂
      obtain ⟨hknown, rfl⟩ := factOf_ok h₀
      have hpasses : Yields m env s₀.builder c (Emit.icmpImm .ult r₁ (wordImm Value.numberTag)) .i32
        (ofBool false) :=
        Yields.congr (.ofEmit (notInt32_yields hr₁)) (by rw [hisInt]; rfl)
      rcases typeCheck_course h₂ (e₃.toExtends.completes hm₃) hc hvalid hdepth hknown hpasses with
        ⟨hfails, hleave⟩ | ⟨hruns, hsame, hfacts⟩
      · rw [hb₄]
        exact .inl ⟨hleave.grow e₃.toExtends, known, hknown, by simpa using hfails⟩
      have hread := readIn_record h₄
      have hfacts₄ : s'.facts = s₂.facts := by
        cases h₄
        dsimp only
        split <;> rfl
      refine .inr ⟨⟨hread.block.trans hsame.block, hread.depth.trans hsame.armDepth, ?_⟩, ?_, ?_⟩
      · have hvalues := hread.values
        dsimp only at hvalues
        rw [hsame.values, hsame.block] at hvalues
        exact hvalues
      · rw [hfacts₄]
        refine hfacts.imp And.right fun hchecked => ⟨known, hknown, hchecked.1, ?_, hchecked.2.2⟩
        rw [← Bool.not_eq_true]
        intro hnot
        refine hruns.not_leaves (typeCheck_ruledOut h₂ (e₃.toExtends.completes hm₃) hc hvalid hdepth
          hknown ?_ hnot)
        simp [hchecked.1]
      · rw [hb₄]
        refine hruns.bind e₂.toExtends e₃.toGrows fun c₂ hc₂ hk₂ _ => ?_
        refine (Emit.truncate_yields (hr₁.keep e₂.toExtends hk₂) (.refl _ _) hc₂ h₃ hm₃).mono
          fun c₃ _ hr₃ => ?_
        rw [← hunbox]
        simpa [ofInt32, Value.unboxInt32] using hr₃
  cases hop : node.op with
  | jsConstant v =>
    rw [hop] at h
    cases v with
    | int32 k =>
      obtain rfl := hn.constant hnode hop
      obtain ⟨b', hb, rfl⟩ := emit_ok h
      have hruns := Emit.int32_yields (m := m) k.toInt (.refl c _) hc hb hm
      rw [Int32.ofInt_toInt] at hruns
      exact .inr ⟨⟨rfl, rfl, .inl rfl⟩, .inl rfl, hruns⟩
    | _ => exact .inl ((hbad h (by rw [hop]; rfl) (by simp [hop])).imp_right .inl)
  | doubleConstant _ =>
    rw [hop] at h; exact .inl ((hbad h (by rw [hop]; rfl) (by simp [hop])).imp_right .inl)
  | int52Constant _ =>
    rw [hop] at h; exact .inl ((hbad h (by rw [hop]; rfl) (by simp [hop])).imp_right .inl)
  | _ => rw [hop] at h; exact (hboxed h).imp_left (And.imp_right .inr)

/-- A use as an int32 leaves, or gives the int32. -/
theorem asInt32_runs {x : Datum} (h : asInt32 e env s = .ok (r, s'))
    (hm : s'.builder.Completes m.func) (hc : m.At s.builder c) (hx : Holds env s c e.node node x)
    (hn : x.int32? = some n) (hvalid : s.facts.valid = true) (hdepth : s.armDepth = 0) :
    m.Leaves s'.builder c ∨ (s'.armDepth = 0 ∧ s'.block = s.block ∧
      m.Runs s.builder c s'.builder fun c' => c'.Has s'.builder r .i32 (ofInt32 n)) :=
  (asInt32_course h hm hc (hx.holdsInt32 hn) hvalid hdepth).imp And.left fun ⟨hread, _, hruns⟩ =>
    ⟨hread.depth.trans hdepth, hread.block, hruns⟩

/-- Node `id` is the int32 `n`, also as a constant, and what is known of it is true. -/
structure IsInt32 (env : Env) (s : State) (c : Config σ) (id : NodeId) (n : Int32) :
    Prop extends HoldsInt32 env s c id n where
  noOther : ¬ OtherConstant env id n
  known : ∃ known, s.facts.factOf env.graph id = .ok known ∧ known.Describes (.ofInt32 n)

/-- A node that is held boxed only. -/
theorem IsInt32.ofBoxed (hnode : env.graph.node id = .ok node) (hop : node.op.constantWord? = none)
    (hheld : ∀ form, heldIn env s id form = if form = .jsValue then some r else none)
    (hr : c.Has s.builder r .i64 (Value.boxInt32 n))
    (hknown : ∃ known, s.facts.factOf env.graph id = .ok known ∧ known.Describes (.ofInt32 n)) :
    IsInt32 env s c id n where
  narrow hq := by simp [hheld] at hq
  boxed hq := by
    obtain rfl : r = _ := by simpa [hheld] using hq
    exact ⟨_, hr, Value.isInt32_boxInt32 n, Value.unboxInt32_boxInt32 n⟩
  constant hnode' hconst := by
    rw [hnode] at hnode'
    cases hnode'
    rw [hconst] at hop
    cases hop
  noOther := by
    rintro ⟨node', w, hnode', hw, -⟩
    rw [hnode] at hnode'
    cases hnode'
    rw [hop] at hw
    cases hw
  known := hknown

/-- A node that is read as an int32 is one int32 only. -/
theorem IsInt32.unique (h : asInt32 e env s = .ok (r, s')) (hn : IsInt32 env s c e.node n)
    (hk : IsInt32 env s c e.node k) :
    k = n := by
  rw [asInt32, held?_bind] at h
  cases hint : heldIn env s e.node .int32 with
  | some q =>
    have hword : ofInt32 k = ofInt32 n :=
      Option.some.inj (Option.some.inj ((hk.narrow hint).value.symm.trans (hn.narrow hint).value))
    rw [← low32_ofInt32 k, hword, low32_ofInt32]
  | none =>
    rw [hint] at h
    obtain ⟨node, hnode, h⟩ := getNode_bind_ok h
    cases hconst : node.op.constantWord? with
    | some w =>
      by_cases hop : node.op = .jsConstant (.int32 n)
      · exact (hk.constant hnode hop).symm
      · exact absurd ⟨node, w, hnode, hconst, hop⟩ hn.noOther
    | none =>
      cases hboxed : heldIn env s e.node .jsValue with
      | some q =>
        obtain ⟨w, hw, -, rfl⟩ := hn.boxed hboxed
        obtain ⟨w', hw', -, rfl⟩ := hk.boxed hboxed
        rw [Option.some.inj (Option.some.inj (hw'.value.symm.trans hw.value))]
      | none =>
        have hmissing (h : (do
            if (← held? e.node .jsValue).isNone then missingForm e .int32
            let boxed ← boxedNode e.node
            checkInt32 e.node boxed
            let r ← Emit.truncate boxed
            record e.node .int32 r
            return r : Lower Reg) env s = .ok (r, s')) : k = n := by
          rw [held?_bind, hboxed] at h
          cases h
        cases hop : node.op with
        | jsConstant | doubleConstant | int52Constant => rw [hop] at hconst; cases hconst
        | _ => rw [hop] at h; exact hmissing h

/-- A use of an int32 as one gives the int32, and what else is an int32 stays so. -/
theorem asInt32_reads (h : asInt32 e env s = .ok (r, s')) (hm : s'.builder.Completes m.func)
    (hc : m.At s.builder c) (hn : IsInt32 env s c e.node n) (hvalid : s.facts.valid = true)
    (hdepth : s.armDepth = 0) :
    ReadIn e.node .int32 r s s' ∧ s'.facts.valid = true ∧ m.Runs s.builder c s'.builder fun c' =>
      c'.Has s'.builder r .i32 (ofInt32 n) ∧ ∀ {x k}, (x = e.node → k = n) → IsInt32 env s c x k →
        IsInt32 env s' c' x k := by
  obtain ⟨known, hknown, hdesc⟩ := hn.known
  have hmask := SpecType.ofInt32_subset n
  rcases asInt32_course h hm hc hn.toHoldsInt32 hvalid hdepth
    with ⟨-, hother | ⟨known', hknown', hnot⟩⟩ | ⟨hread, hfacts, hruns⟩
  · exact absurd hother hn.noOther
  · obtain rfl : known = known' := Except.ok.inj (hknown.symm.trans hknown')
    have hover := SpecType.overlaps_of_subset hdesc.inhabited hdesc.allowed hmask
    simp [AbstractValue.isNotType, hover] at hnot
  · obtain ⟨hvalid', hdesc', hothers⟩ := AbstractState.narrowed_describes hvalid hknown hdesc hmask
      (hfacts.imp_right (Exists.imp fun _ hnarrow => ⟨hnarrow.1, hnarrow.2.2.2⟩))
    have e₁ : s.builder.Emits [] s'.builder := Tidy.after h (.refl hc.wf)
    refine ⟨hread, hvalid', hruns.mono fun c' hk hr => ⟨hr, fun {x k} hsame hx => ?_⟩⟩
    refine ⟨hx.toHoldsInt32.read hread ⟨e₁.toExtends, hk⟩ fun hid =>
      by rw [hsame hid]; exact hr, hx.noOther, ?_⟩
    by_cases hid : x = e.node
    · subst hid
      rw [hsame rfl]
      exact hdesc'
    · rw [hothers x hid]
      exact hx.known

end Int32

/-! ## Integers of 52 bits -/

section Int52

variable {n k : Int64}

/-- Node `id` is the integer `n` of 52 bits, where it is held and where it is a constant. -/
structure IsInt52 (env : Env) (s : State) (c : Config σ) (id : NodeId) (n : Int64) : Prop where
  range : Value.isInt52 n = true
  strict : ∀ {r}, heldIn env s id .strictInt52 = some r → c.Has s.builder r .i64 n.toUInt64
  shifted : ∀ {r}, heldIn env s id .int52 = some r → c.Has s.builder r .i64 (Value.shiftInt52 n)
  narrow : ∀ {r}, heldIn env s id .int32 = some r → ∃ k : Int32, k.toInt64 = n ∧
    c.Has s.builder r .i32 (ofInt32 k)
  constant : ∀ {node k}, env.graph.node id = .ok node → node.op = .int52Constant k → k = n
  constant32 : ∀ {node} {k : Int32}, env.graph.node id = .ok node →
    node.op = .jsConstant (.int32 k) → k.toInt64 = n

/-- A node that is held shifted only. -/
theorem IsInt52.ofShifted (hn : Value.isInt52 n = true) (hnode : env.graph.node id = .ok node)
    (hop : node.op.constantWord? = none)
    (hheld : ∀ form, heldIn env s id form = if form = .int52 then some r else none)
    (hr : c.Has s.builder r .i64 (Value.shiftInt52 n)) : IsInt52 env s c id n where
  range := hn
  strict hq := by simp [hheld] at hq
  shifted hq := by
    obtain rfl : r = _ := by simpa [hheld] using hq
    exact hr
  narrow hq := by simp [hheld] at hq
  constant hnode' hconst := by
    rw [hnode] at hnode'
    cases hnode'
    rw [hconst] at hop
    cases hop
  constant32 hnode' hconst := by
    rw [hnode] at hnode'
    cases hnode'
    rw [hconst] at hop
    cases hop

/-- Reading one node as an integer of 52 bits keeps what others are. -/
theorem IsInt52.read (h : IsInt52 env s c x k) (hread : ReadIn id form r s s')
    (hf : c.Follows s.builder c' s'.builder) (hform : form ≠ .int32)
    (hstrict : x = id → form = .strictInt52 → c'.Has s'.builder r .i64 k.toUInt64)
    (hshifted : x = id → form = .int52 → c'.Has s'.builder r .i64 (Value.shiftInt52 k)) :
    IsInt52 env s' c' x k where
  range := h.range
  strict hq := by
    rcases hread.heldIn hq with hq | ⟨hid, hform, rfl⟩
    · exact (h.strict hq).later hf
    · exact hstrict hid hform.symm
  shifted hq := by
    rcases hread.heldIn hq with hq | ⟨hid, hform, rfl⟩
    · exact (h.shifted hq).later hf
    · exact hshifted hid hform.symm
  narrow hq := by
    rcases hread.heldIn hq with hq | ⟨-, hform', -⟩
    · obtain ⟨i, hi, hhas⟩ := h.narrow hq
      exact ⟨i, hi, hhas.later hf⟩
    · exact absurd hform'.symm hform
  constant := h.constant
  constant32 := h.constant32

theorem sshr_shiftInt52 (h : Value.isInt52 n = true) :
    Ty.normalize .i64 (BinaryOp.sshr.eval .i64 (Value.shiftInt52 n)
      (Ty.normalize .i64 (Int64.ofInt Value.int52Shift).toUInt64)) =
      n.toUInt64 := congrArg Int64.toUInt64 (Value.shiftInt52_sshr h)

/-- The code and the records for a use as an integer of 52 bits as it is. Nothing is recorded unless
it is held shifted. -/
theorem asStrictInt52_course (h : asStrictInt52 e env s = .ok (r, s'))
    (hm : s'.builder.Completes m.func) (hc : m.At s.builder c) (hn : IsInt52 env s c e.node n) :
    ReadIn e.node .strictInt52 r s s' ∧ (heldIn env s e.node .int52 = none → s'.values = s.values) ∧
      m.Runs s.builder c s'.builder fun c' => c'.Has s'.builder r .i64 n.toUInt64 := by
  rw [asStrictInt52, held?_bind] at h
  cases hs : heldIn env s e.node .strictInt52 with
  | some r₁ =>
    rw [hs] at h
    cases h
    exact ⟨⟨rfl, rfl, .inl rfl⟩, fun _ => rfl, .refl hc (hn.strict hs)⟩
  | none =>
  rw [hs] at h
  dsimp only at h
  rw [held?_bind] at h
  cases hi : heldIn env s e.node .int52 with
  | some r₁ =>
    rw [hi] at h
    obtain ⟨r₂, b₂, h₂, h⟩ := emit_bind_ok h
    obtain ⟨_, s₃, h₃, h⟩ := bind_ok h
    cases h
    have hread := readIn_record h₃
    refine ⟨⟨hread.block, hread.depth, hread.values⟩, by simp, ?_⟩
    rw [record_builder h₃] at hm ⊢
    exact (Emit.binaryImm_yields (hn.shifted hi)).congr (sshr_shiftInt52 hn.range) (.refl c _) hc h₂
      hm
  | none =>
  rw [hi] at h
  suffices hreads : ReadIn e.node .strictInt52 r s s' ∧ s'.values = s.values ∧
      m.Runs s.builder c s'.builder fun c' => c'.Has s'.builder r .i64 n.toUInt64 from ⟨hreads.1,
        fun _ => hreads.2.1, hreads.2.2⟩
  obtain ⟨node, hnode, h⟩ := getNode_bind_ok h
  -- code that is added without a record
  have hemit {x : Emit Reg} {w : Word} (hx : x.Yields m s.builder c .i64 w) (hw : w = n.toUInt64)
      (h : (liftM x : Lower Reg) env s = .ok (r, s')) :
      ReadIn e.node .strictInt52 r s s' ∧ s'.values = s.values ∧
        m.Runs s.builder c s'.builder fun c' => c'.Has s'.builder r .i64 n.toUInt64 := by
    obtain ⟨b', hb, rfl⟩ := emit_ok h
    exact ⟨⟨rfl, rfl, .inl rfl⟩, rfl, (hx.congr hw) (.refl c _) hc hb hm⟩
  -- an int32 is extended
  have hnarrow {r₁ : Reg} (hj : heldIn env s e.node .int32 = some r₁)
      (h : (liftM (Emit.signExtend r₁) : Lower Reg) env s = .ok (r, s')) :
      ReadIn e.node .strictInt52 r s s' ∧ s'.values = s.values ∧
        m.Runs s.builder c s'.builder fun c' => c'.Has s'.builder r .i64 n.toUInt64 := by
    obtain ⟨k, rfl, hhas⟩ := hn.narrow hj
    exact hemit (Emit.signExtend_yields hhas) (by simp [extend]) h
  cases hop : node.op with
  | int52Constant k =>
    rw [hop] at h
    obtain rfl := hn.constant hnode hop
    exact hemit (Emit.iconst_yields _) (by simp) h
  | jsConstant v =>
    rw [hop] at h
    cases v with
    | int32 k =>
      obtain rfl := hn.constant32 hnode hop
      exact hemit (Emit.iconst_yields _) (by simp) h
    | _ =>
      dsimp only at h
      rw [held?_bind] at h
      cases hj : heldIn env s e.node .int32 with
      | none => rw [hj] at h; cases h
      | some r₁ => rw [hj] at h; exact hnarrow hj h
  | _ =>
    rw [hop] at h
    dsimp only at h
    rw [held?_bind] at h
    cases hj : heldIn env s e.node .int32 with
    | none => rw [hj] at h; cases h
    | some r₁ => rw [hj] at h; exact hnarrow hj h

/-- A use as an integer of 52 bits gives the integer as it is. -/
theorem asStrictInt52_reads (h : asStrictInt52 e env s = .ok (r, s'))
    (hm : s'.builder.Completes m.func) (hc : m.At s.builder c) (hn : IsInt52 env s c e.node n) :
    ReadIn e.node .strictInt52 r s s' ∧ m.Runs s.builder c s'.builder fun c' =>
      c'.Has s'.builder r .i64 n.toUInt64 ∧ ∀ {x k}, (x = e.node → k = n) → IsInt52 env s c x k →
        IsInt52 env s' c' x k := by
  obtain ⟨hread, -, hruns⟩ := asStrictInt52_course h hm hc hn
  have e₁ : s.builder.Emits [] s'.builder := Tidy.after h (.refl hc.wf)
  refine ⟨hread, hruns.mono fun c' hk hr => ⟨hr, fun hsame hx => ?_⟩⟩
  exact hx.read hread ⟨e₁.toExtends, hk⟩ nofun (fun hid _ => by rw [hsame hid]; exact hr)
    fun _ => nofun

/-- A use as an integer of 52 bits gives the integer shifted left. -/
theorem asInt52_reads (h : asInt52 e env s = .ok (r, s')) (hm : s'.builder.Completes m.func)
    (hc : m.At s.builder c) (hn : IsInt52 env s c e.node n) :
    ReadIn e.node .int52 r s s' ∧ m.Runs s.builder c s'.builder fun c' =>
      c'.Has s'.builder r .i64 (Value.shiftInt52 n) ∧
        ∀ {x k}, (x = e.node → k = n) → IsInt52 env s c x k → IsInt52 env s' c' x k := by
  have e₀ : s.builder.Emits [] s'.builder := Tidy.after h (.refl hc.wf)
  suffices hreads : ReadIn e.node .int52 r s s' ∧ m.Runs s.builder c s'.builder fun c' =>
      c'.Has s'.builder r .i64 (Value.shiftInt52 n) by
    obtain ⟨hread, hruns⟩ := hreads
    refine ⟨hread, hruns.mono fun c' hk hr => ⟨hr, fun hsame hx => ?_⟩⟩
    exact hx.read hread ⟨e₀.toExtends, hk⟩ nofun (fun _ => nofun) fun hid _ => by
      rw [hsame hid]
      exact hr
  rw [asInt52, held?_bind] at h
  cases hi : heldIn env s e.node .int52 with
  | some r₁ =>
    rw [hi] at h
    cases h
    exact ⟨⟨rfl, rfl, .inl rfl⟩, .refl hc (hn.shifted hi)⟩
  | none =>
    rw [hi] at h
    obtain ⟨strict, s₁, h₁, h⟩ := bind_ok h
    obtain ⟨r₂, b₂, h₂, h⟩ := emit_bind_ok h
    obtain ⟨_, s₃, h₃, h⟩ := bind_ok h
    cases h
    have e₁ : s.builder.Emits [] s₁.builder := Tidy.after h₁ (.refl hc.wf)
    have e₂ := (inferInstance : (Emit.binaryImm .shl strict Value.int52Shift).Tidy).emits _ _ _
      e₁.after h₂
    have hread := readIn_record h₃
    rw [record_builder h₃] at hm ⊢
    obtain ⟨hread₁, hvalues₁, hruns₁⟩ := asStrictInt52_course h₁ (e₂.toExtends.completes hm) hc hn
    refine ⟨⟨hread.block.trans hread₁.block, hread.depth.trans hread₁.depth, ?_⟩, ?_⟩
    · have hvalues := hread.values
      dsimp only at hvalues
      rw [hvalues₁ hi, hread₁.block] at hvalues
      exact hvalues
    · refine hruns₁.bind e₁.toExtends e₂.toGrows fun c₁ hc₁ _ hstrict => ?_
      refine (Emit.binaryImm_yields hstrict).congr ?_ (.refl _ _) hc₁ h₂ hm
      rw [Ty.normalize_i64, Ty.normalize_i64, Value.shiftInt52]
      simp [BinaryOp.eval, binary64]
      rfl

end Int52

end Lowering

end SpecJit
