import SpecJit.Proofs.Lowering.Butterflies
import SpecJit.Proofs.Lowering.MachineInt

/-!
# Values that arrays store

An array of int32 stores boxed int32, an array of doubles raw ones, and one of values words. A use
whose value the array can hold is read as the word that is stored for it
(`butterflyStoreValue_used`).
-/

namespace SpecJit

open Lir

/-- The number that a constant is. -/
def Op.constantDouble? : Op → Option Double
  | .doubleConstant d => some d
  | .int52Constant n => some (Double.ofInt n.toInt)
  | .jsConstant v => v.asNumber?
  | _ => none

namespace Lowering

variable {σ : Type} {m : Machine σ} {c : Config σ} {env : Env} {s s' : State} {e : Edge} {r : Reg}
  {d : Double} {arrayType : ArrayType}

/-! ## Doubles -/

/-- A used double: what the node is held in shows it, and it gets through the check of the use. -/
structure IsDouble (env : Env) (s : State) (c : Config σ) (e : Edge) (d : Double) : Prop where
  held : ∀ {r}, heldIn env s e.node .double = some r → c.Has s.builder r .f64 d.bits
  narrow : ∀ {r}, heldIn env s e.node .int32 = some r →
    ∃ n : Int32, d = Double.ofInt n.toInt ∧ c.Has s.builder r .i32 (ofInt32 n)
  constant : ∀ {node d'}, env.graph.node e.node = .ok node → node.op.constantDouble? = some d' →
    d' = d
  checked : ∃ known, s.facts.factOf env.graph e.node = .ok known ∧
    (e.useKind = .doubleRepReal → known.isNotType .doubleReal = false ∧ d.isNaN = false) ∧
    (e.useKind = .doubleRepMachineInt → known.isNotType .int52AsDouble = false ∧
      (Value.doubleAsInt52? d).isSome = true)

/-- An integer is read as a double. -/
theorem narrow_used (h : (do
      match ← held? e.node .int32 with
      | some narrow => Emit.intToDouble true narrow
      | none =>
        missingForm e .double : Lower Reg) env s = .ok (r, s')) (hm : s'.builder.Completes m.func)
          (hc : m.At s.builder c)
    (hx : IsDouble env s c e d) :
    SameButCode s s' ∧ m.Runs s.builder c s'.builder fun c' => c'.Has s'.builder r .f64 d.bits := by
  rw [held?_bind] at h
  cases hn : heldIn env s e.node .int32 with
  | none => rw [hn] at h; cases h
  | some q =>
    rw [hn] at h
    obtain ⟨n, rfl, hhas⟩ := hx.narrow hn
    obtain ⟨b', hb, rfl⟩ := emit_ok h
    refine ⟨⟨rfl, rfl, rfl, rfl, rfl, rfl, rfl, rfl⟩, ?_⟩
    exact (Emit.intToDouble_yields hhas).congr (by simp [intToDouble]) (.refl c _) hc hb hm

/-- A node is read as a double. -/
theorem doubleOf_used (h : doubleOf e env s = .ok (r, s')) (hm : s'.builder.Completes m.func)
    (hc : m.At s.builder c) (hx : IsDouble env s c e d) :
    SameButCode s s' ∧ m.Runs s.builder c s'.builder fun c' => c'.Has s'.builder r .f64 d.bits := by
  have hconst {d' : Double} (h : (liftM (Emit.fconst d') : Lower Reg) env s = .ok (r, s'))
    (hd : d' = d) :
      SameButCode s s' ∧ m.Runs s.builder c s'.builder fun c' =>
        c'.Has s'.builder r .f64 d.bits := by
    subst hd
    obtain ⟨b', hb, rfl⟩ := emit_ok h
    exact ⟨⟨rfl, rfl, rfl, rfl, rfl, rfl, rfl, rfl⟩, Emit.fconst_yields d' (.refl c _) hc hb hm⟩
  rw [doubleOf, held?_bind] at h
  cases hr : heldIn env s e.node .double with
  | some q =>
    rw [hr] at h
    cases h
    exact ⟨.refl s, .refl hc (hx.held hr)⟩
  | none =>
  rw [hr] at h
  obtain ⟨node, hnode, h⟩ := getNode_bind_ok h
  have hfrom {d' : Double} (hd : node.op.constantDouble? = some d') : d' = d := hx.constant hnode hd
  cases hop : node.op with
  | doubleConstant d' => rw [hop] at h; exact hconst h (hfrom (by rw [hop]; rfl))
  | int52Constant n => rw [hop] at h; exact hconst h (hfrom (by rw [hop]; rfl))
  | jsConstant v =>
    rw [hop] at h
    cases hv : v.asNumber? with
    | none => simp only [hv] at h; cases h
    | some d' => simp only [hv] at h; exact hconst h (hfrom (by rw [hop]; exact hv))
  | _ => rw [hop] at h; exact narrow_used h hm hc hx

/-- A double that gets through its check is read. -/
theorem asDouble_used (h : asDouble e env s = .ok (r, s')) (hm : s'.builder.Completes m.func)
    (hc : m.At s.builder c) (hx : IsDouble env s c e d) (hvalid : s.facts.valid = true)
    (hdepth : s.armDepth = 0) :
    s'.armDepth = 0 ∧ s'.block = s.block ∧ s'.values = s.values ∧
      m.Runs s.builder c s'.builder fun c' => c'.Has s'.builder r .f64 d.bits := by
  obtain ⟨r', s₁, h₁, h⟩ := bind_ok h
  obtain ⟨known, hknown, hreal, hmachine⟩ := hx.checked
  have e₁ : s.builder.Emits [] s₁.builder := Tidy.after h₁ (.refl hc.wf)
  have hcheck {mask : SpecType} {failing : Emit Reg} [failing.Tidy]
      (h : (do typeCheck e.node mask .badType none failing; return r' : Lower Reg) env s₁ = .ok (r,
        s'))
      (hnot : known.isNotType mask = false) (hpass : ∀ {b c'}, c'.Has b r' .f64 d.bits →
        failing.Yields m b c' .i32 (ofBool false)) :
      s'.armDepth = 0 ∧ s'.block = s.block ∧ s'.values = s.values ∧
        m.Runs s.builder c s'.builder fun c' => c'.Has s'.builder r .f64 d.bits := by
    obtain ⟨_, s₂, h₂, h⟩ := bind_ok h
    cases h
    have e₂ : s₁.builder.Emits [] s'.builder := Tidy.after h₂ (.refl e₁.after)
    obtain ⟨hsame, c₁, hgoes₁, hc₁, hk₁, hr⟩ := doubleOf_used h₁ (e₂.toExtends.completes hm) hc hx
    have hruns₁ : m.Runs s.builder c s₁.builder (· = c₁) := ⟨c₁, hgoes₁, hc₁, hk₁, rfl⟩
    rcases typeCheck_course h₂ hm hc₁ (by rw [hsame.facts]; exact hvalid)
      (hsame.armDepth.trans hdepth)
      (by rw [hsame.facts]; exact hknown) (.ofEmit (hpass hr)) with ⟨hfails, -⟩ | ⟨hruns₂, hsame₂,
        -⟩
    · simp [hnot] at hfails
    · refine ⟨hsame₂.armDepth.trans (hsame.armDepth.trans hdepth), hsame₂.block.trans hsame.block,
        hsame₂.values.trans hsame.values, ?_⟩
      refine hruns₁.bind e₁.toExtends e₂.toGrows fun c' _ _ hc' => ?_
      subst hc'
      exact hruns₂.mono fun c₂ hk₂ _ => hr.keep e₂.toExtends hk₂
  have hnone (h : (pure r' : Lower Reg) env s₁ = .ok (r, s')) : s'.armDepth = 0 ∧
    s'.block = s.block ∧ s'.values = s.values ∧
      m.Runs s.builder c s'.builder fun c' => c'.Has s'.builder r .f64 d.bits := by
    cases h
    obtain ⟨hsame, hruns⟩ := doubleOf_used h₁ hm hc hx
    exact ⟨hsame.armDepth.trans hdepth, hsame.block, hsame.values, hruns⟩
  by_cases hr : e.useKind = .doubleRepReal
  · rw [hr] at h
    obtain ⟨hnot, hnan⟩ := hreal hr
    exact hcheck h hnot fun hd => (Emit.fcmp_yields hd hd).congr (by simp [FloatCC.eval, hnan])
  by_cases hi : e.useKind = .doubleRepMachineInt
  · rw [hi] at h
    obtain ⟨hnot, hsome⟩ := hmachine hi
    exact hcheck h hnot fun hd => (isNotInt52_yields hd).congr (by simp [hsome])
  cases hk : e.useKind <;> rw [hk] at h hr hi <;> first
    | exact absurd rfl hr
    | exact absurd rfl hi
    | exact hnone h

/-! ## The stored word -/

/-- A use whose value an array of the type can hold. `P` says which words are stored for it. -/
inductive Storable (env : Env) (s : State) (c : Config σ) (e : Edge) :
    ArrayType → (Word → Prop) → Prop
  | int32 {n : Int32} (h : IsInt32 env s c e.node n) : Storable env s c e .int32
    (· = Value.boxInt32 n)
  | double {d : Double} (h : IsDouble env s c e d) (hnan : d.isNaN = false) : Storable env s c e
    .double (· = d.bits)
  | contiguous {x : Datum} (h : Used env s c e x) (hempty : ∀ ty, ¬ x.BoxesTo ty Value.empty) :
      Storable env s c e .contiguous fun w => ∃ ty, x.BoxesTo ty w

/-- What is stored is no hole. -/
theorem Storable.not_isHole {P : Word → Prop} {w : Word} (h : Storable env s c e arrayType P)
    (hw : P w) :
    Butterfly.isHole (arrayType == .double) w = false := by
  cases h with
  | int32 h =>
    rw [hw]
    refine beq_eq_false_iff_ne.2 fun heq => ?_
    have hint := Value.isInt32_boxInt32 (by assumption)
    rw [heq] at hint
    cases hint
  | double h hnan =>
    rw [hw]
    exact hnan
  | contiguous h hempty =>
    obtain ⟨ty, hw⟩ := hw
    refine beq_eq_false_iff_ne.2 fun heq => hempty ty ?_
    rw [← heq]
    exact hw

/-- A value that the array can hold is read as the word that is stored for it. -/
theorem butterflyStoreValue_used {P : Word → Prop}
    (h : butterflyStoreValue e arrayType env s = .ok (r, s')) (hm : s'.builder.Completes m.func)
    (hc : m.At s.builder c) (hx : Storable env s c e arrayType P) (hvalid : s.facts.valid = true)
    (hdepth : s.armDepth = 0) (hbox : m.BoxesInt52 c.memory) :
    ∃ w, P w ∧ s'.armDepth = 0 ∧ (∀ {k q}, heldIn env s k .storage = some q →
      heldIn env s' k .storage = some q) ∧
      m.Runs s.builder c s'.builder fun c' =>
        c'.Has s'.builder r (Butterfly.type (arrayType == .double)) w := by
  cases hx with
  | int32 hn =>
    obtain ⟨r₁, s₁, h₁, h⟩ := bind_ok h
    obtain ⟨b₂, h₂, rfl⟩ := emit_ok h
    have e₁ : s.builder.Emits [] s₁.builder := Tidy.after h₁ (.refl hc.wf)
    have e₂ := (inferInstance : (boxInt32 r₁).Tidy).emits _ _ _ e₁.after h₂
    obtain ⟨hread, -, hruns⟩ := asInt32_reads h₁ (e₂.toExtends.completes hm) hc hn hvalid hdepth
    refine ⟨_, rfl, hread.depth.trans hdepth,
      fun {k q} hheld => (hread.heldIn_of_ne (by decide)).trans hheld, ?_⟩
    refine hruns.bind e₁.toExtends e₂.toGrows fun c₁ hc₁ _ ⟨hr, _⟩ => ?_
    exact (boxInt32_yields hr).congr (by rw [low32_ofInt32]) (.refl _ _) hc₁ h₂ hm
  | double hd hnan =>
    obtain ⟨r₁, s₁, h₁, h⟩ := bind_ok h
    obtain ⟨ty, s₂, h₂, hrest⟩ := bind_ok h
    obtain rfl : s₁ = s₂ := (typeOfNode_same h₂).symm
    dsimp only at hrest
    have e₁ : s.builder.Emits [] s₁.builder := Tidy.after h₁ (.refl hc.wf)
    have e₂ : s₁.builder.Emits [] s'.builder := Tidy.after hrest (.refl e₁.after)
    obtain ⟨hdepth₁, hblock₁, hvalues₁, hruns⟩ :=
      asDouble_used h₁ (e₂.toExtends.completes hm) hc hd hvalid hdepth
    have hheld {s₃ : State} (hsame : SameButCode s₁ s₃) {k q}
      (hheld : heldIn env s k .storage = some q) :
        heldIn env s₃ k .storage = some q := by
      rw [← hheld, heldIn, heldIn, hsame.values, hsame.block, hvalues₁, hblock₁]
    refine ⟨_, rfl, ?_⟩
    split at hrest
    · obtain ⟨r₃, b₃, h₃, hrest⟩ := emit_bind_ok hrest
      obtain ⟨_, s₄, h₄, hrest⟩ := bind_ok hrest
      cases hrest
      have e₃ := (inferInstance : (isNaN _).Tidy).emits _ _ _ e₁.after h₃
      have e₄ : b₃.Emits [] s'.builder := Tidy.after h₄ (.refl e₃.after)
      have hsame₁ : SameButCode s₁ { s₁ with builder := b₃ } :=
        ⟨rfl, rfl, rfl, rfl, rfl, rfl, rfl, rfl⟩
      have hsame := hsame₁.trans (Quiet.same _ _ _ _ h₄)
      refine ⟨hsame.armDepth.trans hdepth₁, hheld hsame, hruns.bind e₁.toExtends e₂.toGrows
        fun c₁ hc₁ _ hr => ?_⟩
      -- the test for NaN fails
      have htest :=
        ((Emit.fcmp_yields hr hr).congr (by simp [FloatCC.eval, hnan] : _ = ofBool false))
          (.refl _ _) hc₁ h₃
        (e₄.toExtends.completes hm)
      refine htest.bind e₃.toExtends e₄.toGrows fun c₂ hc₂ hk₂ ht => ?_
      refine ((speculate_runs h₄ hm hc₂ ht).1 (by decide)).mono fun c₃ hk₃ _ => ?_
      exact (hr.keep e₃.toExtends hk₂).keep e₄.toExtends hk₃
    · cases hrest
      exact ⟨hdepth₁, hheld (.refl _), hruns⟩
  | contiguous hx hempty =>
    obtain ⟨-, hdepth', hblock, ty, w, hw, -, hruns⟩ := asValue_used h hm hc hx hvalid hdepth hbox
    exact ⟨w, ⟨ty, hw⟩, hdepth',
      fun {k q} hheld => ((inferInstance : RecordsOf e.node (asValue e)).heldIn h (.inr rfl)).trans
        hheld,
      hruns⟩

end Lowering

end SpecJit
