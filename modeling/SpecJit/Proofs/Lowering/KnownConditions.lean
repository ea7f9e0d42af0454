import SpecJit.Proofs.Lowering.Admitted
import SpecJit.Proofs.Lowering.Proceeding
import SpecJit.Proofs.Lowering.Truth

/-!
# Conditions that the analysis knows

The analysis tells whether a condition is true by a fact about its operand, and the code by a word
in a register. What the two see agrees if the fact admits the value of the operand. A use that reads
the operand leaves or sees enough of the word (`Admitted.asValue_goes`): of a number that it takes
the kinds, and of any other word what its checks tell. So the flag of a condition that is known is
as the analysis says, unless the code leaves (`truth_known`).
-/

namespace SpecJit.Lowering

open Lir

variable {σ : Type} {m : Machine σ} {c c' : Config σ} {env : Env} {s s' s₁ : State} {id : NodeId}
  {node : Node} {x : Datum} {known v : AbstractValue} {e : Edge} {r value : Reg} {w u : Word}
  {k : Unit} {mask : SpecType} {kind : ExitKind} {t : Bool} {ty ty' : Ty}

/-! ## Checks of numbers -/

/-- A check that numbers do not pass leaves. Any other one leaves or goes on; if it narrows the
fact, that is for kinds of it. -/
theorem typeCheck_number {profile : Option Reg} {failing : Lower Reg} [Tidy failing] [Quiet failing]
    (h : typeCheck id mask kind profile failing env s = .ok (k, s'))
    (hm : s'.builder.Completes m.func) (hc : m.At s.builder c) (hvalid : s.facts.valid = true)
    (hdepth : s.armDepth = 0) (hknown : s.facts.factOf env.graph id = .ok known)
    (hover : known.ty.overlaps .fullNumber = true)
    (hy : Yields m env s.builder c failing .i32 (ofBool t))
    (ht : mask.overlaps .fullNumber = false → t = true) :
    m.Leaves s'.builder c ∨ mask.overlaps .fullNumber = true ∧ s'.armDepth = 0 ∧
      m.Runs s.builder c s'.builder (fun _ => True) ∧
      (s'.facts = s.facts ∨ known.ty.overlaps mask = true ∧ s'.facts = s.facts.narrowTo id
        (known.filter mask)) := by
  have hmask (hsub : known.isType mask = true) : mask.overlaps .fullNumber = true :=
    SpecType.overlaps_mono hover hsub (SpecType.subset_refl _)
  by_cases hnot : known.isType mask = false ∧ known.isNotType mask = true
  · exact .inl (typeCheck_ruledOut h hm hc hvalid hdepth hknown (by simp [hnot.1]) hnot.2)
  refine (typeCheck_course h hm hc hvalid hdepth hknown hy).imp And.right
    fun ⟨hruns, hsame, hfacts⟩ => ?_
  rcases hfacts with ⟨hsub, hfacts⟩ | ⟨hsub, hpass, hfacts⟩
  · exact ⟨hmask hsub, hsame.armDepth.trans hdepth, hruns, .inl hfacts⟩
  · refine ⟨?_, hsame.armDepth.trans hdepth, hruns, .inr ⟨?_, hfacts⟩⟩
    · rw [← Bool.not_eq_false]
      intro hnone
      rw [ht hnone] at hpass
      cases hpass
    · simpa [AbstractValue.isNotType, hsub] using hnot

/-- The use takes numbers, for all that its kind says, or it checks nothing. -/
def TakesNumbers (e : Edge) : Prop :=
  e.useKind.isProven = true ∨ e.useKind.typeFilter.overlaps .fullNumber = true

/-- What is known behind a use of a number: the use takes numbers, and if its check narrowed the
fact, that was to kinds of numbers, of which the fact has some. -/
def NumberRead (s s' : State) (e : Edge) (known : AbstractValue) : Prop :=
  TakesNumbers e ∧
    (s'.facts = s.facts ∨ ∃ mask, (e.useKind = .int32 ∨ SpecType.bytecodeRealNumber.isSubsetOf
      mask = true) ∧
    known.ty.overlaps mask = true ∧ s'.facts = s.facts.narrowTo e.node (known.filter mask))

/-- The checks of a use of a number leave, or they go on. -/
def NumberChecked (m : Machine σ) (s s' : State) (c : Config σ) (e : Edge) (known : AbstractValue) :
    Prop :=
  m.Leaves s'.builder c ∨ s'.armDepth = 0 ∧ m.Runs s.builder c s'.builder (fun _ => True) ∧
    NumberRead s s' e known

theorem checkUse_number (h : checkUse e value env s = .ok (k, s'))
    (hm : s'.builder.Completes m.func) (hc : m.At s.builder c) (hv : c.Has s.builder value .i64 w)
    (hnumber : Value.isNumber w = true) (hvalid : s.facts.valid = true) (hdepth : s.armDepth = 0)
    (hknown : s.facts.factOf env.graph e.node = .ok known)
    (hover : known.ty.overlaps .fullNumber = true) :
    NumberChecked m s s' c e known := by
  obtain ⟨hcell, hboolean, hother⟩ := Value.tests_of_isNumber hnumber
  -- a use without checks
  have hnone (hk : TakesNumbers e) (h : (pure () : Lower Unit) env s = .ok (k, s')) : NumberChecked
    m s s' c e known := by
    cases h
    exact .inr ⟨hdepth, .refl hc trivial, hk, .inl rfl⟩
  -- a use with one check
  have hone {mask : SpecType} {failing : Lower Reg} [Tidy failing] [Quiet failing] {t : Bool}
      (h : typeCheckValue e.node value mask failing env s = .ok (k, s'))
        (hy : Yields m env s.builder c failing .i32 (ofBool t))
      (ht : mask.overlaps .fullNumber = false ∧ t = true ∨ TakesNumbers e ∧
        mask.overlaps .fullNumber = true ∧
        (e.useKind = .int32 ∨ SpecType.bytecodeRealNumber.isSubsetOf mask = true)) : NumberChecked m
          s s' c e known := by
    refine (typeCheck_number h hm hc hvalid hdepth hknown hover hy fun hno => ?_).imp_right
      fun ⟨hmask, hdepth', hruns, hfacts⟩ => ?_
    · exact (ht.resolve_right fun hyes => by rw [hyes.2.1] at hno; cases hno).2
    · obtain ⟨hk, -, hreal⟩ := ht.resolve_left fun hno => by rw [hno.1] at hmask; cases hmask
      exact ⟨hdepth', hruns, hk, hfacts.imp_right fun hfacts => ⟨mask, hreal, hfacts⟩⟩
  -- a use that checks for cells first
  have hfirst {rest : Lower Unit} [Tidy rest] (h : (checkCell e.node value >>= fun _ => rest) env
    s = .ok (k, s')) :
      m.Leaves s'.builder c := by
    obtain ⟨_, s₁, h₁, h₂⟩ := bind_ok h
    have e₁ : s.builder.Emits [] s₁.builder := Tidy.after h₁ (.refl hc.wf)
    have e₂ : s₁.builder.Emits [] s'.builder := Tidy.after h₂ (.refl e₁.after)
    have hfails : Yields m env s.builder c (do negated (← isCell value)) .i32 (ofBool true) := by
      rw [← Bool.not_false, ← hcell]
      exact .bind (.ofEmit (isCell_yields hv)) fun _ ht => .ofEmit (negated_yields ht)
    rcases typeCheck_number h₁ (e₂.toExtends.completes hm) hc hvalid hdepth hknown hover hfails
      fun _ => rfl with hleave | ⟨hno, -⟩
    · exact hleave.grow e₂.toExtends
    · exact absurd hno (by decide)
  have hnegated {test : Emit Reg} [test.Tidy] {t : Bool} (hy : test.Yields m s.builder c .i32
    (ofBool t)) :
      Yields m env s.builder c (do negated (← test)) .i32 (ofBool !t) :=
    .bind (.ofEmit hy) fun _ ht => .ofEmit (negated_yields ht)
  have htakes (hu : e.useKind.typeFilter.overlaps .fullNumber = true) : TakesNumbers e := .inr hu
  unfold checkUse at h
  cases hu : e.useKind with
  | untyped | knownInt32 | knownBoolean | knownCell | knownString | int52Rep | doubleRep =>
    rw [hu] at h
    exact hnone (.inl (by rw [hu]; rfl)) h
  | doubleRepReal | doubleRepMachineInt =>
    rw [hu] at h
    exact hnone (htakes (by rw [hu]; decide)) h
  | int32 =>
    rw [hu] at h
    exact hone h (.ofEmit (notInt32_yields hv))
      (.inr ⟨htakes (by rw [hu]; decide), by decide, .inl hu⟩)
  | number | machineInt =>
    rw [hu] at h
    exact hone h (hnegated (isNumber_yields hv))
      (.inr ⟨htakes (by rw [hu]; decide), by decide, .inr (by decide)⟩)
  | realNumber =>
    rw [hu] at h
    exact hone h (isNotRealNumber_yields hv)
      (.inr ⟨htakes (by rw [hu]; decide), by decide, .inr (by decide)⟩)
  | notStringVar =>
    rw [hu] at h
    exact hone h (isStringVar_yields hv)
      (.inr ⟨htakes (by rw [hu]; decide), by decide, .inr (by decide)⟩)
  | notCell =>
    rw [hu] at h
    exact hone h (.ofEmit (isCell_yields hv))
      (.inr ⟨htakes (by rw [hu]; decide), by decide, .inr (by decide)⟩)
  | boolean =>
    rw [hu] at h
    exact hone h (hnegated (isBoolean_yields hv)) (.inl ⟨by decide, by rw [hboolean]; rfl⟩)
  | cell =>
    rw [hu] at h
    exact hone h (hnegated (isCell_yields hv)) (.inl ⟨by decide, by rw [hcell]; rfl⟩)
  | other =>
    rw [hu] at h
    exact hone h (hnegated (isOther_yields hv)) (.inl ⟨by decide, by rw [hother]; rfl⟩)
  | misc =>
    rw [hu] at h
    refine hone h (hnegated (isMisc_yields hv)) (.inl ⟨by decide, ?_⟩)
    simp [Value.isMisc, hboolean, hother]
  | objectOrOther =>
    rw [hu] at h
    refine hone h (isNotObjectOrOther_yields hv) (.inl ⟨by decide, ?_⟩)
    simp [hcell, hother]
  | object | function | finalObject | string | stringObject | stringOrStringObject =>
    rw [hu] at h
    exact .inl (hfirst h)
  | stringIdent =>
    rw [hu] at h
    simp only [checkCellType, bind_assoc] at h
    exact .inl (hfirst h)

/-- The checks of a use that sees what the word is leave, or prove what they stand for. -/
theorem checkUse_sees (h : checkUse e value env s = .ok (k, s')) (hm : s'.builder.Completes m.func)
    (hc : m.At s.builder c) (hv : c.Has s.builder value .i64 w)
    (hi : Informed env c.memory s e.node w)
    (ho : e.useKind.isProven = true ∨ Value.overlooked env.layout c.memory w e.useKind = false) :
    m.Leaves s'.builder c ∨ m.Runs s.builder c s'.builder (fun _ => True) ∧ Informed env c.memory s'
      e.node w ∧
      (e.useKind.isProven = true ∨ (Value.kindOf env.layout c.memory w).isSubsetOf
        e.useKind.typeFilter = true) := by
  cases hk : e.useKind.isProven with
  | true =>
    rw [checkUse_unchecked (by simp [Value.checksBoxed, hk])] at h
    cases h
    exact .inr ⟨.refl hc trivial, hi, .inl rfl⟩
  | false =>
    obtain hleaves | ⟨hruns, hi', hmask⟩ :=
      checkUse_checked h hm hc hv hi hk (ho.resolve_left (by simp [hk]))
    · exact .inl hleaves
    · exact .inr ⟨hruns, hi', .inr hmask⟩

/-! ## Uses of boxed values -/

/-- What is known of another word behind a use of it. -/
def OtherRead (env : Env) (memory : Memory) (s' : State) (e : Edge) (w : Word) : Prop :=
  Informed env memory s' e.node w ∧
    (e.useKind.isProven = true ∨ (Value.kindOf env.layout memory w).isSubsetOf
      e.useKind.typeFilter = true)

/-- An operand that is used boxed leaves, or one of its words is in a register. -/
theorem Admitted.asValue_goes (h : asValue e env s = .ok (value, s'))
    (hm : s'.builder.Completes m.func) (hc : m.At s.builder c)
    (hx : Admitted env s c e.node node x known) (hbox : m.BoxesInt52 c.memory)
    (hvalid : s.facts.valid = true)
    (hdepth : s.armDepth = 0) (ho : ∀ {w}, x.Shows .jsValue w → Value.isNumber w = false →
      e.useKind.isProven = true ∨ Value.overlooked env.layout c.memory w e.useKind = false) :
    m.Leaves s'.builder c ∨ ∃ w, x.Shows .jsValue w ∧ s'.armDepth = 0 ∧
      (m.Runs s.builder c s'.builder fun c' => c'.Has s'.builder value .i64 w) ∧
      (Value.isNumber w = true ∧ NumberRead s s' e known ∨ Value.isNumber w = false ∧
        OtherRead env c.memory s' e w) := by
  obtain ⟨w, s₁, c₁, hw, hfacts, hdepth₁, e₁, e₂, hruns₁, hc₁, hf, hr, h₂⟩ :=
    hx.asValue_reads h hm hc hbox
  have hfact₁ : s₁.facts.factOf env.graph e.node = .ok known := by rw [hfacts]; exact hx.fact
  have hvalid₁ : s₁.facts.valid = true := by rw [hfacts]; exact hvalid
  -- what comes after the register is there
  have hleaves (hleave : m.Leaves s'.builder c₁) : m.Leaves s'.builder c :=
    hruns₁.leaves e₂.toExtends fun _ _ _ hc' => hc' ▸ hleave
  have hgoes (hruns : m.Runs s₁.builder c₁ s'.builder fun _ => True) :
      m.Runs s.builder c s'.builder fun c' => c'.Has s'.builder value .i64 w := by
    refine hruns₁.bind e₁.toExtends e₂.toGrows fun c' _ _ hc' => ?_
    subst hc'
    exact hruns.mono fun c₂ hk₂ _ => hr.keep e₂.toExtends hk₂
  cases hnumber : Value.isNumber w with
  | true =>
    rcases checkUse_number h₂ hm hc₁ hr hnumber hvalid₁ (hdepth₁.trans hdepth) hfact₁
      ((hx.admits w hw).overlaps hnumber) with
      hleave | ⟨hdepth', hruns, hread⟩
    · exact .inl (hleaves hleave)
    · rw [NumberRead, hfacts] at hread
      exact .inr ⟨w, hw, hdepth', hgoes hruns, .inl ⟨hnumber, hread⟩⟩
  | false =>
    have hi₁ : Informed env c₁.memory s₁ e.node w :=
      ⟨hvalid₁, hdepth₁.trans hdepth, known, hfact₁,
        by rw [hf.memory]; exact (hx.admits w hw).describes hx.exact hnumber⟩
    rcases checkUse_sees h₂ hm hc₁ hr hi₁ (by rw [hf.memory]; exact ho hw hnumber)
      with hleave | ⟨hruns, hi', hmask⟩
    · exact .inl (hleaves hleave)
    · rw [hf.memory] at hi' hmask
      exact .inr ⟨w, hw, hi'.depth, hgoes hruns, .inr ⟨hnumber, hi', hmask⟩⟩

/-! ## Conditions -/

/-- What is computed from a register. -/
theorem LeavesOrGives.andThen {f : Reg → Lower Reg} {y : Lower Reg} [Tidy y] [∀ r, Tidy (f r)]
    [∀ r, Quiet (f r)]
    (h : (y >>= f) env s = .ok (r, s')) (hm : s'.builder.Completes m.func) (hc : m.At s.builder c)
    {a : Reg} {v' : Word}
    (h₁ : y env s = .ok (a, s₁)) (hy : LeavesOrGives m s s₁ c a ty w)
    (hf : ∀ {c'}, c'.Has s₁.builder a ty w → c'.memory = c.memory → Yields m env s₁.builder c' (f a)
      ty' v') :
    LeavesOrGives m s s' c r ty' v' := by
  rw [bind_of_ok h₁] at h
  have e₁ : s.builder.Emits [] s₁.builder := Tidy.after h₁ (.refl hc.wf)
  have e₂ : s₁.builder.Emits [] s'.builder := Tidy.after h (.refl e₁.after)
  refine hy.imp (fun hleave => hleave.grow e₂.toExtends) fun ⟨hdepth, hruns⟩ => ?_
  refine ⟨(Quiet.same _ _ _ _ h).armDepth.trans hdepth, hruns.bind e₁.toExtends e₂.toGrows
    fun c₁ hc₁ hk ha => ?_⟩
  exact hf ha hk.memory (.refl _ _) hc₁ h hm

/-- The facts behind a use of a number do not mislead the test of its truth, if the number was
known. -/
theorem NumberRead.judged {memory : Memory} (h : NumberRead s s' e known) (hk : e.useKind ≠ .int32)
    (hfact : s.facts.factOf env.graph e.node = .ok known) (hw : known.Admits env.layout memory w)
    (hexact : known.Exact) (hnumber : Value.isNumber w = true) (hconst : ∃ c, known.value = some c)
    :
    ∃ v, s'.facts.factOf env.graph e.node = .ok v ∧ Value.Judged env.layout memory v.ty w := by
  obtain ⟨-, hfacts | ⟨mask, hmask, hover, hfacts⟩⟩ := h
  · exact ⟨known, by rw [hfacts]; exact hfact, Value.judged_of_overlaps (hw.number hnumber)⟩
  · obtain ⟨c, hconst⟩ := hconst
    refine ⟨_, by rw [hfacts]; exact AbstractState.factOf_narrowTo .., ?_⟩
    exact hw.judged_filter hexact hnumber hconst (hmask.resolve_left hk) hover

/-- The flag of a condition that is known is as the analysis says, if the code does not leave. -/
theorem truth_known (h : truth e env s = .ok (r, s')) (hm : s'.builder.Completes m.func)
    (hc : m.At s.builder c)
    (hx : Admitted env s c e.node node x known)
    (hv : ∀ w, x.Shows .jsValue w → v.Admits env.layout c.memory w)
    (hconst : v.value = known.value) (ht : v.conditionTruth? e.useKind = some t)
    (hstring : e.useKind = .knownString → ∀ w, x.Shows .jsValue w →
      (Value.kindOf env.layout c.memory w).isSubsetOf .string = true)
    (hvalid : s.facts.valid = true) (hdepth : s.armDepth = 0)
    (hbox : m.BoxesInt52 c.memory) (htruth : m.TellsTruth env.layout c.memory)
    (hlayout : env.layout.firstObjectTag = CellType.firstObjectTag)
    (hmasq : Cell.OnlyOthersMasquerade env.layout c.memory) :
    LeavesOrGives m s s' c r .i32 (ofBool t) := by
  have htruthy {w : Word} (hw : x.Shows .jsValue w) : Value.truthy env.layout c.memory w = t :=
    AbstractValue.conditionTruth?_eq ht (hv w hw) hmasq
  have hplain {w : Word} (hw : x.Shows .jsValue w) (hn : Value.isNumber w = false) : Value.Plain
    env.layout c.memory w :=
    Value.plain_of_conditionTruth? ht (hv w hw) hn hmasq
  -- the use is read, and the flag is computed from what was read
  have hread {y : Lower Reg} {f : Reg → Lower Reg} [Tidy y] [∀ r, Tidy (f r)]
    (h : (y >>= f) env s = .ok (r, s')) :
      ∃ a s₁, y env s = .ok (a, s₁) ∧ s₁.builder.Completes m.func ∧
        (m.Leaves s₁.builder c → LeavesOrGives m s s' c r .i32 (ofBool t)) := by
    obtain ⟨a, s₁, h₁, h₂⟩ := bind_ok h
    have e₁ : s.builder.Emits [] s₁.builder := Tidy.after h₁ (.refl hc.wf)
    have e₂ : s₁.builder.Emits [] s'.builder := Tidy.after h₂ (.refl e₁.after)
    exact ⟨a, s₁, h₁, e₂.toExtends.completes hm, fun hleave => .inl (hleave.grow e₂.toExtends)⟩
  have hboxed {f : Reg → Lower Reg} [∀ r, Tidy (f r)] [∀ r, Quiet (f r)]
    (h : (asValue e >>= f) env s = .ok (r, s'))
      (hk : e.useKind.isDoubleRep = false) (hf : ∀ {value s₁ c₁ w}, x.Shows .jsValue w →
        (Value.isNumber w = true ∧ NumberRead s s₁ e known ∨ Value.isNumber w = false ∧
          OtherRead env c.memory s₁ e w) →
        c₁.Has s₁.builder value .i64 w → c₁.memory = c.memory → m.At s₁.builder c₁ →
        f value env s₁ = .ok (r, s') →
        m.Runs s₁.builder c₁ s'.builder fun c' =>
          c'.Has s'.builder r .i32 (ofBool (Value.truthy env.layout c.memory w))) :
      LeavesOrGives m s s' c r .i32 (ofBool t) := by
    obtain ⟨value, s₁, h₁, h₂⟩ := bind_ok h
    have e₁ : s.builder.Emits [] s₁.builder := Tidy.after h₁ (.refl hc.wf)
    have e₂ : s₁.builder.Emits [] s'.builder := Tidy.after h₂ (.refl e₁.after)
    rcases hx.asValue_goes h₁ (e₂.toExtends.completes hm) hc hbox hvalid hdepth fun hw hn =>
      .inr ((hplain hw hn).not_overlooked hlayout hk) with hleave | ⟨w, hw, hdepth₁, hruns, hknown⟩
    · exact .inl (hleave.grow e₂.toExtends)
    · refine .inr ⟨(Quiet.same _ _ _ _ h₂).armDepth.trans hdepth₁, ?_⟩
      refine hruns.bind e₁.toExtends e₂.toGrows fun c₁ hc₁ hk₁ hr => ?_
      rw [← htruthy hw]
      exact hf hw hknown hr hk₁.memory hc₁ h₂
  -- a use of cells takes no numbers
  have hno {w : Word} {s₁ : State} (hu : e.useKind.isProven = false)
    (hu' : e.useKind.typeFilter.overlaps .fullNumber = false)
      (h : Value.isNumber w = true ∧ NumberRead s s₁ e known ∨ Value.isNumber w = false ∧
        OtherRead env c.memory s₁ e w) :
      Value.isNumber w = false ∧ (Value.kindOf env.layout c.memory w).isSubsetOf
        e.useKind.typeFilter = true := by
    rcases h with ⟨-, htakes, -⟩ | ⟨hn, -, hmask⟩
    · rcases htakes with htakes | htakes
      · rw [hu] at htakes
        cases htakes
      · rw [hu'] at htakes
        cases htakes
    · exact ⟨hn, hmask.resolve_left (by simp [hu])⟩
  unfold truth at h
  cases hu : e.useKind with
  | boolean | knownBoolean =>
    rw [hu] at h
    rcases hx.asBoolean_reads h hm hc hvalid hdepth with hleave | ⟨w, hw, hboolean, hreaches⟩
    · exact .inl hleave
    · rw [← htruthy hw, Value.truthy_boolean hboolean]
      exact hreaches
  | int32 | knownInt32 =>
    rw [hu] at h
    obtain ⟨a, s₁, h₁, hm₁, hleaves⟩ := hread h
    rcases hx.asInt32_reads h₁ hm₁ hc hvalid hdepth with hleave | ⟨w, hw, hint, hreaches⟩
    · exact hleaves hleave
    · refine hreaches.andThen h hm hc h₁ fun ha _ => .ofEmit ((Emit.ne_zero_int32 ha).congr ?_)
      rw [← htruthy hw, Value.truthy_int32 hint, bne, bne, ← toInt32_beq_zero]
      simp [ofInt32]
  | int52Rep =>
    rw [hu] at h
    obtain ⟨a, s₁, h₁, hm₁, -⟩ := hread h
    obtain ⟨n, w, hw, hrange, hnumber, hreaches⟩ := hx.asStrictInt52_reads h₁ hm₁ hc hdepth
    refine hreaches.andThen h hm hc h₁ fun ha _ => .ofEmit ((Emit.ne_zero_int64 ha).congr ?_)
    rw [← htruthy hw, Value.truthy_number hnumber,
      Double.truthy_ofInt (Value.natAbs_lt_of_isInt52 hrange)]
    congr 1
    rw [Bool.eq_iff_iff, bne_iff_ne, decide_eq_true_iff, Ne, Ne, ← Int64.toInt_zero,
      Int64.toInt_inj]
    exact not_congr
      ⟨fun hn => by rw [← Int64.toInt64_toUInt64 n, hn]; rfl, fun hn => by rw [hn]; rfl⟩
  | doubleRep | doubleRepReal | doubleRepMachineInt =>
    rw [hu] at h
    obtain ⟨a, s₁, h₁, hm₁, hleaves⟩ := hread h
    rcases hx.asDouble_reads h₁ hm₁ hc hvalid hdepth with hleave | ⟨d, w, d', hw, hnumber, hsame,
      hreaches⟩
    · exact hleaves hleave
    · refine hreaches.andThen h hm hc h₁ fun ha _ => .ofEmit ((doubleTruth_yields ha).congr ?_)
      rw [← htruthy hw, Value.truthy_number hnumber, Double.truthy_congr hsame]
  | object | function | finalObject =>
    rw [hu] at h
    refine hboxed h (by rw [hu]; rfl) fun {value s₁ c₁ w} hw hknown hr _ hc₁ h₂ => ?_
    obtain ⟨hn, hkind⟩ := hno (by rw [hu]; rfl) (by rw [hu]; decide) hknown
    have hobject := (hplain hw hn).truthy_object (SpecType.subset_trans hkind (by rw [hu]; rfl))
    exact Yields.ofEmit (Emit.one_yields.congr (by rw [hobject])) (.refl _ _) hc₁ h₂ hm
  | objectOrOther =>
    rw [hu] at h
    refine hboxed h (by rw [hu]; rfl) fun {value s₁ c₁ w} hw hknown hr _ hc₁ h₂ => ?_
    obtain ⟨hn, hkind⟩ := hno (by rw [hu]; rfl) (by rw [hu]; decide) hknown
    rw [(hplain hw hn).truthy_objectOrOther (SpecType.subset_trans hkind (by rw [hu]; decide))]
    exact Yields.ofEmit (isCell_yields hr) (.refl _ _) hc₁ h₂ hm
  | string | stringIdent =>
    rw [hu] at h
    refine hboxed h (by rw [hu]; rfl) fun {value s₁ c₁ w} hw hknown hr hmem hc₁ h₂ => ?_
    obtain ⟨hn, hkind⟩ := hno (by rw [hu]; rfl) (by rw [hu]; decide) hknown
    rw [Value.truthy_string (SpecType.subset_trans hkind (by rw [hu]; decide)), ← hmem]
    exact stringTruth_yields hr (.refl _ _) hc₁ h₂ hm
  | knownString =>
    rw [hu] at h
    refine hboxed h (by rw [hu]; rfl) fun {value s₁ c₁ w} hw _ hr hmem hc₁ h₂ => ?_
    rw [Value.truthy_string (hstring hu w hw), ← hmem]
    exact stringTruth_yields hr (.refl _ _) hc₁ h₂ hm
  | _ =>
    rw [hu] at h
    refine hboxed h (by rw [hu]; rfl) fun {value s₁ c₁ w} hw hknown hr hmem hc₁ h₂ => ?_
    rw [← hmem]
    rcases hknown with ⟨hn, hknown⟩ | ⟨hn, hi, -⟩
    · have hnamed := Value.exists_constant_of_isNumber ht (hv w hw) hn
      rw [hconst] at hnamed
      obtain ⟨v', hv', hjudged⟩ := hknown.judged (by rw [hu]; decide) hx.fact (hx.admits w hw)
        hx.exact hn hnamed
      exact valueTruth_runs h₂ hm hc₁ hr hv' (by rw [hmem]; exact hjudged)
        (by rintro rfl; exact absurd hn (by decide))
        (by simp [Value.isInvalid, hn]) (by rw [hmem]; exact htruth)
    · obtain ⟨v', hv', hdesc⟩ := hi.fact
      exact valueTruth_runs h₂ hm hc₁ hr hv'
        (Value.judged_of_subset (by rw [hmem]; exact hdesc.allowed)) (hplain hw hn).ne_empty
        (hplain hw hn).isInvalid_eq_false (by rw [hmem]; exact htruth)

end SpecJit.Lowering
