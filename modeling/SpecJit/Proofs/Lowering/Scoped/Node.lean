import SpecJit.Proofs.Lowering.Scoped.Switch

/-!
# Nodes keep to the scoping

`Node.recordedType` is the type of the register that an operation records as the result of a node,
where it does not follow the result that the node declares. If types count, a node has to declare a
result of that type (`Node.Fits`).

An operation that ends a block is split (`Leaves`): first what it uses is computed and recorded, and
behind that nothing is recorded any more; from there control goes on to the blocks `ts` of the
graph, if these may be entered.
-/

namespace SpecJit

open Lir

/-- The type of what the operation records as the result of the node, unless it is the declared one.
-/
def Node.recordedType (node : Node) : Option Ty :=
  match node.op with
  | .doubleRep | .arithSqrt | .arithFRound | .arithSin | .arithCos | .arithLog | .arithPow =>
    some .f64
  | .getArgumentCount | .doubleAsInt32 _ | .valueToInt32 | .arithClz32 | .bit _ | .compare _
  | .compareEqConstant | .logicalNot | .isType _ | .getArrayLength _ | .hasIndexedProperty _
  | .getTypedArrayByteOffset | .stringCharCodeAt _ | .instanceOf => some .i32
  | .getCallee | .valueRep | .int52Rep | .valueAdd | .typeOf | .getButterfly
  | .allocatePropertyStorage _ | .reallocatePropertyStorage _ | .getByOffset _ | .multiGetByOffset _
  | .newObject _ | .newArray _ | .newArrayWithSize _ | .newArrayBuffer _ _ | .getGlobalVar _
  | .getScope | .skipScope | .getExecutable | .getClosureVar _ | .newFunction | .createActivation _
  | .createDirectArguments | .createScopedArguments | .createClonedArguments | .getFromArguments _
  | .getMyArgumentByVal | .materializeNewObject _ | .materializeCreateActivation _ | .arrayPush _
  | .arrayPop _ | .getIndexedPropertyStorage _ | .stringCharAt _ | .toThis | .toPrimitive
  | .convertToString | .makeRope => some .i64
  | .booleanToNumber => some (Lowering.booleanNumberType node)
  | .uint32ToNumber _ => some (Lowering.numberType node.result)
  | .arithRound mode => some (Lowering.roundedType mode)
  | .getByVal mode => Lowering.elementType mode node.result
  | .getById _ | .hasProperty | .call | .construct | .callVarargs _ | .constructVarargs _
  | .callForwardVarargs _ =>
    some (Lowering.siteType node.result)
  | _ => none

/-- The node declares a result of the type that its operation records. -/
def Node.Fits (node : Node) : Prop :=
  ∀ ty form, node.recordedType = some ty → node.result.form? = some form → form.ty = ty

/-- Control goes on to blocks of the graph, or values go to phis. -/
def Op.isFlow : Op → Bool
  | .jump _ | .branch _ | .switch _ | .phi | .upsilon _ => true
  | _ => false

namespace Lowering

variable {α β : Type} {strict : Bool} {env : Env} {Γ Δ : List Fact} {S S' S'' : Scoping}
  {s s' s'' : State} {u : Unit}

/-! ## Leaving a block -/

/-- One state comes after another while a block of the graph is lowered; values for phis may be new.
-/
structure Advances (strict : Bool) (S : Scoping) (s : State) (S' : Scoping) (s' : State) :
    Prop where
  grown : s.builder.Grown strict S S' s'.builder
  here : ∀ r, s.builder.Here S r → s'.builder.Here S' r
  block : s'.block = s.block
  values : ∃ new, s'.values = new ++ s.values ∧ ∀ v ∈ new, v.2.2 = s.block

theorem Follows.advances (h : Follows strict S s S' s') : Advances strict S s S' s' := by
  obtain ⟨new, hvalues, hnew, -⟩ := h.values
  exact ⟨h.grown, h.here, h.block, new, hvalues, hnew⟩

theorem Advances.refl (h : s.builder.Sound strict S) : Advances strict S s S s :=
  (Follows.refl h).advances

theorem Advances.trans (h₁ : Advances strict S s S' s') (h₂ : Advances strict S' s' S'' s'') :
    Advances strict S s S'' s'' := by
  obtain ⟨new₁, hv₁, hb₁⟩ := h₁.values
  obtain ⟨new₂, hv₂, hb₂⟩ := h₂.values
  refine ⟨h₁.grown.trans h₂.grown, fun r hr => h₂.here r (h₁.here r hr), h₂.block.trans h₁.block,
    new₂ ++ new₁,
    by rw [hv₂, hv₁, List.append_assoc], fun v hv => ?_⟩
  rcases List.mem_append.1 hv with hv | hv
  · rw [← h₁.block]
    exact hb₂ v hv
  · exact hb₁ v hv

/-- A step of the block `b` that may leave for the blocks `ts` (module doc). -/
structure Leaves (strict : Bool) (env : Env) (b : BlockIndex) (Γ : List Fact) (ts : List BlockIndex)
    (x : Lower α) (P : α → List Fact) : Prop where
  splits : ∀ S s a s', s.block = b → Consistent strict env S s → Hold strict S s.builder
    (s.builder.Here S) Γ →
    x env s = .ok (a, s') → ∃ S₁ s₁, Advances strict S s S₁ s₁ ∧ Consistent strict env S₁ s₁ ∧
      s'.values = s₁.values ∧ s'.block = s₁.block ∧
      (Hold strict S₁ s₁.builder (s₁.builder.Here S₁) (entries env.graph ts) →
        ∃ S', Advances strict S₁ s₁ S' s' ∧ Consistent strict env S' s' ∧ Hold strict S' s'.builder
          (s'.builder.Here S') (P a))

namespace Leaves

variable {b : BlockIndex} {ts : List BlockIndex} {x : Lower α} {f : α → Lower β} {P : α → List Fact}
  {Q : β → List Fact}

/-- A step that leaves for nowhere. -/
theorem of_scoped (h : Scoped strict env Γ x P) : Leaves strict env b Γ ts x P where
  splits S s a s' _ hs hΓ hx := by
    obtain ⟨S', hF, hC, hP⟩ := h.follows S s a s' hs hΓ hx
    exact ⟨S', s', hF.advances, hC, rfl, rfl, fun _ => ⟨S', .refl hC.sound, hC, hP⟩⟩

/-- A step that records nothing and leaves. -/
theorem of_entries [hq : RecordsNothing x] (h : Scoped strict env (entries env.graph ts ++ Γ) x P) :
    Leaves strict env b Γ ts x P where
  splits S s a s' _ hs hΓ hx := by
    obtain ⟨hvalues, hblock⟩ := hq.kept env s a s' hx
    refine ⟨S, s, .refl hs.sound, hs, hvalues, hblock, fun hentries => ?_⟩
    obtain ⟨S', hF, hC, hP⟩ := h.follows S s a s' hs (hentries.append hΓ) hx
    exact ⟨S', hF.advances, hC, hP⟩

/-- First something is computed. -/
theorem after (hx : Scoped strict env Γ x P) (hf : ∀ a, Leaves strict env b (P a ++ Γ) ts (f a) Q) :
    Leaves strict env b Γ ts (x >>= f) Q where
  splits S s c s' hb hs hΓ h := by
    obtain ⟨a, s₁, h₁, h₂⟩ := bind_ok h
    obtain ⟨S₁, hF₁, hC₁, hP⟩ := hx.follows S s a s₁ hs hΓ h₁
    obtain ⟨S₂, s₂, hA, hrest⟩ :=
      (hf a).splits S₁ s₁ c s' (hF₁.block.trans hb) hC₁ (hP.append (hΓ.grow hF₁.grown hF₁.here)) h₂
    exact ⟨S₂, s₂, hF₁.advances.trans hA, hrest⟩

/-- Behind the point from which control leaves nothing is recorded. -/
theorem andThen (hx : Leaves strict env b Γ ts x P) (hf : ∀ a, Scoped strict env (P a) (f a) Q)
    (hq : ∀ a, RecordsNothing (f a)) : Leaves strict env b Γ ts (x >>= f) Q where
  splits S s c s' hb hs hΓ h := by
    obtain ⟨a, s₂, h₁, h₂⟩ := bind_ok h
    obtain ⟨S₁, s₁, hA, hC, hvalues, hblock, hleave⟩ := hx.splits S s a s₂ hb hs hΓ h₁
    obtain ⟨hvalues', hblock'⟩ := (hq a).kept env s₂ c s' h₂
    refine ⟨S₁, s₁, hA, hC, hvalues'.trans hvalues, hblock'.trans hblock, fun hentries => ?_⟩
    obtain ⟨S₂, hA₂, hC₂, hP⟩ := hleave hentries
    obtain ⟨S', hF, hC', hQ⟩ := (hf a).follows S₂ s₂ c s' hC₂ hP h₂
    exact ⟨S', hA₂.trans hF.advances, hC', hQ⟩

theorem read {f : Env → Lower β} (hf : Leaves strict env b Γ ts (f env) Q) :
    Leaves strict env b Γ ts ((MonadReader.read : Lower Env) >>= f) Q := ⟨hf.splits⟩

theorem getNode {id : NodeId} {f : Node → Lower β}
    (hf : ∀ node, Named env id node → Leaves strict env b Γ ts (f node) Q) :
    Leaves strict env b Γ ts (Lowering.getNode id >>= f) Q where
  splits S s a s' hb hs hΓ h := by
    obtain ⟨node, hn, h⟩ := getNode_bind_ok h
    exact (hf node ⟨hn⟩).splits S s a s' hb hs hΓ h

end Leaves

/-! ## Operations -/

theorem scoped_lowerOp {id : NodeId} {node : Node} [Named env id node]
    (hf : ∀ ty, node.recordedType = some ty → Fits strict env id ty)
    (hflow : node.op.isFlow = false) :
    Scoped strict env Γ (lowerOp id node) fun _ => [] := by
  unfold lowerOp
  unfold Node.recordedType at hf
  cases hop : node.op <;> simp only [hop, Op.isFlow] at hf hflow ⊢
  case getByVal => exact scoped_lowerGetByVal hf
  all_goals first
    | contradiction
    | infer_instance
    | (have hfits := hf _ rfl; infer_instance)

section Ends

variable {b : BlockIndex} {node : Node}

theorem leaves_jump (target : BlockIndex) :
    Leaves strict env b Γ (Op.jump target).successors (jumpTo target) fun _ => [] := by
  have hentries : Enterable env.graph (entries env.graph [target]) [target] := inferInstance
  have htarget := hentries.leads target (by simp)
  exact .of_entries (inferInstanceAs (Scoped strict env (entries env.graph [target] ++ Γ) _ _))

theorem leaves_branch (data : BranchData) :
    Leaves strict env b Γ (Op.branch data).successors (lowerBranch node data) fun _ => [] := by
  have hentries : Enterable env.graph (entries env.graph (Op.branch data).successors)
    (Op.branch data).successors := inferInstance
  have htaken := hentries.leads data.taken (by simp [Op.successors])
  have hnotTaken := hentries.leads data.notTaken (by simp [Op.successors])
  refine .read (.after inferInstance fun st => .after inferInstance fun direction => ?_)
  split
  · exact .of_entries inferInstance
  · exact .of_entries inferInstance
  · exact .after inferInstance fun e => .after inferInstance fun cond => .of_entries inferInstance

variable (data : SwitchData)

/-- A switch over a boxed number: an int32, or a double that is one. -/
theorem scoped_switchBoxed (value : Reg) (targets : Targets) [Known Γ value .i64]
    [Leads Γ (targets.fallback :: targets.blocks.map (·.2)) []] : Scoped strict env Γ (do
      let intBlock ← Emit.createBlock false
      let notInt ← Emit.createBlock false
      let int ← isInt32 value
      Emit.branch int intBlock notInt .normal
      Emit.switchTo intBlock
      let narrow ← Emit.truncate value
      Emit.switch narrow (numberCases data targets) targets.fallback
      Emit.switchTo notInt
      let doubleBlock ← Emit.createBlock false
      let number ← isNumber value
      Emit.branch number doubleBlock targets.fallback .normal
      Emit.switchTo doubleBlock
      let double ← unboxDouble value
      let truncated ← Emit.doubleToInt .i32 double
      let back ← Emit.intToDouble true truncated
      let exact ← Emit.fcmp .eq back double
      let exactBlock ← Emit.createBlock false
      Emit.branch exact exactBlock targets.fallback .normal
      Emit.switchTo exactBlock
      Emit.switch truncated (numberCases data targets) targets.fallback : Lower Unit)
        fun _ => [] where
  follows S s a s' hs hΓ h := by
    obtain ⟨intBlock, s₁, h₁, h⟩ := bind_ok h
    obtain ⟨S₁, d₁, hΓ₁⟩ := (Detour.start hs).createBlock hΓ h₁
    obtain ⟨notInt, s₂, h₂, h⟩ := bind_ok h
    obtain ⟨S₂, d₂, hΓ₂⟩ := d₁.createBlock hΓ₁ h₂
    obtain ⟨int, s₃, h₃, h⟩ := bind_ok h
    obtain ⟨S₃, d₃, hΓ₃⟩ := d₂.quiet hs hΓ₂ h₃
    obtain ⟨_, s₄, h₄, h⟩ := bind_ok h
    obtain ⟨S₄, d₄, -⟩ := d₃.quiet (Γ := .leads [intBlock] [] :: .leads [notInt] [] :: _) hs
      (.cons (d₃.leads (p := ⟨intBlock, []⟩) (by simp))
        (.cons (d₃.leads (p := ⟨notInt, []⟩) (by simp)) hΓ₃)) h₄
    obtain ⟨_, s₅, h₅, h⟩ := bind_ok h
    obtain ⟨d₅, -⟩ := d₄.switchTo (p := ⟨intBlock, []⟩) (by simp) h₅
    obtain ⟨narrow, s₆, h₆, h⟩ := bind_ok h
    obtain ⟨S₆, d₆, hΓ₆⟩ := d₅.quiet hs (d₅.hold hΓ) h₆
    obtain ⟨_, s₇, h₇, h⟩ := bind_ok h
    obtain ⟨S₇, d₇, -⟩ := d₆.quiet hs hΓ₆ h₇
    obtain ⟨_, s₈, h₈, h⟩ := bind_ok h
    obtain ⟨d₈, -⟩ := d₇.switchTo (p := ⟨notInt, []⟩) (by simp) h₈
    obtain ⟨doubleBlock, s₉, h₉, h⟩ := bind_ok h
    obtain ⟨S₉, d₉, hΓ₉⟩ := d₈.createBlock (d₈.hold hΓ) h₉
    obtain ⟨number, s₁₀, h₁₀, h⟩ := bind_ok h
    obtain ⟨S₁₀, d₁₀, hΓ₁₀⟩ := d₉.quiet hs hΓ₉ h₁₀
    obtain ⟨_, s₁₁, h₁₁, h⟩ := bind_ok h
    obtain ⟨S₁₁, d₁₁, -⟩ := d₁₀.quiet (Γ := .leads [doubleBlock] [] :: _) hs
      (.cons (d₁₀.leads (p := ⟨doubleBlock, []⟩) (by simp)) hΓ₁₀) h₁₁
    obtain ⟨_, s₁₂, h₁₂, h⟩ := bind_ok h
    obtain ⟨d₁₂, -⟩ := d₁₁.switchTo (p := ⟨doubleBlock, []⟩) (by simp) h₁₂
    obtain ⟨double, s₁₃, h₁₃, h⟩ := bind_ok h
    obtain ⟨S₁₃, d₁₃, hΓ₁₃⟩ := d₁₂.quiet hs (d₁₂.hold hΓ) h₁₃
    obtain ⟨truncated, s₁₄, h₁₄, h⟩ := bind_ok h
    obtain ⟨S₁₄, d₁₄, hΓ₁₄⟩ := d₁₃.quiet hs hΓ₁₃ h₁₄
    obtain ⟨back, s₁₅, h₁₅, h⟩ := bind_ok h
    obtain ⟨S₁₅, d₁₅, hΓ₁₅⟩ := d₁₄.quiet hs hΓ₁₄ h₁₅
    obtain ⟨exact, s₁₆, h₁₆, h⟩ := bind_ok h
    obtain ⟨S₁₆, d₁₆, hΓ₁₆⟩ := d₁₅.quiet hs hΓ₁₅ h₁₆
    -- a detour of its own: the truncated double is used in the last block
    have hs₁₆ := d₁₆.consistent hs
    obtain ⟨exactBlock, s₁₇, h₁₇, h⟩ := bind_ok h
    obtain ⟨S₁₇, d₁₇, hΓ₁₇⟩ := (Detour.start hs₁₆).createBlock hΓ₁₆ h₁₇
    obtain ⟨_, s₁₈, h₁₈, h⟩ := bind_ok h
    obtain ⟨S₁₈, d₁₈, -⟩ := d₁₇.quiet (Γ := .leads [exactBlock] [] :: _) hs₁₆
      (.cons (d₁₇.leads (p := ⟨exactBlock, []⟩) (by simp)) hΓ₁₇) h₁₈
    obtain ⟨_, s₁₉, h₁₉, h⟩ := bind_ok h
    obtain ⟨d₁₉, -⟩ := d₁₈.switchTo (p := ⟨exactBlock, []⟩) (by simp) h₁₉
    obtain ⟨S₂₀, d₂₀, -⟩ := d₁₉.quiet hs₁₆ (d₁₉.hold hΓ₁₆) h
    exact ⟨S₂₀, d₁₆.follows.trans d₂₀.follows, d₂₀.consistent hs₁₆, .nil⟩

set_option synthInstance.maxSize 50000 in
theorem leaves_switchNumber :
    Leaves strict env b Γ (Op.switch data).successors (lowerSwitchNumber node data)
      fun _ => [] := by
  refine .after inferInstance fun e => ?_
  split
  · exact .after inferInstance fun value => .of_entries inferInstance
  · refine .after inferInstance fun value => .of_entries (.bind inferInstance fun targets => ?_)
    exact scoped_switchBoxed data value targets

/-- The string that a switch compares, and the blocks it goes to. -/
theorem leaves_stringOperand :
    Leaves strict env b Γ (Op.switch data).successors (stringOperand node data)
    fun p => .reg p.1 .i64 :: p.2.known := by
  have hpair (string : Reg) (targets : Targets) (Γ : List Fact) [h : Known Γ string .i64]
      [h' : Leads Γ (targets.fallback :: targets.blocks.map (·.2)) []] :
      Scoped strict env Γ (pure (string, targets) : Lower (Reg × Targets)) fun p => .reg p.1 .i64 ::
        p.2.known :=
    scoped_pure fun hΓ => .cons (h.holds hΓ) (.cons (h'.holds hΓ) .nil)
  refine .after inferInstance fun e => ?_
  split
  · exact .after inferInstance fun string => .of_entries inferInstance
  · exact .after inferInstance fun string => .of_entries inferInstance
  · exact .after inferInstance fun string => .of_entries inferInstance
  · exact .after inferInstance fun string => .of_entries inferInstance
  · exact .of_scoped scoped_crash

set_option synthInstance.maxSize 50000 in
/-- A switch over the only character of a string. -/
theorem scoped_switchCharacter (string : Reg) (targets : Targets) [Known Γ string .i64]
    [Leads Γ (targets.fallback :: targets.blocks.map (·.2)) []] : Scoped strict env Γ (do
      let impl ← loadField64 string .stringImpl
      let rope ← Emit.icmpImm .eq impl 0
      let resolved ← Emit.createBlock false
      let ropeBlock ← Emit.createBlock false
      Emit.branch rope ropeBlock resolved .takenRare
      Emit.switchTo ropeBlock
      switchByRuntime data targets string
      Emit.switchTo resolved
      let length ← loadField32 impl .stringImplLength
      let single ← Emit.icmpImm .eq length 1
      let singleBlock ← Emit.createBlock false
      Emit.branch single singleBlock targets.fallback .normal
      Emit.switchTo singleBlock
      let characters ← loadField64 impl .stringImplData
      let eightBit ← Emit.icmpImm .ne (← eightBitFlag impl) 0
      let code ← diamond .i32 eightBit .normal (Emit.load8 characters 0)
        (Emit.load .i32 .w16 false characters 0)
      Emit.switch code (numberCases data targets) targets.fallback : Lower Unit) fun _ => [] := by
  refine .bind inferInstance fun impl => .bind inferInstance fun rope =>
    ⟨fun S s a s' hs hΓ h => ?_⟩
  obtain ⟨resolved, s₁, h₁, h⟩ := bind_ok h
  obtain ⟨S₁, d₁, hΓ₁⟩ := (Detour.start hs).createBlock hΓ h₁
  obtain ⟨ropeBlock, s₂, h₂, h⟩ := bind_ok h
  obtain ⟨S₂, d₂, hΓ₂⟩ := d₁.createBlock hΓ₁ h₂
  obtain ⟨_, s₃, h₃, h⟩ := bind_ok h
  obtain ⟨S₃, d₃, -⟩ := d₂.quiet (Γ := .leads [ropeBlock] [] :: .leads [resolved] [] :: _) hs
    (.cons (d₂.leads (p := ⟨ropeBlock, []⟩) (by simp))
      (.cons (d₂.leads (p := ⟨resolved, []⟩) (by simp)) hΓ₂)) h₃
  obtain ⟨_, s₄, h₄, h⟩ := bind_ok h
  obtain ⟨d₄, -⟩ := d₃.switchTo (p := ⟨ropeBlock, []⟩) (by simp) h₄
  obtain ⟨_, s₅, h₅, h⟩ := bind_ok h
  obtain ⟨S₅, d₅, -⟩ := d₄.quiet hs (d₄.hold hΓ) h₅
  obtain ⟨_, s₆, h₆, h⟩ := bind_ok h
  obtain ⟨d₆, -⟩ := d₅.switchTo (p := ⟨resolved, []⟩) (by simp) h₆
  obtain ⟨length, s₇, h₇, h⟩ := bind_ok h
  obtain ⟨S₇, d₇, hΓ₇⟩ := d₆.quiet hs (d₆.hold hΓ) h₇
  obtain ⟨single, s₈, h₈, h⟩ := bind_ok h
  obtain ⟨S₈, d₈, hΓ₈⟩ := d₇.quiet hs hΓ₇ h₈
  obtain ⟨singleBlock, s₉, h₉, h⟩ := bind_ok h
  obtain ⟨S₉, d₉, hΓ₉⟩ := d₈.createBlock hΓ₈ h₉
  obtain ⟨_, s₁₀, h₁₀, h⟩ := bind_ok h
  obtain ⟨S₁₀, d₁₀, -⟩ := d₉.quiet (Γ := .leads [singleBlock] [] :: _) hs
    (.cons (d₉.leads (p := ⟨singleBlock, []⟩) (by simp)) hΓ₉) h₁₀
  obtain ⟨_, s₁₁, h₁₁, h⟩ := bind_ok h
  obtain ⟨d₁₁, -⟩ := d₁₀.switchTo (p := ⟨singleBlock, []⟩) (by simp) h₁₁
  obtain ⟨S₁₂, d₁₂, -⟩ := d₁₁.quiet hs (d₁₁.hold hΓ) h
  exact ⟨S₁₂, d₁₂.follows, d₁₂.consistent hs, .nil⟩

set_option synthInstance.maxSize 50000 in
theorem leaves_switchChar :
    Leaves strict env b Γ (Op.switch data).successors (lowerSwitchChar node data) fun _ => [] :=
  .andThen (leaves_stringOperand data) (fun p => scoped_switchCharacter data p.1 p.2)
    fun _ => inferInstance

theorem leaves_switchString :
    Leaves strict env b Γ (Op.switch data).successors (lowerSwitchString node data)
      fun _ => [] := by
  refine .andThen (leaves_stringOperand data) (fun p => .bind inferInstance fun env' => ?_) fun p =>
    .bind inferInstance fun env' => ?_
  · split <;> infer_instance
  · split <;> infer_instance

/-- A case of a switch over cells. -/
theorem scoped_cellCase (value : Reg) (target : BlockId) (key : Int) [Known Γ value .i64]
    [Leads Γ [target] []] :
    Scoped strict env Γ (do
      let found ← Emit.icmpImm .eq value key
      let next ← Emit.createBlock false
      Emit.branch found target next .normal
      Emit.switchTo next : Lower Unit) fun _ => [] := by
  refine .bind inferInstance fun found => ⟨fun S s a s' hs hΓ h => ?_⟩
  obtain ⟨next, s₁, h₁, h⟩ := bind_ok h
  obtain ⟨S₁, d₁, hΓ₁⟩ := (Detour.start hs).createBlock hΓ h₁
  obtain ⟨_, s₂, h₂, h⟩ := bind_ok h
  obtain ⟨S₂, d₂, -⟩ :=
    d₁.quiet (Γ := .leads [next] [] :: _) hs (.cons (d₁.leads (p := ⟨next, []⟩) (by simp)) hΓ₁) h₂
  obtain ⟨d₃, -⟩ := d₂.switchTo (p := ⟨next, []⟩) (by simp) h
  exact ⟨S₂, d₃.follows, d₃.consistent hs, .nil⟩

/-- The test of one case. -/
def cellCase (value : Reg) (targets : Targets) (c : SwitchCase) : Lower Unit :=
  match c.value with
  | .cell address => do
    let found ← Emit.icmpImm .eq value (wordImm address)
    let next ← Emit.createBlock false
    Emit.branch found (targets.get c.target) next .normal
    Emit.switchTo next
  | key => crash (.cellSwitchKey key)

theorem leaves_switchCell :
    Leaves strict env b Γ (Op.switch data).successors (lowerSwitchCell node data) fun _ => [] := by
  refine .after inferInstance fun e => .after inferInstance fun value => ?_
  have hcases (targets : Targets) (Γ : List Fact) [Known Γ value .i64]
    [Leads Γ (targets.fallback :: targets.blocks.map (·.2)) []] :
      Scoped strict env Γ (data.cases.forM (cellCase value targets)) fun _ => [] :=
    scoped_forM fun c _ => by
      unfold cellCase
      split
      · exact scoped_cellCase value _ _
      · infer_instance
  have hquiet (targets : Targets) : RecordsNothing (data.cases.forM (cellCase value targets)) := by
    have (c : SwitchCase) : RecordsNothing (cellCase value targets c) := by
      unfold cellCase
      split <;> infer_instance
    infer_instance
  exact .of_entries (x := do
    let targets ← switchTargets data
    data.cases.forM (cellCase value targets)
    Emit.jump targets.fallback []) inferInstance

theorem leaves_switch :
    Leaves strict env b Γ (Op.switch data).successors (lowerSwitch node data) fun _ => [] := by
  unfold lowerSwitch
  split
  · exact leaves_switchNumber data
  · exact leaves_switchChar data
  · exact leaves_switchString data
  · exact leaves_switchCell data

end Ends

/-! ## Phis -/

section Phis

variable {b : BlockIndex} {id : NodeId} {node : Node}

/-- A phi is held in the parameter of its block. -/
theorem leaves_phi [hn : Named env id node] (hlists : env.graph.Lists b id) :
    Leaves strict env b Γ [] (lowerPhi id) fun _ => [] where
  splits S s a s' hb hs _ h := by
    rw [lowerPhi, read_bind] at h
    cases hl : env.phiParams.lookup id with
    | none => rw [hl] at h; cases h
    | some r =>
      rw [hl] at h
      have hr := hs.phis id r hl (hb ▸ hlists)
      rw [Graph.typeOfResult_of_node hn.found] at hr
      have : Fits strict env id node.result.machineType := .of_result rfl
      exact (Leaves.of_scoped (b :=
        b) (inferInstance : Scoped strict env [.reg r node.result.machineType] (setResult id r)
          _)).splits
        S s a s' hb hs (.cons hr .nil) h

/-- A value is kept for a phi. -/
theorem leaves_keep {phi : NodeId} (value : Reg) {target : Node} [hn : Named env phi target]
    [hv : Known Γ value target.result.machineType] : Leaves strict env b Γ []
      (modify fun s => { s with upsilons := (phi, value) :: s.upsilons } : Lower Unit)
      fun _ => [] where
  splits S s a s' _ hs hΓ h := by
    have hv := hv.holds hΓ
    cases h
    have hC : Consistent strict env S { s with upsilons := (phi, value) :: s.upsilons } := by
      refine ⟨hs.sound, hs.fixed, hs.typed, hs.held, fun u hu => ?_, hs.phis⟩
      rcases List.mem_cons.1 hu with rfl | hu
      · refine ⟨hv.1, fun hst node hnode => ?_⟩
        rw [hn.unique ⟨hnode⟩]
        exact hv.2 hst
      · exact hs.upsilons u hu
    exact ⟨S, { s with upsilons := (phi, value) :: s.upsilons }, ⟨.refl hs.sound, fun _ h => h, rfl,
      [], rfl, by simp⟩, hC, rfl, rfl,
      fun _ => ⟨S, .refl hC.sound, hC, .nil⟩⟩

/-- The value for a phi is defined, and has the type of the phi. -/
theorem leaves_upsilon (phi : NodeId) :
    Leaves strict env b Γ [] (lowerUpsilon node phi) fun _ => [] := by
  refine .after inferInstance fun e => .getNode fun target hn => ?_
  have hkeep (value : Reg) {ty : Ty} (Γ : List Fact) [Known Γ value ty]
    (hty : ty = target.result.machineType) : Leaves strict env b Γ []
      (modify fun s => { s with upsilons := (phi, value) :: s.upsilons } : Lower Unit)
        fun _ => [] := by
    subst hty
    exact leaves_keep value
  dsimp only
  split
  · exact .after inferInstance fun value => hkeep value _ (by simp [*, NodeResult.machineType])
  · exact .after inferInstance fun value => hkeep value _ (by simp [*, NodeResult.machineType])
  · exact .after inferInstance fun value => hkeep value _ (by simp [*, NodeResult.machineType])
  · exact .after inferInstance fun value => hkeep value _ (by simp [*, NodeResult.machineType])
  · exact .after inferInstance fun value => hkeep value _ (by simp [*, NodeResult.machineType])
  · exact .after inferInstance fun value => hkeep value _ (by simp [*, NodeResult.machineType])
  · exact .after (P := fun value => [.reg value target.result.machineType]) scoped_crash
      fun value => hkeep value _ rfl
  · exact .after (P := fun value => [.reg value target.result.machineType]) scoped_crash
      fun value => hkeep value _ rfl

end Phis

/-! ## Nodes -/

variable {b : BlockIndex} {id : NodeId} {node : Node}

theorem leaves_lowerOp [hn : Named env id node] (hf : strict = true → node.Fits)
    (hlists : env.graph.Lists b id) :
    Leaves strict env b Γ node.op.successors (lowerOp id node) fun _ => [] := by
  by_cases hflow : node.op.isFlow = true
  · unfold lowerOp
    cases hop : node.op <;> simp only [hop, Op.isFlow] at hflow ⊢ <;> try contradiction
    case phi => exact leaves_phi hlists
    case upsilon phi => exact leaves_upsilon phi
    case jump target => exact leaves_jump target
    case branch data => exact leaves_branch data
    case switch data => exact leaves_switch data
  · refine .of_scoped (scoped_lowerOp (fun ty hty => ⟨fun hst node' form hnode' hform => ?_⟩)
      (by simpa using hflow))
    rw [hn.unique ⟨hnode'⟩] at hform
    exact hf hst ty form hty hform

instance (facts : AbstractState) :
    Scoped strict env Γ (modify fun s => { s with facts } : Lower Unit) fun _ => [] :=
  scoped_modify fun _ => ⟨rfl, rfl, rfl, rfl, rfl⟩

instance (availability : AvailabilityMap) :
    Scoped strict env Γ (modify fun s => { s with availability } : Lower Unit) fun _ => [] :=
  scoped_modify fun _ => ⟨rfl, rfl, rfl, rfl, rfl⟩

instance (facts : AbstractState) : RecordsNothing (modify fun s => { s with facts } : Lower Unit) :=
  obeys_modify fun _ _ => ⟨rfl, rfl⟩

instance (availability : AvailabilityMap) :
    RecordsNothing (modify fun s => { s with availability } : Lower Unit) :=
  obeys_modify fun _ _ => ⟨rfl, rfl⟩

instance : RecordsNothing endUnreachable := by
  have : RecordsNothing (modify fun s => { s with facts := s.facts.invalidate } : Lower Unit) :=
    obeys_modify fun _ _ => ⟨rfl, rfl⟩
  unfold endUnreachable
  infer_instance

set_option synthInstance.maxSize 50000 in
theorem leaves_lowerNode (hn : env.graph.node id = .ok node) (hf : strict = true → node.Fits)
    (hlists : env.graph.Lists b id) :
    Leaves strict env b Γ node.op.successors (lowerNode id) fun _ => [] := by
  have hnamed : Named env id node := ⟨hn⟩
  refine .read (.getNode fun node' hn' => ?_)
  obtain rfl := hnamed.unique hn'
  refine .after (P := fun _ => []) (scoped_modify fun _ => ⟨rfl, rfl, rfl, rfl, rfl⟩) fun _ => ?_
  exact .andThen (leaves_lowerOp hf hlists) (fun _ => inferInstance) fun _ => inferInstance

end Lowering

end SpecJit
