import SpecJit.Proofs.Lowering.Scoped.Basic

/-!
# Exits, checks and machine forms keep to the scoping

An exit captures registers that are defined (`Captures`): those in which the lowering holds a node
here, and constants that are put into registers for it. The routines that give a node in a machine
form find it held in a form, convert it or load a constant; the register that they give is defined
and has the type of the form.
-/

namespace SpecJit.Lowering

open Lir

variable {α β : Type} {strict : Bool} {env : Env} {Γ Δ : List Fact}

/-! ## Boxing -/

section Boxing

variable (r : Reg)

instance [Known Γ r .i64] : (isInt32 r).Scoped strict Γ fun r => [.reg r .i32] := by
  unfold isInt32
  infer_instance
instance [Known Γ r .i64] : (isNumber r).Scoped strict Γ fun r => [.reg r .i32] := by
  unfold isNumber
  infer_instance
instance [Known Γ r .i64] : (isCell r).Scoped strict Γ fun r => [.reg r .i32] := by
  unfold isCell
  infer_instance
instance [Known Γ r .i64] : (isBoolean r).Scoped strict Γ fun r => [.reg r .i32] := by
  unfold isBoolean
  infer_instance
instance [Known Γ r .i64] : (isOther r).Scoped strict Γ fun r => [.reg r .i32] := by
  unfold isOther
  infer_instance
instance [Known Γ r .i64] : (isMisc r).Scoped strict Γ fun r => [.reg r .i32] := by
  unfold isMisc
  infer_instance
instance [Known Γ r .i32] : (negated r).Scoped strict Γ fun r => [.reg r .i32] := by
  unfold negated
  infer_instance
instance [Known Γ r .i32] : (boxInt32 r).Scoped strict Γ fun r => [.reg r .i64] := by
  unfold boxInt32
  infer_instance
instance [Known Γ r .i32] : (boxBoolean r).Scoped strict Γ fun r => [.reg r .i64] := by
  unfold boxBoolean
  infer_instance
instance [Known Γ r .i64] : (unboxDouble r).Scoped strict Γ fun r => [.reg r .f64] := by
  unfold unboxDouble
  infer_instance

set_option synthInstance.maxSize 1000 in
instance [Known Γ r .f64] : (isNotInt52 r).Scoped strict Γ fun r => [.reg r .i32] := by
  unfold isNotInt52
  infer_instance

instance (impure : Bool) [Known Γ r .f64] :
    (boxDouble r impure).Scoped strict Γ fun r => [.reg r .i64] := by
  unfold boxDouble
  infer_instance

instance [Known Γ r .i64] : Scoped strict env Γ (cellTag r) fun r => [.reg r .i32] := by
  unfold cellTag
  infer_instance
instance [Known Γ r .i32] : Scoped strict env Γ (isObjectTag r) fun r => [.reg r .i32] := by
  unfold isObjectTag
  infer_instance

instance [Known Γ r .i32] : Scoped strict env Γ (isNotObjectTag r) fun r => [.reg r .i32] := by
  unfold isNotObjectTag
  infer_instance

instance (t : CellType) [Known Γ r .i64] :
    Scoped strict env Γ (hasCellType r t) fun r => [.reg r .i32] := by
  unfold hasCellType
  infer_instance

set_option synthInstance.maxSize 1000 in
instance [Known Γ r .i64] : Scoped strict env Γ (isNotIdentString r) fun r => [.reg r .i32] := by
  unfold isNotIdentString
  infer_instance

instance [Known Γ r .i64] : Scoped strict env Γ (isStringVar r) fun r => [.reg r .i32] := by
  unfold isStringVar
  infer_instance

end Boxing

/-! ## Exits -/

/-- A step of building an exit that keeps to the scoping: what it captures is defined. -/
class Captures (strict : Bool) (env : Env) (Γ : List Fact) (y : Capturing α)
    (Q : outParam (α → List Fact)) : Prop where
  run : ∀ c, Scoped strict env (.here c.regs.toList :: Γ) (y c) fun p => .here p.2.regs.toList ::
    Q p.1

theorem captures_pure {a : α} {Q : α → List Fact}
    (h : ∀ {S b V}, Hold strict S b V Γ → Hold strict S b V (Q a)) :
    Captures strict env Γ (pure a : Capturing α) Q where
  run c := scoped_pure (a := (a, c)) (P := fun p => .here p.2.regs.toList :: Q p.1)
    fun hΓ => .cons (hΓ _ (by simp)) (h hΓ.tail)

instance (a : α) : Captures strict env Γ (pure a : Capturing α) fun _ => [] :=
  captures_pure fun _ => .nil

theorem Captures.bind {Q : α → List Fact} {R : β → List Fact} {y : Capturing α}
    {f : α → Capturing β} (hy : Captures strict env Γ y Q)
    (hf : ∀ a, Captures strict env (Q a ++ Γ) (f a) R) :
    Captures strict env Γ (y >>= f) R where
  run c := Scoped.bind (hy.run c) fun p => ((hf p.1).run p.2).weaken fun h =>
    .cons (h _ (by simp)) fun F hF => h F (by
      rcases List.mem_append.1 hF with hF | hF <;> simp [hF])

instance {Q : α → List Fact} {R : β → List Fact} (y : Capturing α) (f : α → Capturing β)
    [hy : Captures strict env Γ y Q] [hf : ∀ a, Captures strict env (Q a ++ Γ) (f a) R] :
    Captures strict env Γ (y >>= f) R := .bind hy hf

/-- A lowering step while an exit is built. -/
theorem captures_lift {x : Lower α} {Q : α → List Fact} (hx : ∀ Δ, Scoped strict env (Δ ++ Γ) x Q) :
    Captures strict env Γ (liftM x : Capturing α) Q where
  run c := by
    refine Scoped.bind (x := x) (f := fun a => pure (a, c)) (hx [.here c.regs.toList]) fun a => ?_
    exact scoped_pure (a := (a, c)) (P := fun p => .here p.2.regs.toList :: Q p.1)
      fun h => .cons (h _ (by simp)) h.left

instance (x : Lower α) {Q : α → List Fact} [hx : ∀ Γ, Scoped strict env Γ x Q] :
    Captures strict env Γ (liftM x : Capturing α) Q := captures_lift fun Δ => hx (Δ ++ Γ)

instance (p : Prop) [Decidable p] {Q : α → List Fact} (x y : Capturing α)
    [hx : Captures strict env Γ x Q] [hy : Captures strict env Γ y Q] :
    Captures strict env Γ (if p then x else y) Q := by
  split
  · exact hx
  · exact hy

/-- A step that leaves the captured registers alone and does not build. -/
theorem captures_still {y : Capturing α} (h : ∀ c s a c' s', y c env s = .ok ((a, c'), s') →
    c'.regs = c.regs ∧
    s'.builder = s.builder ∧ s'.values = s.values ∧ s'.block = s.block ∧ s'.armDepth = s.armDepth ∧
    s'.upsilons = s.upsilons) : Captures strict env Γ y fun _ => [] where
  run c := scoped_of_still (fun s p s' hx => (h c s p.1 p.2 s' hx).2) fun S s p s' _ hΓ hx =>
    .cons (by rw [(h c s p.1 p.2 s' hx).1]; exact hΓ _ (by simp)) .nil

instance : Captures strict env Γ (read : Capturing Env) fun _ => [] :=
  captures_still fun _ _ _ _ _ h => by cases h; exact ⟨rfl, rfl, rfl, rfl, rfl, rfl⟩

instance : Captures strict env Γ (get : Capturing Capture) fun c => [.here c.regs.toList] where
  run c := scoped_pure (a := (c, c)) (P := fun p => [.here p.2.regs.toList, .here p.1.regs.toList])
    fun hΓ => .cons (hΓ _ (by simp)) (.cons (hΓ _ (by simp)) .nil)

instance : Captures strict env Γ (getThe State : Capturing State) fun _ => [] :=
  captures_still fun _ _ _ _ _ h => by cases h; exact ⟨rfl, rfl, rfl, rfl, rfl, rfl⟩

theorem captures_modifyState {f : State → State}
    (h : ∀ s, (f s).builder = s.builder ∧ (f s).values = s.values ∧
    (f s).block = s.block ∧ (f s).armDepth = s.armDepth ∧ (f s).upsilons = s.upsilons) :
    Captures strict env Γ (modifyThe State f : Capturing Unit) fun _ => [] :=
  captures_still fun _ s _ _ _ hx => by cases hx; exact ⟨rfl, h s⟩

instance (f : α → Capturing β) (l : List α) [hf : ∀ Γ a, Captures strict env Γ (f a) fun _ => []] :
    Captures strict env Γ (l.mapM f) fun _ => [] := by
  induction l generalizing Γ with
  | nil => exact inferInstanceAs (Captures strict env Γ (pure []) _)
  | cons a l ih => rw [List.mapM_cons]; infer_instance

instance (r : Reg) [hr : KnownHere Γ [r]] : Captures strict env Γ (capture r) fun _ => [] := by
  refine .bind inferInstance fun c => ?_
  split
  · infer_instance
  · refine .bind (Q := fun _ => []) ⟨fun c' => ?_⟩ fun _ => inferInstance
    refine scoped_pure (a := ((), { c with regs := c.regs.push r })) (P :=
      fun p => [.here p.2.regs.toList])
      fun hΓ => .cons (fun q hq => ?_) .nil
    rw [Array.toList_push, List.mem_append, List.mem_singleton] at hq
    rcases hq with hq | rfl
    · exact hΓ (.here c.regs.toList) (by simp) q hq
    · exact hr.holds hΓ.tail.right _ (by simp)

instance firstHeld_scoped (id : NodeId) (Γ : List Fact) : ∀ forms,
    Scoped strict env Γ (firstHeld? id forms) fun o => [.here (o.toList.map (·.1))]
  | [] => scoped_pure fun _ => .cons (by simp [Fact.Holds]) .nil
  | (form, format) :: rest => by
    have ih := firstHeld_scoped id Γ rest
    have hsome (r : Reg) : Scoped strict env (.reg r form.ty :: Γ)
      (pure (some (r, format)) : Lower (Option (Reg × ValueFormat)))
        fun o => [.here (o.toList.map (·.1))] :=
      scoped_pure fun hΓ => .cons (fun q hq => by
        cases List.mem_singleton.1 hq
        exact (hΓ (.reg r form.ty) (by simp)).1) .nil
    unfold firstHeld?
    infer_instance

instance (e : Edge) : Scoped strict env Γ (int32ForExit? e) fun o => [.here o.toList] := by
  have hreg (r : Reg) {ty : Ty} (Γ : List Fact) [hr : Known Γ r ty] :
      Scoped strict env Γ (pure (some r) : Lower (Option Reg)) fun o => [.here o.toList] :=
    scoped_pure fun hΓ => .cons (fun q hq => by
      cases List.mem_singleton.1 hq
      exact (hr.holds hΓ).1) .nil
  have hnone (Γ : List Fact) : Scoped strict env Γ (pure none : Lower (Option Reg)) fun o =>
    [.here o.toList] :=
    scoped_pure fun _ => .cons nofun .nil
  have hconst (node : Node) : Scoped strict env Γ (match node.op with
      | .jsConstant (.int32 n) => do return some (← Emit.int32 n.toInt)
      | _ => return none : Lower (Option Reg)) fun o => [.here o.toList] := by
    split
    · refine .bind inferInstance fun r => hreg r _
    · exact hnone Γ
  unfold int32ForExit?
  have (r : Reg) := hreg r (.reg r .i32 :: Γ)
  infer_instance

instance (id : NodeId) (node : Node) : Captures strict env Γ (recoveryOf id node) fun _ => [] := by
  refine .bind inferInstance fun env => ?_
  split
  · infer_instance
  · refine .bind inferInstance fun e₁ => .bind inferInstance fun left => .bind inferInstance
      fun e₂ =>
      .bind inferInstance fun right => ?_
    split
    · rename_i left right
      have hright (Δ : List Fact) : KnownHere ([.here (some right).toList] ++ Δ) [right] :=
        ⟨fun h => h _ (by simp)⟩
      have hleft (Δ Δ' Δ'' : List Fact) :
        KnownHere (Δ ++ (Δ' ++ ([.here (some left).toList] ++ Δ''))) [left] :=
        ⟨fun h => h _ (by simp)⟩
      refine .bind inferInstance fun _ => .bind inferInstance fun _ => inferInstance
    · infer_instance

instance (id : NodeId) (node : Node) :
    Captures strict env Γ (capturedValue id node) fun _ => [] := by
  unfold capturedValue
  split
  · infer_instance
  · refine .bind inferInstance fun held => ?_
    split
    · rename_i r format
      have : KnownHere (Fact.here ((some (r, format)).toList.map (·.1)) :: Γ) [r] :=
        ⟨fun h => h _ (by simp)⟩
      refine .bind (Q := fun _ => []) ?_ fun _ => inferInstance
      exact inferInstanceAs (Captures strict env (Fact.here ((some (r, format)).toList.map (·.1)) ::
        Γ) (capture r) _)
    · infer_instance

instance (id : NodeId) (kind : PhantomKind) (origin : CodeOrigin) :
    Captures strict env Γ (announce id kind origin) fun _ => [] :=
  captures_still fun _ _ _ _ _ h => by cases h; exact ⟨rfl, rfl, rfl, rfl, rfl, rfl⟩

instance (m : MaterializationId) (properties : List (PromotedLocation × ExitValue)) :
    Captures strict env Γ (describe m properties) fun _ => [] :=
  captures_modifyState fun _ => ⟨rfl, rfl, rfl, rfl, rfl⟩

instance exitValue_captures (Γ : List Fact) :
    ∀ depth a, Captures strict env Γ (exitValue depth a) fun _ => []
  | 0, _ => inferInstanceAs (Captures strict env Γ (pure _) _)
  | depth + 1, a => by
    have ih (Γ : List Fact) := exitValue_captures Γ depth
    unfold exitValue
    split
    · infer_instance
    · split
      · infer_instance
      · refine .bind (captures_lift fun _ => inferInstance) fun node => ?_
        split
        · refine .bind inferInstance fun c => ?_
          split <;> infer_instance
        · infer_instance

instance (v : Operand) (a : Availability) :
    Captures strict env Γ (exitVariable v a) fun _ => [] := by
  unfold exitVariable
  infer_instance

instance (kind : ExitKind) (profile : Option Reg) [hp : KnownHere Γ profile.toList] :
    Scoped strict env Γ (buildExit kind profile) fun p => [.here p.2] := by
  refine .bind inferInstance fun s => .bind (P := fun p => [.here p.2.regs.toList]) ?_ fun p => ?_
  · dsimp only [StateT.run]
    have hvariables (Γ : List Fact) (v : Operand × Availability) :
        Captures strict env Γ (do return (v.1, ← exitVariable v.1 v.2)) fun _ => [] := inferInstance
    have hall : Captures strict env Γ (do
        let profiled ← match profile with
          | some r => do pure (some (← capture r))
          | none => pure none
        let values ← s.availability.operands.toList.mapM fun (v, a) =>
          return (v, ← exitVariable v a)
        return (profiled, values)) fun _ => [] := by
      split
      · rename_i r
        have : KnownHere Γ [r] := hp
        infer_instance
      · infer_instance
    exact (hall.run {}).weaken fun h => .cons nofun h
  · refine .bind inferInstance fun env' => .bind inferInstance fun s' => ?_
    refine .bind (P := fun _ => []) (scoped_modify fun _ => ⟨rfl, rfl, rfl, rfl, rfl⟩) fun _ => ?_
    exact scoped_pure fun hΓ => .cons (hΓ (.here p.2.regs.toList) (by simp)) .nil

instance : Scoped strict env Γ countCheck fun _ => [] :=
  inferInstanceAs (Scoped strict env Γ (countStats _) _)

instance (kind : ExitKind) (profile : Option Reg) (failing : Reg) [KnownHere Γ profile.toList]
    [hf : Known Γ failing .i32] :
    Scoped strict env Γ (speculate kind profile failing) fun _ => [] := by
  refine .bind inferInstance fun exit => ⟨fun S s a s' hs hΓ h => ?_⟩
  obtain ⟨cold, s₁, h₁, h⟩ := bind_ok h
  obtain ⟨S₁, d₁, hΓ₁⟩ := (Detour.start hs).createBlock hΓ h₁
  obtain ⟨next, s₂, h₂, h⟩ := bind_ok h
  obtain ⟨S₂, d₂, hΓ₂⟩ := d₁.createBlock hΓ₁ h₂
  obtain ⟨_, s₃, h₃, h⟩ := bind_ok h
  obtain ⟨S₃, d₃, -⟩ := d₂.quiet (Γ := .leads [cold] [] :: .leads [next] [] :: _) hs
    (.cons (d₂.leads (p := ⟨cold, []⟩) (by simp)) (.cons (d₂.leads (p := ⟨next, []⟩) (by simp))
      hΓ₂)) h₃
  obtain ⟨_, s₄, h₄, h⟩ := bind_ok h
  obtain ⟨d₄, -⟩ := d₃.switchTo (p := ⟨cold, []⟩) (by simp) h₄
  obtain ⟨_, s₅, h₅, h⟩ := bind_ok h
  obtain ⟨S₅, d₅, -⟩ := d₄.quiet hs (d₄.hold hΓ) h₅
  obtain ⟨_, s₆, h₆, h⟩ := bind_ok h
  obtain ⟨d₆, -⟩ := d₅.switchTo (p := ⟨next, []⟩) (by simp) h₆
  obtain ⟨S', hF, hC, -⟩ := (inferInstance : Scoped strict env [] countCheck _).follows S₅ s₆ a s'
    (d₆.consistent hs) .nil h
  exact ⟨S', d₆.follows.trans hF, hC, .nil⟩

instance : KnownHere Γ (none : Option Reg).toList := ⟨fun _ => nofun⟩

instance (r : Reg) {ty : Ty} [h : Known Γ r ty] : KnownHere Γ (some r).toList where
  holds hΓ q hq := by
    cases List.mem_singleton.1 hq
    exact (h.holds hΓ).1

instance (kind : ExitKind) (profile : Option Reg) [KnownHere Γ profile.toList] :
    Scoped strict env Γ (exitHere kind profile) fun _ => [] := by
  unfold exitHere
  infer_instance

instance : Scoped strict env Γ invalidateDominated fun _ => [] := scoped_still fun s a s' h => by
  rw [invalidateDominated, read_bind, get_bind] at h
  obtain ⟨facts, -, h⟩ := check_bind_ok h
  cases h
  exact ⟨rfl, rfl, rfl, rfl, rfl⟩

instance : Scoped strict env Γ endUnreachable fun _ => [] := by
  refine .bind inferInstance fun _ => .bind (P :=
    fun _ => []) (scoped_modify fun _ => ⟨rfl, rfl, rfl, rfl, rfl⟩) fun _ => ?_
  infer_instance

instance (kind : ExitKind) : Scoped strict env Γ (terminate kind) fun _ => [] := by
  refine .bind inferInstance fun s => ?_
  have (Γ : List Fact) : Scoped strict env Γ (modify fun s : State => { s with
      stats.terminatedBlocks := s.stats.terminatedBlocks + 1, facts := s.facts.invalidate } :
        Lower Unit) fun _ => [] :=
    scoped_modify fun _ => ⟨rfl, rfl, rfl, rfl, rfl⟩
  infer_instance

/-! ## Checks -/

instance (id : NodeId) (mask : SpecType) (kind : ExitKind) (profile : Option Reg)
    (failing : Lower Reg) [hp : KnownHere Γ profile.toList]
    [hf : Scoped strict env Γ failing fun r => [.reg r .i32]] :
    Scoped strict env Γ (typeCheck id mask kind profile failing) fun _ => [] := by
  refine .bind inferInstance fun known => .bind inferInstance fun s => ?_
  have narrow (Γ : List Fact) : Scoped strict env Γ (do
      let s ← get
      let facts ← s.facts.filter (← read).graph id mask
      set { s with facts } : Lower Unit) fun _ => [] := scoped_still fun s a s' h => by
    rw [get_bind, read_bind] at h
    obtain ⟨facts, -, h⟩ := check_bind_ok h
    cases h
    exact ⟨rfl, rfl, rfl, rfl, rfl⟩
  have hf' : Scoped strict env ([] ++ ([] ++ Γ)) failing fun r => [.reg r .i32] := hf
  infer_instance

instance (id : NodeId) (value : Reg) (mask : SpecType) (failing : Lower Reg) {ty : Ty}
    [Known Γ value ty] [Scoped strict env Γ failing fun r => [.reg r .i32]] :
    Scoped strict env Γ (typeCheckValue id value mask failing) fun _ => [] :=
  inferInstanceAs (Scoped strict env Γ (typeCheck _ _ _ _ _) _)

section Checks

variable (id : NodeId) (value : Reg) [Known Γ value .i64]

instance : Scoped strict env Γ (checkInt32 id value) fun _ => [] := by
  unfold checkInt32
  infer_instance
instance : Scoped strict env Γ (checkCell id value) fun _ => [] := by
  unfold checkCell
  infer_instance
instance : Scoped strict env Γ (checkBoolean id value) fun _ => [] := by
  unfold checkBoolean
  infer_instance

instance (mask : SpecType) (cellType : CellType) :
    Scoped strict env Γ (checkCellType id value mask cellType) fun _ => [] := by
  unfold checkCellType
  infer_instance

instance : Scoped strict env Γ (isNotRealNumber value) fun r => [.reg r .i32] := by
  unfold isNotRealNumber
  infer_instance
instance : Scoped strict env Γ (isNotObjectOrOther value) fun r => [.reg r .i32] := by
  unfold isNotObjectOrOther
  infer_instance

instance (e : Edge) : Scoped strict env Γ (checkUse e value) fun _ => [] := by
  unfold checkUse
  dsimp only
  split <;> infer_instance

end Checks

/-! ## Machine forms -/

theorem scoped_missingForm {P : α → List Fact} {e : Edge} {form : Form} :
    Scoped strict env Γ (missingForm e form : Lower α) P :=
  scoped_crash

instance (e : Edge) (form : Form) :
    Scoped strict env Γ (missingForm e form : Lower α) fun _ => [] := scoped_crash

instance (id : NodeId) (strictReg : Reg) [Known Γ strictReg .i64] :
    Scoped strict env Γ (boxStrictInt52 id strictReg) fun r => [.reg r .i64] := by
  unfold boxStrictInt52
  infer_instance

instance (e : Edge) : Scoped strict env Γ (asStrictInt52 e) fun r => [.reg r .i64] := by
  have hrest (node : Node) (Γ : List Fact) : Scoped strict env Γ (match node.op with
      | .int52Constant n => Emit.int64 n.toInt
      | .jsConstant (.int32 n) => Emit.int64 n.toInt
      | _ => do
        match ← held? e.node .int32 with
        | some narrow => Emit.signExtend narrow
        | none => missingForm e .strictInt52 : Lower Reg) fun r => [.reg r .i64] := by
    have hnone : Scoped strict env Γ (missingForm e .strictInt52 : Lower Reg) fun r =>
      [.reg r .i64] := scoped_missingForm
    split <;> infer_instance
  unfold asStrictInt52
  infer_instance

instance (e : Edge) : Scoped strict env Γ (asInt52 e) fun r => [.reg r .i64] := by
  unfold asInt52
  infer_instance

instance (id : NodeId) : Scoped strict env Γ (boxHeld id) fun r => [.reg r .i64] := by
  have hnone : Scoped strict env Γ (crash (.nothingToBox id) : Lower Reg) fun r => [.reg r .i64] :=
    scoped_crash
  unfold boxHeld
  infer_instance

instance (id : NodeId) : Scoped strict env Γ (boxedNode id) fun r => [.reg r .i64] := by
  refine scoped_held (fun r => inferInstance) (scoped_getNode fun node _ => ?_)
  split <;> infer_instance

instance (e : Edge) : Scoped strict env Γ (asValue e) fun r => [.reg r .i64] := by
  unfold asValue
  infer_instance
instance (e : Edge) : Scoped strict env Γ (asCell e) fun r => [.reg r .i64] := by
  unfold asCell
  infer_instance
instance : Scoped strict env Γ badConstant fun r => [.reg r .i32] := by
  unfold badConstant
  infer_instance

set_option synthInstance.maxSize 1000 in
instance (e : Edge) : Scoped strict env Γ (asInt32 e) fun r => [.reg r .i32] := by
  refine scoped_held (fun r => inferInstance) (scoped_getNode fun node _ => ?_)
  split <;> infer_instance

set_option synthInstance.maxSize 1000 in
instance (e : Edge) : Scoped strict env Γ (asBoolean e) fun r => [.reg r .i32] := by
  refine scoped_held (fun r => inferInstance) (scoped_getNode fun node _ => ?_)
  split <;> infer_instance

instance (e : Edge) : Scoped strict env Γ (doubleOf e) fun r => [.reg r .f64] := by
  refine scoped_held (fun r => inferInstance) (scoped_getNode fun node _ => ?_)
  split
  · infer_instance
  · infer_instance
  · split
    · infer_instance
    · exact scoped_missingForm
  · exact scoped_held (fun r => inferInstance) scoped_missingForm

instance (e : Edge) : Scoped strict env Γ (asDouble e) fun r => [.reg r .f64] := by
  refine .bind inferInstance fun value => ?_
  split <;> infer_instance

instance (e : Edge) : Scoped strict env Γ (asStorage e) fun r => [.reg r .i64] :=
  scoped_held (fun _ => inferInstance) scoped_missingForm

instance (e : Edge) : Scoped strict env Γ (asStorageOrCell e) fun r => [.reg r .i64] := by
  unfold asStorageOrCell
  infer_instance

instance (id : NodeId) (boxed : Reg) [Known Γ boxed .i64] :
    Scoped strict env Γ (unboxNumber id boxed) fun r => [.reg r .f64] := by
  unfold unboxNumber
  infer_instance

end SpecJit.Lowering
