import SpecJit.Proofs.IntegralDouble
import SpecJit.Proofs.Lir.Yields
import SpecJit.Proofs.Lowering.Switch.Strings

/-!
# Where a switch over numbers goes

The code of a switch over numbers whose operand may be anything gets to the target of the first case
with the operand's number, or to the fall-through (`switchNumber_reaches`). An int32 is looked up at
once. A double is converted to an int32 and back, and looked up if it is the same again; both zeros
are.
-/

namespace SpecJit

open Lir

/-- The case is this number. -/
def SwitchCase.isNumber (k : SwitchCase) (d : Double) : Bool :=
  k.number?.any fun n => (Double.ofInt n.toInt).numEq d

/-- The case is the number that the word is. -/
def SwitchCase.matches (k : SwitchCase) (w : Word) : Bool := (Value.asNumber? w).any k.isNumber

namespace Value

/-- A double equals an int32 exactly if it comes back as the same, and then it is converted to it.
-/
theorem numEq_ofInt_iff {n : Int32} {d : Double} :
    (Double.ofInt n.toInt).numEq d = true ↔ (Double.ofInt d.toInt32.toInt).numEq d = true ∧
    d.toInt32 = n := by
  constructor
  · intro h
    have hn := Double.ofInt_isNegativeZero (natAbs_lt_of_int32 n)
    suffices hd : d.toInt32 = n by
      rw [hd]
      exact ⟨h, rfl⟩
    cases hz : d.isNegativeZero with
    | false => rw [← Double.eq_of_numEq h hn hz, toInt32_ofInt]
    | true =>
      obtain rfl : d = .zero true := Double.eq_of_toNat ((Double.isNegativeZero_iff d).1 hz)
      have hkey : (Double.zero true).orderKey = (Double.ofInt (0 : Int32).toInt).orderKey := by
        decide
      have hnan : (Double.zero true).isNaN = (Double.ofInt (0 : Int32).toInt).isNaN := by decide
      have hzero : (Double.ofInt n.toInt).numEq (Double.ofInt (0 : Int32).toInt) = true := by
        rw [← h, Double.numEq, Double.numEq, hkey, hnan]
      have heq := Double.eq_of_numEq hzero hn (by decide)
      rw [← toInt32_ofInt n, heq]
      decide
  · rintro ⟨h, rfl⟩
    exact h

end Value

namespace Lowering

section

variable {α κ : Type} {σ : Type} {m : Machine σ} {c : Config σ} {env : Env} {s s' : State}
  {u : Unit} {w : Word} {data : SwitchData} {targets : Targets}

/-! ## The case that is found -/

/-- The first value with a key. -/
theorem lookup_eq_find? [BEq κ] [LawfulBEq κ] (k : κ) (l : List (κ × α)) :
    l.lookup k = (l.find? (·.1 == k)).map (·.2) := by
  induction l with
  | nil => rfl
  | cons a l ih =>
    rw [List.lookup_cons, List.find?_cons, BEq.comm (a := k)]
    cases a.1 == k with
    | true => rfl
    | false => exact ih

theorem numberCases_lookup (n : Int32) :
    ((numberCases data targets).lookup n).getD targets.fallback =
      targets.goal ((data.cases.find? (·.number? == some n)).map (·.target)) := by
  have hfind : ((data.cases.filterMap fun k => k.number?.map (·, targets.get k.target)).find?
    (·.1 == n)).map (·.2) =
      (data.cases.find? (·.number? == some n)).map fun k => targets.get k.target := by
    induction data.cases with
    | nil => rfl
    | cons k cases ih =>
      rw [List.filterMap_cons, List.find?_cons]
      cases hk : k.number? with
      | none => exact ih
      | some n' =>
        simp only [Option.map_some, List.find?_cons, Option.some_beq_some]
        cases n' == n with
        | true => rfl
        | false => exact ih
  rw [lookup_eq_find?, numberCases, find?_firstOfEach, hfind, Targets.goal, Option.map_map]
  rfl

/-! ## The code -/

theorem lowerSwitchNumber_ok {node : Node} {e : Edge} (hchild : node.child 0 = .ok e)
    (hkind : e.useKind.isInt32 = false) (h : lowerSwitchNumber node data env s = .ok (u, s')) :
    ∃ value targets s₁ s₂, asValue e env s = .ok (value, s₁) ∧
      switchTargets data env s₁ = .ok (targets, s₂) ∧
      switchBoxed value (numberCases data targets) targets.fallback env s₂ = .ok (u, s') := by
  obtain ⟨e', he', h⟩ := check_bind_ok h
  rw [hchild] at he'
  cases he'
  rw [hkind] at h
  obtain ⟨value, s₁, h₁, h⟩ := bind_ok h
  obtain ⟨targets, s₂, h₂, h⟩ := bind_ok h
  exact ⟨value, targets, s₁, s₂, h₁, h₂, h⟩

/-- The number that a double is converted to, if it is no other. -/
def exactInt32? (d : Double) : Option Int32 :=
  if (Double.ofInt d.toInt32.toInt).numEq d then some d.toInt32 else none

/-- The number that a word is looked up as. -/
def lookedUp? (w : Word) : Option Int32 :=
  if Value.isInt32 w then some (Value.unboxInt32 w)
  else if Value.isNumber w then exactInt32? (Value.unboxDouble w)
  else none

section

variable {value : Reg} {cases : List (Int32 × BlockId)} {fallback : BlockId}

/-- The block that a number leads to. -/
def blockOf (cases : List (Int32 × BlockId)) (fallback : BlockId) (n : Option Int32) : BlockId :=
  (n.bind (cases.lookup ·)).getD fallback

theorem switchDouble_heads (h : switchDouble value cases fallback env s = .ok (u, s'))
    (hm : s'.builder.Completes m.func) (hc : m.At s.builder c) (hv : c.Has s.builder value .i64 w)
    (hplain : ∀ n, m.Plain (blockOf cases fallback n)) :
    m.Heads s.builder c
      (blockOf cases fallback (if Value.isNumber w then exactInt32? (Value.unboxDouble w)
        else none)) := by
  obtain ⟨doubleBlock, b₁, h₁, h⟩ := emit_bind_ok h
  obtain ⟨number, b₂, h₂, h⟩ := emit_bind_ok h
  obtain ⟨_, b₃, h₃, h⟩ := emit_bind_ok h
  obtain ⟨_, b₄, h₄, h⟩ := emit_bind_ok h
  obtain rfl := Emit.switchTo_ok h₄
  obtain ⟨double, b₅, h₅, h⟩ := emit_bind_ok h
  obtain ⟨truncated, b₆, h₆, h⟩ := emit_bind_ok h
  obtain ⟨back, b₇, h₇, h⟩ := emit_bind_ok h
  obtain ⟨exact, b₈, h₈, h⟩ := emit_bind_ok h
  obtain ⟨exactBlock, b₉, h₉, h⟩ := emit_bind_ok h
  obtain ⟨_, b₁₀, h₁₀, h⟩ := emit_bind_ok h
  obtain ⟨_, b₁₁, h₁₁, h⟩ := emit_bind_ok h
  obtain rfl := Emit.switchTo_ok h₁₁
  obtain ⟨b₁₂, h₁₂, rfl⟩ := emit_ok h
  -- the two blocks, from where they are made to where they are taken up
  have a₁ := (Awaits.refl hc.wf).createBlock h₁
  have e₂ := (inferInstance : (isNumber value).Tidy).emits _ _ _ a₁.after h₂
  have e₃ := (inferInstance : (Emit.branch number doubleBlock fallback .normal).Tidy).emits _ _ _
    e₂.after h₃
  have a₃ := (a₁.emits e₂).emits e₃
  have a₄ := a₃.goTo_last (P := []) (p := doubleBlock) (Emit.terminate_closed e₂.after h₃)
  have e₅ := (inferInstance : (unboxDouble value).Tidy).emits _ _ _ a₄.after h₅
  have e₆ := (inferInstance : (Emit.doubleToInt .i32 double).Tidy).emits _ _ _ e₅.after h₆
  have e₇ := (inferInstance : (Emit.intToDouble true truncated).Tidy).emits _ _ _ e₆.after h₇
  have e₈ := (inferInstance : (Emit.fcmp .eq back double).Tidy).emits _ _ _ e₇.after h₈
  have a₈ := (((a₄.emits e₅).emits e₆).emits e₇).emits e₈
  have a₉ := a₈.createBlock h₉
  have e₁₀ := (inferInstance : (Emit.branch exact exactBlock fallback .normal).Tidy).emits _ _ _
    a₉.after h₁₀
  have a₁₀ := a₉.emits e₁₀
  have a₁₁ := a₁₀.goTo_last (p := exactBlock) (Emit.terminate_closed a₉.after h₁₀)
  have e₁₂ := (inferInstance : (Emit.switch truncated cases fallback).Tidy).emits _ _ _ a₁₁.after
    h₁₂
  have made₉ := createBlock_made h₉ a₈.after
  have hm₁₀ := (Builder.goTo_extends b₁₀ exactBlock).completes (e₁₂.toExtends.completes hm)
  have hm₉ := e₁₀.toExtends.completes hm₁₀
  have hm₈ := made₉.emits.toExtends.completes hm₉
  have hm₇ := e₈.toExtends.completes hm₈
  have hm₆ := e₇.toExtends.completes hm₇
  have hm₅ := e₆.toExtends.completes hm₆
  have hm₃ := (Builder.goTo_extends b₃ doubleBlock).completes (e₅.toExtends.completes hm₅)
  have hfallback : m.Plain fallback := hplain none
  have f₁ : c.Follows s.builder c b₁ := ⟨a₁.toExtends, .refl _ _⟩
  have hc₁ : m.At b₁ c := (createBlock_made h₁ hc.wf).stands hc
  refine Machine.Heads.grow ?_ a₁.toExtends
  refine (isNumber_yields (hv.later f₁) (.refl c _) hc₁ h₂ (e₃.toExtends.completes hm₃)).heads
    e₂.toExtends fun c₂ hc₂ f₂ hnumber => ?_
  cases ht : Value.isNumber w with
  | false =>
    rw [ht] at hnumber
    exact .here (hc₂.branch h₃ hm₃ hnumber rfl hfallback)
  | true =>
  rw [ht] at hnumber
  have x₄ := e₃.toExtends.trans (Builder.goTo_extends b₃ doubleBlock)
  refine .next (hc₂.branch h₃ hm₃ hnumber rfl ((a₃.waits doubleBlock (by simp)).plain hm₃)) ?_ x₄
  have hc₄ := a₃.at (p := doubleBlock) (by simp) hc₂
  have f₄ := (f₁.trans f₂).trans (.jump x₄ doubleBlock)
  -- the double, the number it is converted to, and whether that is the same
  refine (unboxDouble_yields (hv.later f₄) (.refl _ _) hc₄ h₅ hm₅).heads e₅.toExtends
    fun c₅ hc₅ f₅ hdouble => ?_
  refine (Emit.doubleToInt_yields hdouble (.refl _ _) hc₅ h₆ hm₆).heads e₆.toExtends
    fun c₆ hc₆ f₆ htruncated => ?_
  refine (Emit.intToDouble_yields htruncated (.refl _ _) hc₆ h₇ hm₇).heads e₇.toExtends
    fun c₇ hc₇ f₇ hback => ?_
  refine (Emit.fcmp_yields hback (hdouble.later (f₆.trans f₇)) (.refl _ _) hc₇ h₈ hm₈).heads
    e₈.toExtends fun c₈ hc₈ f₈ hexact => ?_
  have hword : Ty.i32.normalize (doubleToInt .i32 (Value.unboxDouble w)) = ofInt32
    (Value.unboxDouble w).toInt32 :=
    normalize_ofInt32 _
  have heq :
    (FloatCC.eq.eval
      ⟨(Lir.intToDouble .i32 true (Ty.i32.normalize (doubleToInt .i32 (Value.unboxDouble w)))).bits⟩
      (Value.unboxDouble w)) = (Double.ofInt (Value.unboxDouble w).toInt32.toInt).numEq
        (Value.unboxDouble w) := by
    rw [hword]
    simp [FloatCC.eval, intToDouble]
  rw [heq] at hexact
  rw [hword] at htruncated
  refine .grow ?_ made₉.emits.toExtends
  have hc₉ := made₉.stands hc₈
  have f₉ : c₈.Follows b₈ c₈ b₉ := ⟨made₉.emits.toExtends, .refl _ _⟩
  rw [if_pos rfl, exactInt32?]
  cases hsame : (Double.ofInt (Value.unboxDouble w).toInt32.toInt).numEq (Value.unboxDouble w) with
  | false =>
    rw [hsame] at hexact
    exact .here (hc₉.branch h₁₀ hm₁₀ (hexact.later f₉) rfl hfallback)
  | true =>
    rw [hsame] at hexact
    have x₁₁ := e₁₀.toExtends.trans (Builder.goTo_extends b₁₀ exactBlock)
    refine .next (hc₉.branch h₁₀ hm₁₀ (hexact.later f₉) rfl ((a₁₀.waits exactBlock (by simp)).plain
      hm₁₀)) ?_ x₁₁
    have hc₁₁ := a₁₀.at (p := exactBlock) (by simp) hc₉
    have hvalue := htruncated.later ((f₇.trans f₈).trans (f₉.trans (.jump x₁₁ exactBlock)))
    refine .here (hc₁₁.switch h₁₂ hm hvalue ?_ (hplain _))
    rw [low32_ofInt32]
    rfl

theorem switchBoxed_heads (h : switchBoxed value cases fallback env s = .ok (u, s'))
    (hm : s'.builder.Completes m.func) (hc : m.At s.builder c) (hv : c.Has s.builder value .i64 w)
    (hplain : ∀ n, m.Plain (blockOf cases fallback n)) :
    m.Heads s.builder c (blockOf cases fallback (lookedUp? w)) := by
  obtain ⟨intBlock, b₁, h₁, h⟩ := emit_bind_ok h
  obtain ⟨notInt, b₂, h₂, h⟩ := emit_bind_ok h
  obtain ⟨int, b₃, h₃, h⟩ := emit_bind_ok h
  obtain ⟨_, b₄, h₄, h⟩ := emit_bind_ok h
  obtain ⟨_, b₅, h₅, h⟩ := emit_bind_ok h
  obtain rfl := Emit.switchTo_ok h₅
  obtain ⟨narrow, b₆, h₆, h⟩ := emit_bind_ok h
  obtain ⟨_, b₇, h₇, h⟩ := emit_bind_ok h
  obtain ⟨_, b₈, h₈, h⟩ := emit_bind_ok h
  obtain rfl := Emit.switchTo_ok h₈
  have a₂ := ((Awaits.refl hc.wf).createBlock h₁).createBlock h₂
  have e₃ := (inferInstance : (isInt32 value).Tidy).emits _ _ _ a₂.after h₃
  have e₄ := (inferInstance : (Emit.branch int intBlock notInt .normal).Tidy).emits _ _ _ e₃.after
    h₄
  have a₄ := (a₂.emits e₃).emits e₄
  have a₅ := a₄.goTo (p := intBlock) (Emit.terminate_closed e₃.after h₄) (by simp)
  have e₆ := (inferInstance : (Emit.truncate value).Tidy).emits _ _ _ a₅.after h₆
  have e₇ := (inferInstance : (Emit.switch narrow cases fallback).Tidy).emits _ _ _ e₆.after h₇
  have a₇ := (a₅.emits e₆).emits e₇
  have hpending : notInt ∈ (([] ++ [intBlock]) ++ [notInt]).erase intBlock := by simp
  have a₈ := a₇.goTo (Emit.terminate_closed e₆.after h₇) hpending
  have e₉ : (b₇.goTo notInt).Emits [] s'.builder := Tidy.after h (.refl a₈.after)
  have hm₈ := e₉.toExtends.completes hm
  have hm₇ := (Builder.goTo_extends b₇ notInt).completes hm₈
  have hm₄ :=
    (Builder.goTo_extends b₄ intBlock).completes
      (e₆.toExtends.completes (e₇.toExtends.completes hm₇))
  have made₁ := createBlock_made h₁ hc.wf
  have made₂ := createBlock_made h₂ made₁.emits.after
  have hc₂ : m.At b₂ c := made₂.stands (made₁.stands hc)
  have f₂ : c.Follows s.builder c b₂ := ⟨a₂.toExtends, .refl _ _⟩
  refine Machine.Heads.grow ?_ a₂.toExtends
  refine (isInt32_yields (hv.later f₂) (.refl c _) hc₂ h₃ (e₄.toExtends.completes hm₄)).heads
    e₃.toExtends fun c₃ hc₃ f₃ hint => ?_
  have x₅ := e₄.toExtends.trans (Builder.goTo_extends b₄ intBlock)
  have f₅ := (f₂.trans f₃).trans (.jump x₅ intBlock)
  unfold lookedUp?
  cases ht : Value.isInt32 w with
  | true =>
    rw [ht] at hint
    refine .next (hc₃.branch h₄ hm₄ hint rfl ((a₄.waits intBlock (by simp)).plain hm₄)) ?_ x₅
    have hc₅ := a₄.at (p := intBlock) (by simp) hc₃
    refine (Emit.truncate_yields (hv.later f₅) (.refl _ _) hc₅ h₆
      (e₇.toExtends.completes hm₇)).heads e₆.toExtends
      fun c₆ hc₆ f₆ hnarrow => ?_
    refine .here (hc₆.switch h₇ hm₇ hnarrow ?_ (hplain _))
    rw [low32_truncate]
    rfl
  | false =>
    rw [ht] at hint
    have x₈ := x₅.trans (e₆.toExtends.trans (e₇.toExtends.trans (Builder.goTo_extends b₇ notInt)))
    refine .next (hc₃.branch h₄ hm₄ hint rfl ((a₄.waits notInt (by simp)).plain hm₄)) ?_ x₈
    have hc₈ : m.At (b₇.goTo notInt) { c₃ with block := notInt, position := 0 } :=
      a₇.at hpending hc₃
    exact switchDouble_heads h hm hc₈ (hv.later ((f₂.trans f₃).trans (.jump x₈ notInt))) hplain

end

/-! ## The number that is looked up -/

theorem exactInt32?_eq_some {d : Double} {n : Int32} :
    exactInt32? d = some n ↔ (Double.ofInt n.toInt).numEq d = true := by
  rw [Value.numEq_ofInt_iff, exactInt32?]
  split <;> simp_all

theorem lookedUp?_eq (w : Word) : lookedUp? w = (Value.asNumber? w).bind exactInt32? := by
  rw [lookedUp?, Value.asNumber?]
  split
  · exact (exactInt32?_eq_some.2 (Value.numEq_self (Double.isNaN_ofInt _))).symm
  · split <;> rfl

/-- A case is the number of the word exactly if its key is the one that is looked up. -/
theorem matches_eq (k : SwitchCase) (w : Word) :
    k.matches w = (lookedUp? w).any fun n => k.number? == some n := by
  rw [lookedUp?_eq, SwitchCase.matches]
  cases Value.asNumber? w with
  | none => rfl
  | some d =>
    rw [Option.any_some, Option.bind_some, Bool.eq_iff_iff, SwitchCase.isNumber, Option.any_eq_true,
      Option.any_eq_true]
    simp only [beq_iff_eq, exactInt32?_eq_some]
    exact ⟨fun ⟨n, hk, hn⟩ => ⟨n, hn, hk⟩, fun ⟨n, hn, hk⟩ => ⟨n, hk, hn⟩⟩

/-- The cases lead to blocks that take no values. -/
theorem numberCases_plain (h : targets.Plain m) (n : Option Int32) :
    m.Plain (blockOf (numberCases data targets) targets.fallback n) := by
  cases n with
  | none => exact h.fallback
  | some n =>
    have hgoal := h.goal ((data.cases.find? (·.number? == some n)).map (·.target))
    rwa [← numberCases_lookup n] at hgoal

/-- The number that is looked up leads to the first case that is the number of the word. -/
theorem blockOf_lookedUp (w : Word) :
    blockOf (numberCases data targets) targets.fallback (lookedUp? w) =
    targets.goal ((data.cases.find? (·.matches w)).map (·.target)) := by
  have hmatches : (fun k : SwitchCase => k.matches w) = fun k => (lookedUp? w).any fun n =>
    k.number? == some n :=
    funext fun k => matches_eq k w
  rw [hmatches]
  cases lookedUp? w with
  | none =>
    rw [show data.cases.find? (fun k => (none : Option Int32).any fun n => k.number? == some n)
      = none by simp]
    rfl
  | some n => exact numberCases_lookup n

/-! ## The theorem -/

/-- A switch over numbers whose operand may be anything goes to the target of the first case that is
the number of the operand, or to the fall-through. -/
theorem switchNumber_reaches {g : Graph} {options : LoweringOptions} {layout : ObjectLayout}
    {session : Session}
    {id : NodeId} {node operand : Node} {e : Edge} {x : Datum} {known : AbstractValue}
    (hstart : Session.start g options layout = .ok session)
    (hlater : session.state.builder.Extends s.builder)
    (hop : node.op = .switch data) (hkind : data.kind = .imm) (hchild : node.child 0 = .ok e)
    (huse : e.useKind = .untyped)
    (h : lowerOp id node session.env s = .ok ((), s')) (hm : s'.builder.Completes m.func)
    (hc : m.At s.builder c)
    (hvalid : s.facts.valid = true) (hdepth : s.armDepth = 0)
    (hx : Holds session.env s c e.node operand x)
    (hknown : s.facts.factOf session.env.graph e.node = .ok known)
    (htrue : ∀ w, x.BoxesTo known.ty w → known.Describes (Value.kindOf session.env.layout c.memory
      w))
    (hbox : m.BoxesInt52 c.memory) :
    ∃ w, x.BoxesTo known.ty w ∧ Reaches m session.env s s' c (data.targetOf (·.matches w)) := by
  rw [lowerOp, hop] at h
  change lowerSwitch node data session.env s = _ at h
  rw [lowerSwitch, hkind] at h
  obtain ⟨value, targets, s₁, s₂, h₁, h₂, h₃⟩ := lowerSwitchNumber_ok hchild (by rw [huse]; rfl) h
  have e₁ : s.builder.Emits [] s₁.builder := Tidy.after h₁ (.refl hc.wf)
  obtain ⟨x₂, hcont₂⟩ := switchTargets_continue (m := m) h₂ e₁.after
  have e₂ := x₂.emits
  have e₃ : s₂.builder.Emits [] s'.builder := Tidy.after h₃ (.refl e₂.after)
  have hm₂ := e₃.toExtends.completes hm
  have hcont := hcont₂.later e₃.toExtends (Quiet.same _ _ _ _ h₃).upsilons
  have hplain : targets.Plain m :=
    hcont.plain hstart (hlater.trans (e₁.toExtends.trans (e₂.toExtends.trans e₃.toExtends))) hm
  obtain ⟨w, hw, hruns⟩ := asValue_goes h₁ (e₂.toExtends.completes hm₂) hc hvalid hdepth hx hknown
    hbox htrue
  refine ⟨w, hw, (hcont.goal _).reaches hm ?_⟩
  refine (hruns (.inl huse)).heads e₁.toExtends fun c₁ hc₁ f₁ hr => .grow ?_ e₂.toExtends
  rw [← blockOf_lookedUp]
  exact switchBoxed_heads h₃ hm (x₂.stands _ hc₁) (hr.keep e₂.toExtends (.refl _ _))
    (numberCases_plain hplain)

end

/-! A switch on the negative zero, where zero is the key of two cases. -/

namespace ZeroSwitch

def zero : FrozenValue := .double ⟨0x8000000000000000⟩

/-- The word of the negative zero. -/
def word : Word := 0x8001000000000000

def data : SwitchData where
  kind := .imm
  cases := [⟨.int 1, ⟨3⟩⟩, ⟨.char 0, ⟨2⟩⟩, ⟨.int 0, ⟨1⟩⟩]
  fallThrough := ⟨3⟩
  tableIndex := 0

def graph : Graph := ConstantSwitch.graph "zeroSwitch" zero data

/-- The lowering of the switch starts at the start of block 0. -/
def isAsExpected : Bool :=
  match Session.start graph {} {} with
  | .error _ => false
  | .ok session =>
    match lowerOp ⟨1⟩ (ConstantSwitch.node data) session.env (ConstantSwitch.before session) with
    | .error _ => false
    | .ok (_, s') =>
      decide ((Machine.plain s'.builder.func).At (ConstantSwitch.before session).builder
        (ConstantSwitch.config s'.builder.func {})) &&
        Value.kindOf session.env.layout {} word == .nonIntAsDouble

end ZeroSwitch

/-- The negative zero goes to the first of the two cases with zero. -/
theorem switchNumber_reaches_zero :
    ∃ session s', Session.start ZeroSwitch.graph {} {} = .ok session ∧
    lowerOp ⟨1⟩ (ConstantSwitch.node ZeroSwitch.data) session.env
      (ConstantSwitch.before session) = .ok ((), s') ∧
    Reaches (Machine.plain s'.builder.func) session.env (ConstantSwitch.before session) s'
      (ConstantSwitch.config s'.builder.func {}) ⟨2⟩ := by
  have hcheck : ZeroSwitch.isAsExpected = true := by decide +kernel
  unfold ZeroSwitch.isAsExpected at hcheck
  split at hcheck
  · cases hcheck
  rename_i session hstart
  split at hcheck
  · cases hcheck
  rename_i u s' h
  simp only [Bool.and_eq_true, decide_eq_true_eq, beq_iff_eq] at hcheck
  obtain ⟨hc, hkind⟩ := hcheck
  have hgraph : session.env.graph = ZeroSwitch.graph := (Session.start_ok hstart).1
  have hbuilder : session.state.builder.Extends (ConstantSwitch.before session).builder :=
    Builder.goTo_extends _ _
  have htrue : ∀ w, (Datum.boxed ZeroSwitch.word).BoxesTo .bytecodeTop w →
      (AbstractValue.ofType .bytecodeTop).Describes (Value.kindOf session.env.layout {} w) := by
    rintro w (rfl | rfl)
    all_goals exact hkind ▸ ⟨by decide, by decide, nofun⟩
  obtain ⟨w, hw, hreaches⟩ := switchNumber_reaches hstart hbuilder rfl rfl rfl rfl h
    s'.builder.completes_self hc rfl rfl
    (ConstantSwitch.holds _ _ hgraph rfl) (ConstantSwitch.factOf_before hgraph) htrue
    (Machine.plain_boxesInt52 _ _)
  obtain rfl : w = ZeroSwitch.word := by rcases hw with rfl | rfl <;> rfl
  have htarget : ZeroSwitch.data.targetOf (·.matches ZeroSwitch.word) = ⟨2⟩ := by decide +kernel
  rw [htarget] at hreaches
  exact ⟨session, s', hstart, h, hreaches⟩

end Lowering

end SpecJit
