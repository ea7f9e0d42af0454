import SpecJit.Lowering.Node
import SpecJit.Proofs.Lowering.Datum
import SpecJit.Proofs.Lowering.Laws.Operations

/-!
# Numbers through boxing and back

A number that is boxed and read back as a double goes through an encoding twice: boxing chooses one
by the value, reading by the facts.
-/

namespace SpecJit

open Lir

/-- The double that a boxed number is read as, if the facts allow the kinds `ty`. -/
def Value.readAs (ty : SpecType) (w : Word) : Double :=
  if ty.isSubsetOf .int32 || ty.overlaps .int32 && isInt32 w then Double.ofInt (unboxInt32 w).toInt
    else unboxDouble w

/-- What is known of a number after a check that it is one. -/
def AbstractValue.asNumber (known : AbstractValue) : AbstractValue :=
  if known.isType .bytecodeNumber then known else known.filter .bytecodeNumber

/-! ## Numeric nodes -/

/-- A node that yields a number: an operation, with what it yields, or a constant. -/
inductive Source where
  | int32 (n : Int32)
  | int52 (n : Int64)
  | double (d : Double)
  | doubleConstant (d : Double)
  | int52Constant (n : Int64)

/-- How a number gets boxed: the node is used as a boxed value, or through a conversion to one. -/
inductive Route where
  | direct
  | valueRep
deriving DecidableEq

namespace Source

/-- The number, as a double. -/
def number : Source → Double
  | .int32 n => .ofInt n.toInt
  | .int52 n | .int52Constant n => .ofInt n.toInt
  | .double d | .doubleConstant d => d

def datum : Source → Datum
  | .int32 n => .int32 n
  | .int52 n | .int52Constant n => .int52 n
  | .double d => .double d
  | .doubleConstant d => .boxed (Value.boxNumber d)

/-- The node has the operation. -/
def IsOf (x : Source) (op : Op) : Prop :=
  match x with
  | .doubleConstant d => op = .doubleConstant d ∧ d.isNaN = false
  | .int52Constant n => op = .int52Constant n ∧ Value.isInt52 n = true
  | .int52 n => op.constantWord? = none ∧ Value.isInt52 n = true
  | _ => op.constantWord? = none

/-- The kind of the number, as the facts count it. -/
def kind : Source → SpecType
  | .int32 n => .ofInt32 n
  | .int52 n | .int52Constant n => if Value.fitsInt32 n then .ofInt32 n.toInt32 else .int52
  | .double d | .doubleConstant d => .ofDouble d

/-- The fact is true of the number. Constants only count for kinds that a word can have. -/
structure Described (x : Source) (known : AbstractValue) : Prop where
  allowed : x.kind.isSubsetOf known.ty = true
  constant : x.kind.isSubsetOf .bytecodeNumber = true → ∀ c, known.value = some c →
    x.kind.isSubsetOf c.kinds = true

/-- The number is read in another encoding than it was boxed in. -/
def misread (route : Route) (known : AbstractValue) : Source → Bool
  | .int32 _ => false
  | .int52 n | .int52Constant n =>
    !Value.fitsInt32 n && (route == .valueRep || (known.filter .bytecodeNumber).ty.isSubsetOf
      .int32)
  | .double d =>
    route == .direct && SpecType.ofDouble d == .doubleImpureNaN &&
      (known.filter .bytecodeNumber).ty.isSubsetOf .int32
  | .doubleConstant d =>
    route == .direct && (Value.int32OfDouble? d).isSome && !known.ty.overlaps .int32

end Source

/-! ## Encodings -/

namespace Value

variable {ty : SpecType} {w : Word}

theorem readAs_of_subset (h : ty.isSubsetOf .int32 = true) :
    readAs ty w = Double.ofInt (unboxInt32 w).toInt := by
  simp [readAs, h]

theorem readAs_of_isInt32 (h : ty.overlaps .int32 = true) (hw : isInt32 w = true) :
    readAs ty w = Double.ofInt (unboxInt32 w).toInt := by
  simp [readAs, h, hw]

theorem readAs_of_not (h : ty.isSubsetOf .int32 = false)
    (hw : (ty.overlaps .int32 && isInt32 w) = false) :
    readAs ty w = unboxDouble w := by
  simp [readAs, h, hw]

end Value

theorem SpecType.ofInt32_isEmpty (n : Int32) : (SpecType.ofInt32 n).isEmpty = false := by
  unfold SpecType.ofInt32
  split <;> decide

/-- The kinds of doubles. -/
theorem SpecType.ofDouble_cases (d : Double) :
    (SpecType.ofDouble d = .doubleImpureNaN ∧ d.isNaN = true) ∨
    (SpecType.ofDouble d).isSubsetOf .bytecodeDouble = true ∧
    (SpecType.ofDouble d).isEmpty = false := by
  unfold SpecType.ofDouble
  split
  · rename_i h
    split
    · exact .inr (by decide)
    · exact .inl ⟨rfl, h⟩
  · split <;> exact .inr (by decide)

namespace AbstractValue

variable {known : AbstractValue} {kind : SpecType}

theorem Describes.asNumber (h : known.Describes kind) (hk : kind.isSubsetOf .bytecodeNumber = true)
    :
    known.asNumber.Describes kind := by
  unfold AbstractValue.asNumber
  split
  · exact h
  · exact h.filter hk

theorem Describes.asNumber_overlaps (h : known.Describes kind)
    (hk : kind.isSubsetOf .bytecodeNumber = true) :
    known.asNumber.ty.overlaps .int32 = known.ty.overlaps .int32 := by
  unfold AbstractValue.asNumber
  split
  · rfl
  · rw [h.filter_ty hk]
    change (known.ty.bits &&& SpecType.bytecodeNumber.bits &&& SpecType.int32.bits != 0) = _
    rw [UInt64.and_assoc]
    rfl

/-- A kind that no word has makes the check narrow the fact. -/
theorem asNumber_of_not_subset (h : kind.isSubsetOf known.ty = true)
    (hk : kind.isSubsetOf .bytecodeNumber = false) :
    known.asNumber = known.filter .bytecodeNumber := by
  unfold asNumber
  rw [if_neg]
  intro hn
  rw [SpecType.subset_trans h hn] at hk
  cases hk

end AbstractValue

namespace Source

variable {x : Source} {known : AbstractValue} {w : Word}

theorem kind_isEmpty (x : Source) : x.kind.isEmpty = false := by
  have hd (d : Double) : (SpecType.ofDouble d).isEmpty = false := by
    rcases SpecType.ofDouble_cases d with ⟨h, -⟩ | h
    · rw [h]
      decide
    · exact h.2
  cases x with
  | int32 n => exact SpecType.ofInt32_isEmpty n
  | int52 n | int52Constant n =>
    simp only [kind]
    split
    · exact SpecType.ofInt32_isEmpty _
    · decide
  | double d | doubleConstant d => exact hd d

theorem Described.describes (h : x.Described known) (hk : x.kind.isSubsetOf .bytecodeNumber = true)
    :
    known.Describes x.kind :=
  ⟨x.kind_isEmpty, h.allowed, h.constant hk⟩

/-- An int32 is read as an int32. -/
theorem readAs_boxInt32 {n : Int32} (h : known.Describes (.ofInt32 n)) :
    Value.readAs known.asNumber.ty (Value.boxInt32 n) = .ofInt n.toInt := by
  have hsub := SpecType.ofInt32_subset n
  have hdesc := h.asNumber (SpecType.subset_trans hsub (by decide))
  rw [Value.readAs_of_isInt32 (SpecType.overlaps_of_subset h.inhabited hdesc.allowed hsub)
    (Value.isInt32_boxInt32 n),
    Value.unboxInt32_boxInt32]

/-- A double is read as a double, unless the facts leave nothing but int32. -/
theorem readAs_boxDouble {ty : SpecType} (h : ty.isSubsetOf .int32 = false) (d : Double) :
    Value.readAs ty (Value.boxDouble d) = Value.purifyNaN d := by
  rw [Value.readAs_of_not h (by rw [Value.isInt32_boxDouble, Bool.and_false]),
    Value.unboxDouble_boxDouble]

theorem not_subset_int32 {kind ty : SpecType} (h : kind.isSubsetOf ty = true)
    (hk : kind.isSubsetOf .int32 = false) :
    ty.isSubsetOf .int32 = false := by
  rw [← Bool.not_eq_true]
  intro hty
  rw [SpecType.subset_trans h hty] at hk
  cases hk

/-- An integer of 52 bits is read right exactly if it fits an int32 or the facts allow a double. -/
theorem readAs_int52_iff {n : Int64} (hn : Value.isInt52 n = true)
    (h : (Source.int52 n).Described known)
    (hw : w = Value.boxInt52 n ∨ w = Datum.box known.ty (.int52 n)) :
    (Value.readAs known.asNumber.ty w).Same (.ofInt n.toInt) ↔ (Source.int52 n).misread .direct
      known = false := by
  cases hfits : Value.fitsInt32 n with
  | true =>
    have hbox : Value.boxInt52 n = Value.boxInt32 n.toInt32 := if_pos hfits
    have hw' : w = Value.boxInt32 n.toInt32 := by
      rcases hw with rfl | rfl
      · exact hbox
      · rw [Datum.box]
        split
        · rfl
        · exact hbox
    have hkind : (Source.int52 n).kind = .ofInt32 n.toInt32 := by simp [kind, hfits]
    have hdesc :=
      h.describes
        (by rw [hkind]; exact SpecType.subset_trans (SpecType.ofInt32_subset _) (by decide))
    rw [hkind] at hdesc
    rw [hw', readAs_boxInt32 hdesc, Value.toInt_of_fitsInt32 hfits]
    simp [misread, hfits, Double.Same]
  | false =>
    have hkind : (Source.int52 n).kind = .int52 := by simp [kind, hfits]
    have hallowed := h.allowed
    rw [hkind] at hallowed
    have hty : known.ty.isSubsetOf .int32 = false := not_subset_int32 hallowed (by decide)
    have hbox : Value.boxInt52 n = Value.boxDouble (.ofInt n.toInt) :=
      if_neg (by simpa [Value.fitsInt32] using hfits)
    have hw' : w = Value.boxDouble (.ofInt n.toInt) := by
      rcases hw with rfl | rfl
      · exact hbox
      · rw [Datum.box, if_neg (by rw [hty]; exact Bool.false_ne_true), hbox]
    rw [AbstractValue.asNumber_of_not_subset hallowed (by decide), hw']
    cases hnarrow : (known.filter .bytecodeNumber).ty.isSubsetOf .int32 with
    | true =>
      rw [Value.readAs_of_subset hnarrow]
      have hne := Value.not_same_of_not_fitsInt32 hn hfits
      simp [misread, hfits, hnarrow, hne]
    | false =>
      rw [readAs_boxDouble hnarrow,
        Value.purifyNaN_of_not_isNaN (Double.ofInt_isNaN (Value.natAbs_lt_of_isInt52 hn))]
      simp [misread, hfits, hnarrow, Double.Same]

/-- A double is boxed as it is, NaNs apart. -/
theorem exists_box_double {d : Double} (h : (Source.double d).Described known) :
    ∃ d', Datum.box known.ty (.double d) = Value.boxDouble d' ∧ d'.Same d := by
  rw [Datum.box]
  cases hpure : known.ty.couldBeImpureNaN && d.isNaN with
  | true => exact ⟨.pureNaN, rfl, .inr ⟨by decide, (Bool.and_eq_true_iff.1 hpure).2⟩⟩
  | false =>
    refine ⟨d, ?_, .inl rfl⟩
    have hbits : Value.isImpureNaN d.bits = false := by
      rw [← Bool.not_eq_true]
      intro himpure
      have hnan := Value.isNaN_of_isImpureNaN himpure
      have hkind : SpecType.ofDouble d = .doubleImpureNaN := by
        have hne : (d == Double.pureNaN) = false := by
          rw [beq_eq_false_iff_ne]
          rintro rfl
          exact absurd himpure (by decide)
        simp [SpecType.ofDouble, hnan, hne]
      have hallowed := h.allowed
      simp only [kind, hkind] at hallowed
      have hover : known.ty.couldBeImpureNaN = true :=
        SpecType.overlaps_of_subset (by decide) hallowed (by decide)
      simp [hover, hnan] at hpure
    simp [Value.boxDouble, Value.purifyNaN, hbits]

theorem double_not_int32 {kind : SpecType} (hne : kind.isEmpty = false)
    (hsub : kind.isSubsetOf .bytecodeDouble = true) :
    kind.isSubsetOf .int32 = false := by
  rw [← Bool.not_eq_true]
  intro hint
  exact absurd (SpecType.overlaps_of_subset hne hsub hint) (by decide)

/-- A double is read right, unless it is a NaN of which the facts leave nothing but int32. -/
theorem readAs_double_iff {d : Double} (h : (Source.double d).Described known)
    (hw : (Datum.double d).Shows .jsValue w ∨ w = Datum.box known.ty (.double d)) :
    (Value.readAs known.asNumber.ty w).Same d ↔ (Source.double d).misread .direct
      known = false := by
  obtain ⟨d', rfl, hsame⟩ : ∃ d', w = Value.boxDouble d' ∧ d'.Same d := by
    rcases hw with (rfl | ⟨hnan, rfl⟩) | rfl
    · exact ⟨d, rfl, .refl d⟩
    · exact ⟨.pureNaN, rfl, .inr ⟨by decide, hnan⟩⟩
    · exact exists_box_double h
  have hright (hty : known.asNumber.ty.isSubsetOf .int32 = false) :
      (Value.readAs known.asNumber.ty (Value.boxDouble d')).Same d := by
    rw [readAs_boxDouble hty]
    exact (Value.purifyNaN_same d').trans hsame
  rcases SpecType.ofDouble_cases d with ⟨hkind, hnan⟩ | ⟨hsub, hne⟩
  · have hallowed := h.allowed
    simp only [kind, hkind] at hallowed
    have hnumber := AbstractValue.asNumber_of_not_subset hallowed (by decide)
    cases hnarrow : (known.filter .bytecodeNumber).ty.isSubsetOf .int32 with
    | true =>
      simp only [misread, hkind, hnarrow, hnumber, Value.readAs_of_subset hnarrow]
      have hint :=
        Double.ofInt_isNaN (Value.natAbs_lt_of_int32 (Value.unboxInt32 (Value.boxDouble d')))
      refine ⟨?_, fun hfalse => by cases hfalse⟩
      rintro (heq | ⟨hnan', -⟩)
      · rw [heq, hnan] at hint
        cases hint
      · rw [hnan'] at hint
        cases hint
    | false =>
      rw [← hnumber] at hnarrow
      refine ⟨fun _ => ?_, fun _ => hright hnarrow⟩
      rw [hnumber] at hnarrow
      simp [misread, hnarrow]
  · have hdesc := (h.describes (SpecType.subset_trans hsub (by decide))).asNumber
      (SpecType.subset_trans hsub (by decide))
    have hdouble : (Source.double d).kind.isSubsetOf .int32 = false := double_not_int32 hne hsub
    have hpure : (SpecType.ofDouble d == SpecType.doubleImpureNaN) = false := by
      rw [beq_eq_false_iff_ne]
      intro hkind
      rw [hkind] at hsub
      exact absurd hsub (by decide)
    refine ⟨fun _ => ?_, fun _ => hright (not_subset_int32 hdesc.allowed hdouble)⟩
    simp [misread, hpure]

/-- A double constant is boxed as an int32 if it is one, and read right unless the facts rule out
int32. -/
theorem readAs_doubleConstant_iff {d : Double} (hd : d.isNaN = false)
    (h : (Source.doubleConstant d).Described known) :
    (Value.readAs known.asNumber.ty (Value.boxNumber d)).Same d ↔
      (Source.doubleConstant d).misread .direct known = false := by
  obtain ⟨hsub, hne⟩ := (SpecType.ofDouble_cases d).resolve_left fun hnan => by simp [hd] at hnan
  have hnumber : (Source.doubleConstant d).kind.isSubsetOf .bytecodeNumber = true :=
    SpecType.subset_trans hsub (by decide)
  have hdesc := h.describes hnumber
  have hnot := not_subset_int32 (hdesc.asNumber hnumber).allowed (double_not_int32 hne hsub)
  have hover := hdesc.asNumber_overlaps hnumber
  cases hint : Value.int32OfDouble? d with
  | none =>
    have hbox : Value.boxNumber d = Value.boxDouble d := by simp [Value.boxNumber, hint]
    rw [hbox, readAs_boxDouble hnot, Value.purifyNaN_of_not_isNaN hd]
    simp [misread, hint, Double.Same]
  | some n =>
    have hbox : Value.boxNumber d = Value.boxInt32 n := by simp [Value.boxNumber, hint]
    have hint32 := Value.isInt32_boxInt32 n
    rw [hbox]
    cases hty : known.ty.overlaps .int32 with
    | true =>
      rw [Value.readAs_of_isInt32 (hover.trans hty) hint32, Value.unboxInt32_boxInt32,
        ← Value.eq_ofInt_of_int32OfDouble? hint]
      simp [misread, hty, Double.Same]
    | false =>
      rw [Value.readAs_of_not hnot (by rw [hover, hty, Bool.false_and])]
      have hnan := Value.isNaN_unboxDouble hint32
      refine ⟨?_, fun hfalse => by simp [misread, hint, hty] at hfalse⟩
      rintro (heq | ⟨-, hnan'⟩)
      · rw [heq, hd] at hnan
        cases hnan
      · rw [hd] at hnan'
        cases hnan'

/-- A number used as a boxed value is read right exactly if it is not misread. -/
theorem readAs_iff {op : Op} (hx : x.IsOf op) (h : x.Described known)
    (hw : x.datum.Shows .jsValue w ∨ op.constantWord? = none ∧ w = x.datum.box known.ty) :
    (Value.readAs known.asNumber.ty w).Same x.number ↔ x.misread .direct known = false := by
  cases x with
  | int32 n =>
    have hdesc := h.describes (SpecType.subset_trans (SpecType.ofInt32_subset n) (by decide))
    have hbox : w = Value.boxInt32 n := by rcases hw with hw | ⟨-, hw⟩ <;> exact hw
    rw [hbox, readAs_boxInt32 hdesc]
    simp [misread, number, Double.Same]
  | int52 n => exact readAs_int52_iff hx.2 h (hw.imp_right And.right)
  | double d => exact readAs_double_iff h (hw.imp_right And.right)
  | doubleConstant d =>
    have hbox : w = Value.boxNumber d := by
      rcases hw with hw | ⟨hconst, -⟩
      · exact hw
      · rw [hx.1] at hconst
        cases hconst
    rw [hbox]
    exact readAs_doubleConstant_iff hx.2 h
  | int52Constant n =>
    have hbox : w = Value.boxInt52 n := by
      rcases hw with hw | ⟨hconst, -⟩
      · exact hw
      · rw [hx.1] at hconst
        cases hconst
    exact readAs_int52_iff hx.2 ⟨h.allowed, h.constant⟩ (.inl hbox)

end Source

namespace Lowering

variable {σ : Type} {m : Machine σ} {c : Config σ} {env : Env} {s s' : State} {id v : NodeId}
  {node : Node} {r boxed : Reg} {w : Word} {known : AbstractValue} {e : Edge} {u : Unit}

/-! ## Reading a number -/

/-- Looking up the kinds of a node does not build anything. -/
theorem typeOfNode_same {ty : SpecType} (h : typeOfNode id env s = .ok (ty, s')) : s' = s := by
  rw [typeOfNode, get_bind, read_bind] at h
  exact (check_ok h).2

theorem typeOfNode_ok {ty : SpecType} (h : typeOfNode id env s = .ok (ty, s'))
    (hknown : s.facts.factOf env.graph id = .ok known) : ty = known.ty ∧ s' = s := by
  rw [typeOfNode, get_bind, read_bind] at h
  obtain ⟨h, rfl⟩ := check_ok h
  rw [AbstractState.typeOf, hknown] at h
  cases h
  exact ⟨rfl, rfl⟩

theorem ofInt32_yields {b : Builder} (h : c.Has b boxed .i64 w) :
    (do Emit.intToDouble true (← Emit.truncate boxed)).Yields m b c .f64
      (Double.ofInt (Value.unboxInt32 w).toInt).bits := by
  refine (Emit.truncate_yields h).bind fun _ hlow => (Emit.intToDouble_yields hlow).congr ?_
  simp only [Lir.intToDouble, low32_truncate]
  rfl

/-- A boxed number is read in the encoding that the facts allow, or in the one it has if they allow
both. -/
theorem unboxNumber_runs (h : unboxNumber id boxed env s = .ok (r, s'))
    (hm : s'.builder.Completes m.func) (hc : m.At s.builder c) (hr : c.Has s.builder boxed .i64 w)
    (hknown : s.facts.factOf env.graph id = .ok known) :
    m.Runs s.builder c s'.builder fun c' =>
      c'.Has s'.builder r .f64 (Value.readAs known.ty w).bits := by
  obtain ⟨ty, s₁, h₁, h₂⟩ := bind_ok h
  obtain ⟨rfl, rfl⟩ := typeOfNode_ok h₁ hknown
  unfold Value.readAs
  by_cases hsub : known.ty.isSubsetOf .int32 = true
  · rw [if_pos hsub] at h₂
    rw [hsub, Bool.true_or, if_pos rfl]
    exact Yields.ofEmit (ofInt32_yields hr) (.refl c _) hc h₂ hm
  rw [if_neg hsub] at h₂
  rw [Bool.eq_false_iff.2 hsub, Bool.false_or]
  cases hover : known.ty.overlaps .int32 with
  | false =>
    rw [hover, Bool.not_false, if_pos rfl] at h₂
    rw [Bool.false_and, if_neg Bool.false_ne_true]
    exact Yields.ofEmit (unboxDouble_yields hr) (.refl c _) hc h₂ hm
  | true =>
    rw [hover, Bool.not_true, if_neg Bool.false_ne_true] at h₂
    rw [Bool.true_and]
    refine Yields.bind (.ofEmit (isInt32_yields hr)) (fun hf hint => ?_) (.refl c _) hc h₂ hm
    refine test_yields hint (fun hz => ?_) fun hz => ?_
    · exact (Yields.ofEmit (ofInt32_yields (hr.later hf))).congr (by rw [if_pos hz])
    · exact (Yields.ofEmit (unboxDouble_yields (hr.later hf))).congr
        (by rw [hz, if_neg Bool.false_ne_true])

/-- A check that a number is one leaves, or goes on and the fact is narrowed to numbers. -/
theorem checkNumber_cases (h : checkUse e boxed env s = .ok (u, s')) (he : e.useKind = .number)
    (hm : s'.builder.Completes m.func) (hc : m.At s.builder c) (hr : c.Has s.builder boxed .i64 w)
    (hvalid : s.facts.valid = true) (hdepth : s.armDepth = 0)
    (hknown : s.facts.factOf env.graph e.node = .ok known) :
    m.Leaves s'.builder c ∨ (m.Runs s.builder c s'.builder (fun _ => True) ∧ s'.armDepth = 0 ∧
      s'.facts.factOf env.graph e.node = .ok known.asNumber) := by
  obtain ⟨id, k, kill⟩ := e
  subst he
  have hy : Yields m env s.builder c (do negated (← isNumber boxed)) .i32
    (ofBool !Value.isNumber w) :=
    .bind (.ofEmit (isNumber_yields hr)) fun _ ht => .ofEmit (negated_yields ht)
  refine (typeCheck_cases h hm hc hvalid hdepth hknown hy).imp_right fun ⟨hruns, hsame, hfacts⟩ =>
    ?_
  refine ⟨hruns, hsame.armDepth.trans hdepth, ?_⟩
  unfold AbstractValue.asNumber
  rcases hfacts with ⟨hsub, hfacts⟩ | ⟨hsub, -, hfacts⟩
  · rw [if_pos hsub, hfacts]
    exact hknown
  · rw [if_neg (by rw [hsub]; exact Bool.false_ne_true), hfacts]
    exact AbstractState.factOf_narrowTo ..

theorem setResult_ok {form : Form} (h : setResult id r env s = .ok (u, s'))
    (hnode : env.graph.node id = .ok node) (hform : node.result.form? = some form)
    (hdepth : s.armDepth = 0) :
    s' = { s with values := ((id, form), r, s.block) :: s.values } := by
  rw [setResult] at h
  obtain ⟨node', hnode', h⟩ := getNode_bind_ok h
  rw [hnode] at hnode'
  cases hnode'
  rw [hform] at h
  cases h
  simp only [hdepth, ↓reduceIte]

/-- A conversion of a boxed number to a double leaves, or reads the number as the facts say. -/
theorem doubleRep_runs (h : lowerOp id node env s = .ok (u, s'))
    (hnode : env.graph.node id = .ok node)
    (hop : node.op = .doubleRep) (hresult : node.result = .double) (hchild : node.children = [e])
    (he : e.useKind = .number) (hm : s'.builder.Completes m.func) (hc : m.At s.builder c)
    (hvalid : s.facts.valid = true) (hdepth : s.armDepth = 0)
    (hknown : s.facts.factOf env.graph e.node = .ok known)
    (hword : ∀ {r s₁}, boxedNode e.node env s = .ok (r, s₁) → s₁.builder.Completes m.func →
      m.Runs s.builder c s₁.builder fun c' => c'.Has s₁.builder r .i64 w) :
    m.Leaves s'.builder c ∨ ∃ r, s'.values.lookup (id, .double) = some (r, s'.block) ∧
      m.Runs s.builder c s'.builder fun c' =>
        c'.Has s'.builder r .f64 (Value.readAs known.asNumber.ty w).bits := by
  have hlower : (do setResult id (← unboxNumber e.node (← asValue e)) : Lower Unit) env s = .ok (u,
    s') := by
    simp only [lowerOp, hop, lowerDoubleRep] at h
    obtain ⟨e', he', h⟩ := check_bind_ok h
    rw [Node.child, hchild] at he'
    cases he'
    rw [he] at h
    exact h
  obtain ⟨boxed, s₂, hvalue, hlower⟩ := bind_ok hlower
  obtain ⟨boxed', s₁, h₁, hvalue⟩ := bind_ok hvalue
  obtain ⟨_, s₂', h₂, hvalue⟩ := bind_ok hvalue
  cases hvalue
  obtain ⟨r, s₃, h₃, h₄⟩ := bind_ok hlower
  have e₁ : s.builder.Emits [] s₁.builder := Tidy.after h₁ (.refl hc.wf)
  have e₂ : s₁.builder.Emits [] s₂.builder := Tidy.after h₂ (.refl e₁.after)
  have e₃ : s₂.builder.Emits [] s₃.builder := Tidy.after h₃ (.refl e₂.after)
  obtain ⟨hfacts₁, hdepth₁⟩ := (inferInstance : KeepsFacts (boxedNode e.node)).kept _ _ _ _ h₁
  have hfinal (hdepth₂ : s₂.armDepth = 0) :
    s' = { s₃ with values := ((id, .double), r, s₃.block) :: s₃.values } := by
    obtain ⟨-, hdepth₃⟩ := (inferInstance : KeepsFacts (unboxNumber e.node boxed)).kept _ _ _ _ h₃
    exact setResult_ok h₄ hnode (by rw [hresult]; rfl) (hdepth₃.trans hdepth₂)
  have e₄ : s₃.builder.Emits [] s'.builder := Tidy.after h₄ (.refl e₃.after)
  have hm₃ := e₄.toExtends.completes hm
  have hm₂ := e₃.toExtends.completes hm₃
  obtain ⟨c₁, hgoes₁, hc₁, hk₁, hr₁⟩ := hword h₁ (e₂.toExtends.completes hm₂)
  have hruns₁ : m.Runs s.builder c s₁.builder (· = c₁) := ⟨c₁, hgoes₁, hc₁, hk₁, rfl⟩
  rcases checkNumber_cases h₂ he hm₂ hc₁ hr₁ (by rw [hfacts₁]; exact hvalid) (hdepth₁.trans hdepth)
    (by rw [hfacts₁]; exact hknown) with hleave | ⟨hruns₂, hdepth₂, hknown₂⟩
  · have hleave' : m.Leaves s₂.builder c := hruns₁.leaves e₂.toExtends fun c' _ _ hc' => hc' ▸
      hleave
    exact .inl ((hleave'.grow e₃.toExtends).grow e₄.toExtends)
  · have hs' := hfinal hdepth₂
    refine .inr ⟨r, by simp [hs'], ?_⟩
    refine hruns₁.bind e₁.toExtends (e₂.trans (e₃.trans e₄)).toGrows fun c' _ _ hc' => ?_
    subst hc'
    refine hruns₂.bind e₂.toExtends (e₃.trans e₄).toGrows fun c₂ hc₂ hk₂ _ => ?_
    have hruns₃ := unboxNumber_runs h₃ hm₃ hc₂ (hr₁.keep e₂.toExtends hk₂) hknown₂
    rw [hs']
    exact hruns₃

end Lowering

end SpecJit
