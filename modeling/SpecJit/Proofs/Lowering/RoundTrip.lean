import SpecJit.Proofs.Lowering.Conversion
import SpecJit.Proofs.Lowering.DeadEnds

/-!
# Numbers that are boxed and converted back

A conversion to a double reads a boxed number as the facts about the boxed node say. A node that is
used as a boxed value brings its own facts, and a conversion to a boxed value copies the facts about
the unboxed number. Either way the number that comes back is the one that went in, unless it is
misread (`converted_back_iff`).
-/

namespace SpecJit

open Lir

namespace SpecType

variable {a b c t : SpecType}

theorem not_overlaps_of_subset (h : a.isSubsetOf b = true) (hb : b.overlaps c = false) :
    a.overlaps c = false := by
  rw [← Bool.not_eq_true]
  intro hover
  have hne : (a &&& c).isEmpty = false := by
    change ((a.bits &&& c.bits) == 0) = false
    simpa [overlaps] using hover
  rw [overlaps_of_subset hne (subset_trans and_subset_left h) and_subset_right] at hb
  cases hb

theorem purified_of_subset (h : t.isSubsetOf b = true) (hb : b.overlaps .doubleImpureNaN = false) :
    t.purified = t := by
  unfold purified
  rw [if_neg]
  rw [couldBeImpureNaN, not_overlaps_of_subset h hb]
  exact Bool.false_ne_true

/-- Canonical doubles are doubles that a word can hold. -/
theorem purified_double (h : t.isSubsetOf .fullDouble = true) (hne : t.isEmpty = false) :
    t.purified.isSubsetOf .bytecodeDouble = true ∧ t.purified.isEmpty = false := by
  have hfull : SpecType.fullDouble.bits = SpecType.bytecodeDouble.bits |||
    SpecType.doubleImpureNaN.bits := by decide
  rw [isSubsetOf_iff, hfull] at h
  unfold purified couldBeImpureNaN
  split
  · constructor
    · rw [isSubsetOf_iff]
      intro i hi
      change (t.bits &&& ~~~SpecType.doubleImpureNaN.bits |||
        SpecType.doublePureNaN.bits).toBitVec.getLsbD i = true at hi
      have hpure : SpecType.bytecodeDouble.bits = SpecType.doublePureNaN.bits |||
        SpecType.doubleReal.bits := by decide
      have hbit := h i
      simp only [UInt64.toBitVec_or, UInt64.toBitVec_and, UInt64.toBitVec_not, BitVec.getLsbD_or,
        BitVec.getLsbD_and, BitVec.getLsbD_not, Bool.or_eq_true, Bool.and_eq_true] at hi hbit
      rcases hi with hi | hi
      · rcases hbit hi.1 with hb | hb
        · exact hb
        · simp [hb] at hi
      · rw [hpure]
        simp [hi]
    · change ((t.bits &&& ~~~SpecType.doubleImpureNaN.bits ||| SpecType.doublePureNaN.bits) == 0)
        = false
      rw [beq_eq_false_iff_ne]
      intro hz
      have hbit := congrArg (fun w : UInt64 => w.toBitVec.getLsbD 25) hz
      simp [SpecType.doublePureNaN] at hbit
  · rename_i hover
    refine ⟨?_, hne⟩
    rw [isSubsetOf_iff]
    intro i hi
    have hz : t.bits &&& SpecType.doubleImpureNaN.bits = 0 := by simpa [overlaps] using hover
    have hbit := congrArg (fun w : UInt64 => w.toBitVec.getLsbD i) hz
    have hbit' := h i hi
    simp only [UInt64.toBitVec_or, BitVec.getLsbD_or, Bool.or_eq_true] at hbit'
    refine hbit'.resolve_right fun himp => ?_
    simp [hi, himp] at hbit

end SpecType

/-- What is known of a number that was converted to a boxed value. -/
def AbstractValue.converted (known : AbstractValue) (k : UseKind) : AbstractValue :=
  { known.filter k.typeFilter with ty := (known.filter k.typeFilter).ty.purified }

namespace Source

variable {x : Source} {known : AbstractValue} {k : UseKind} {op : Op}

/-- The number in the form in which its node yields it. -/
def plain : Source → Datum
  | .int32 n => .int32 n
  | .int52 n | .int52Constant n => .int52 n
  | .double d | .doubleConstant d => .double d

/-- A use of the kind takes the number in the form in which its node yields it. -/
def readBy : Source → UseKind → Bool
  | .int32 _, .int32 | .int32 _, .knownInt32 => true
  | .int52 _, .int52Rep | .int52Constant _, .int52Rep => true
  | .double _, .doubleRep | .doubleConstant _, .doubleRep => true
  | _, _ => false

/-- The form in which an operation that yields the number holds it. -/
def form? : Source → Option Form
  | .int32 _ => some .int32
  | .double _ => some .double
  | _ => none

theorem converted_describes {kind : SpecType} (h : known.Describes kind)
    (hk : kind.isSubsetOf k.typeFilter = true)
    (hpure : k.typeFilter.overlaps .doubleImpureNaN = false) :
    (known.converted k).Describes kind := by
  have hfilter := h.filter hk
  have hty : (known.converted k).ty = (known.filter k.typeFilter).ty :=
    SpecType.purified_of_subset (AbstractValue.filter_ty_subset known k.typeFilter) hpure
  exact ⟨hfilter.inhabited, by rw [hty]; exact hfilter.allowed, hfilter.constant⟩

/-- An integer of 52 bits that was converted is read right exactly if it fits an int32. -/
theorem readAs_converted_int52_iff {n : Int64} (hn : Value.isInt52 n = true)
    (h : (Source.int52 n).Described known) :
    (Value.readAs (known.converted .int52Rep).asNumber.ty (Datum.box known.ty (.int52 n))).Same
      (.ofInt n.toInt) ↔
      (Source.int52 n).misread .valueRep known = false := by
  cases hfits : Value.fitsInt32 n with
  | true =>
    have hbox : Datum.box known.ty (.int52 n) = Value.boxInt32 n.toInt32 := by
      rw [Datum.box]
      split
      · rfl
      · exact if_pos hfits
    have hkind : (Source.int52 n).kind = .ofInt32 n.toInt32 := by simp [kind, hfits]
    have hint := SpecType.ofInt32_subset n.toInt32
    have hdesc := h.describes (by rw [hkind]; exact SpecType.subset_trans hint (by decide))
    rw [hkind] at hdesc
    have hconv :=
      converted_describes (k := .int52Rep) hdesc (SpecType.subset_trans hint (by decide))
        (by decide)
    rw [hbox, readAs_boxInt32 hconv, Value.toInt_of_fitsInt32 hfits]
    simp [misread, hfits, Double.Same]
  | false =>
    -- the check for a number leaves nothing but int32
    have hsub : (known.converted .int52Rep).ty.isSubsetOf .machineInt = true := by
      have hfilter := AbstractValue.filter_ty_subset known .machineInt
      change ((known.filter .machineInt).ty.purified).isSubsetOf .machineInt = true
      rwa [SpecType.purified_of_subset hfilter (by decide)]
    have hint : (known.converted .int52Rep).asNumber.ty.isSubsetOf .int32 = true := by
      have hboth {t : SpecType} (h₁ : t.isSubsetOf .machineInt = true)
        (h₂ : t.isSubsetOf .bytecodeNumber = true) :
          t.isSubsetOf .int32 = true :=
            SpecType.subset_trans (SpecType.subset_and h₁ h₂) (by decide)
      unfold AbstractValue.asNumber
      split
      · rename_i hnumber
        exact hboth hsub hnumber
      · refine hboth (SpecType.subset_trans ?_ hsub) (AbstractValue.filter_ty_subset _ _)
        simp only [AbstractValue.filter]
        split
        · exact SpecType.and_subset_left
        · simp [SpecType.isSubsetOf, SpecType.none]
    rw [Value.readAs_of_subset hint]
    have hne := Value.not_same_of_not_fitsInt32 hn hfits
    simp [misread, hfits, hne]

/-- A double that was converted is read as a double. -/
theorem readAs_converted_double {d d' : Double}
    (hne : (known.filter .fullDouble).ty.isEmpty = false) (hsame : d'.Same d) :
    (Value.readAs (known.converted .doubleRep).asNumber.ty (Value.boxDouble d')).Same d := by
  obtain ⟨hsub, hne'⟩ := SpecType.purified_double (AbstractValue.filter_ty_subset known .fullDouble)
    hne
  have hnumber : (known.converted .doubleRep).asNumber = known.converted .doubleRep :=
    if_pos (SpecType.subset_trans hsub (by decide))
  have hint : (known.converted .doubleRep).ty.isSubsetOf .int32 = false :=
    double_not_int32 hne' hsub
  rw [hnumber, readAs_boxDouble hint]
  exact (Value.purifyNaN_same d').trans hsame

/-- A number that was converted to a boxed value is read right exactly if it is not misread. -/
theorem readAs_converted_iff (hx : x.IsOf op) (hk : x.readBy k = true) (h : x.Described known)
    (hne : (known.filter k.typeFilter).ty.isEmpty = false) :
    (Value.readAs (known.converted k).asNumber.ty (x.plain.box known.ty)).Same x.number ↔
      x.misread .valueRep known = false := by
  cases x with
  | int32 n =>
    have hint := SpecType.ofInt32_subset n
    have hdesc := h.describes (SpecType.subset_trans hint (by decide))
    have hfilter : k.typeFilter = .int32 := by cases k <;> first | rfl | cases hk
    have hconv := converted_describes (k := k) hdesc (by rw [hfilter]; exact hint)
      (by rw [hfilter]; decide)
    simp only [plain, Datum.box, readAs_boxInt32 hconv]
    simp [misread, number, Double.Same]
  | int52 n =>
    obtain rfl : k = .int52Rep := by cases k <;> first | rfl | cases hk
    exact readAs_converted_int52_iff hx.2 h
  | int52Constant n =>
    obtain rfl : k = .int52Rep := by cases k <;> first | rfl | cases hk
    exact readAs_converted_int52_iff hx.2 ⟨h.allowed, h.constant⟩
  | double d =>
    obtain rfl : k = .doubleRep := by cases k <;> first | rfl | cases hk
    obtain ⟨d', hbox, hsame⟩ := exists_box_double h
    simp only [plain, hbox]
    exact iff_of_true (readAs_converted_double hne hsame) rfl
  | doubleConstant d =>
    obtain rfl : k = .doubleRep := by cases k <;> first | rfl | cases hk
    obtain ⟨d', hbox, hsame⟩ := exists_box_double (d := d) ⟨h.allowed, h.constant⟩
    simp only [plain, hbox]
    exact iff_of_true (readAs_converted_double hne hsame) rfl

end Source

namespace AbstractState

variable {g : Graph} {s s' : AbstractState} {id : NodeId} {node : Node} {e : Edge}
  {known : AbstractValue}

/-- Executing a conversion to a boxed value copies the fact about the number. -/
theorem execute_valueRep (h : s.execute g id = .ok s') (hvalid : s.valid = true)
    (hvalid' : s'.valid = true) (hnode : g.node id = .ok node) (hop : node.op = .valueRep)
    (hchild : node.children = [e]) (hk : e.useKind ≠ .untyped)
    (hknown : s.factOf g e.node = .ok known) :
    s'.factOf g id = .ok (known.converted e.useKind) ∧
      (known.filter e.useKind.typeFilter).ty.isEmpty = false := by
  have huses : filterUses g node.children s = s.filter g e.node e.useKind.typeFilter := by
    rw [hchild, filterUses, if_neg (by simpa using hk)]
    cases s.filter g e.node e.useKind.typeFilter with
    | error f => rfl
    | ok s₁ => cases hs : s₁.valid <;> simp [bind, Except.bind, pure, Except.pure, filterUses, hs]
  rw [execute, hvalid, hnode] at h
  simp only [Bool.not_true, Bool.false_eq_true, if_false, bind, Except.bind, huses] at h
  cases hfilter : s.filter g e.node e.useKind.typeFilter with
  | error f => rw [hfilter] at h; cases h
  | ok s₁ =>
    obtain rfl := filter_ok hfilter hknown
    rw [hfilter] at h
    have hfact := factOf_narrowTo (g := g) s e.node (known.filter e.useKind.typeFilter)
    cases hs : (s.narrowTo e.node (known.filter e.useKind.typeFilter)).valid with
    | false =>
      simp only [hs, Bool.not_false, if_true, pure, Except.pure] at h
      cases h
      rw [hs] at hvalid'
      cases hvalid'
    | true =>
      have hne : (known.filter e.useKind.typeFilter).isBottom = false := by
        rw [← Bool.not_eq_true]
        intro hb
        simp [narrowTo, hb, invalidate] at hs
      have huse : useFact g (s.narrowTo e.node (known.filter e.useKind.typeFilter)) node 0 =
          .ok (known.filter e.useKind.typeFilter) := by
        simp [useFact, Node.child, hchild, Fault.ofOption, bind, Except.bind, hfact]
      simp only [hs, Bool.not_true, Bool.false_eq_true, if_false, transfer, hop, resultFact, huse,
        bind, Except.bind, pure, Except.pure, Op.clobbersWorld, Bool.and_false] at h
      cases h
      refine ⟨?_, hne⟩
      simp [factOf, setFact, Facts.get?_set_self, AbstractValue.converted]

end AbstractState

namespace Lowering

section

variable {σ : Type} {m : Machine σ} {c : Config σ} {env : Env} {s s' : State} {id v : NodeId}
  {node source : Node} {known : AbstractValue} {e : Edge} {u : Unit} {x : Source}

/-- A node whose code control gets past is the code, and then its effect on the facts. -/
theorem lowerNode_goesOn (h : lowerNode id env s = .ok (u, s'))
    (ho : s'.builder.IsOpen s'.builder.current.index) :
    ∃ node s₁, env.graph.node id = .ok node ∧
      lowerOp id node env { s with node := some id, origin := node.origin } = .ok ((), s₁) ∧
      s₁.facts.valid = true ∧ s₁.facts.execute env.graph id = .ok s'.facts ∧ s'.facts.valid = true ∧
      s'.builder = s₁.builder ∧ s'.values = s₁.values ∧ s'.block = s₁.block ∧
      s'.armDepth = s₁.armDepth := by
  rw [lowerNode, read_bind] at h
  obtain ⟨node, hnode, h⟩ := getNode_bind_ok h
  obtain ⟨_, s₂, h₂, h⟩ := bind_ok h
  cases h₂
  obtain ⟨_, s₃, h₃, h⟩ := bind_ok h
  refine ⟨node, s₃, hnode, h₃, ?_⟩
  obtain ⟨_, s₄, h₄, h⟩ := bind_ok h
  cases h₄
  obtain ⟨t, b₅, h₅, h⟩ := emit_bind_ok h
  obtain ⟨rfl, ht⟩ := Emit.isTerminated_ok h₅
  rw [get_bind] at h
  cases t with
  | true =>
    simp only [Bool.not_true, Bool.and_false, Bool.false_eq_true, if_false] at h
    rw [get_bind] at h
    obtain ⟨availability, -, h⟩ := check_bind_ok h
    cases h
    exact absurd ht ho.not_closed
  | false =>
    -- a dead end would have ended the block
    have hdead {s₆ s₇ : State} (h₇ : endUnreachable env s₆ = .ok ((), s₇))
        (ho₆ : s₆.builder.IsOpen s₆.builder.current.index)
        (h : ((get : Lower State) >>= fun s₈ =>
          (liftM (s₈.availability.execute env.graph id) : Lower AvailabilityMap) >>=
          fun availability =>
          modify fun s => { s with availability }) env s₇ = .ok (u, s')) : False := by
      rw [get_bind] at h
      obtain ⟨availability, -, h⟩ := check_bind_ok h
      cases h
      change s₇.builder.IsOpen s₇.builder.current.index at ho
      rw [endUnreachable_ok h₇ ho₆] at ho
      have hlt := (Array.getElem?_eq_some_iff.1 ho₆).1
      simp [Builder.IsOpen, Builder.close, hlt] at ho
    cases hv : s₃.facts.valid with
    | false =>
      simp only [hv, Bool.not_false, Bool.false_and, Bool.false_eq_true, if_false, if_true] at h
      obtain ⟨_, s₇, h₇, h⟩ := bind_ok h
      exact (hdead h₇ ht h).elim
    | true =>
      simp only [hv, Bool.not_false, Bool.and_self, if_true] at h
      rw [get_bind] at h
      obtain ⟨facts, hexec, h⟩ := check_bind_ok h
      obtain ⟨_, s₆, h₆, h⟩ := bind_ok h
      cases h₆
      cases hf : facts.valid with
      | false =>
        simp only [hf, Bool.not_false, if_true] at h
        obtain ⟨_, s₇, h₇, h⟩ := bind_ok h
        exact (hdead h₇ ht h).elim
      | true =>
        simp only [hf, Bool.not_true, Bool.false_eq_true, if_false] at h
        rw [get_bind] at h
        obtain ⟨availability, -, h⟩ := check_bind_ok h
        cases h
        exact ⟨rfl, hexec, hf, rfl, rfl, rfl, rfl⟩

/-! ## Conversions to boxed values -/

theorem setResult_builder {r : Reg} (h : setResult id r env s = .ok (u, s')) :
    s'.builder = s.builder := by
  obtain ⟨node, -, h⟩ := getNode_bind_ok h
  cases hform : node.result.form? with
  | none => rw [hform] at h; cases h
  | some form => rw [hform] at h; exact record_builder h

/-- A number that is a double is read as it is. -/
theorem doubleOf_runs {d : Double} {r : Reg} (h : doubleOf e env s = .ok (r, s'))
    (hm : s'.builder.Completes m.func) (hc : m.At s.builder c)
    (hx : x = .double d ∨ x = .doubleConstant d) (hop : x.IsOf source.op)
    (hheld : Holds env s c e.node source x.datum) :
    m.Runs s.builder c s'.builder (fun c' => c'.Has s'.builder r .f64 d.bits) ∧ s'.facts = s.facts ∧
      s'.armDepth = s.armDepth := by
  rw [doubleOf, held?_bind] at h
  cases hr : heldIn env s e.node .double with
  | some r₂ =>
    rw [hr] at h
    cases h
    obtain ⟨w, hw, hhas⟩ := hheld.shown _ _ hr
    rcases hx with rfl | rfl
    · obtain rfl := hw
      exact ⟨.refl hc hhas, rfl, rfl⟩
    · exact hw.elim
  | none =>
    rw [hr] at h
    obtain ⟨source', hsource, h⟩ := getNode_bind_ok h
    rw [hheld.found] at hsource
    cases hsource
    rcases hx with rfl | rfl
    · -- an operation that yields a double is held as one
      have hnarrow : heldIn env s e.node .int32 = none := hheld.none_of_not_shows fun _ hu => hu
      have hconst : source.op.constantWord? = none := hop
      cases ho : source.op <;> rw [ho] at h hconst <;>
        first
        | dsimp only at h
          rw [held?_bind, hnarrow] at h
          cases h
        | cases hconst
    · rw [hop.1] at h
      obtain ⟨b', hb, rfl⟩ := emit_ok h
      exact ⟨Emit.fconst_yields d (.refl c _) hc hb hm, rfl, rfl⟩

/-- A double that a use takes as it is. -/
theorem asDouble_runs {d : Double} {r : Reg} (h : asDouble e env s = .ok (r, s'))
    (hk : e.useKind = .doubleRep) (hm : s'.builder.Completes m.func) (hc : m.At s.builder c)
    (hx : x = .double d ∨ x = .doubleConstant d) (hop : x.IsOf source.op)
    (hheld : Holds env s c e.node source x.datum) :
    m.Runs s.builder c s'.builder (fun c' => c'.Has s'.builder r .f64 d.bits) ∧ s'.facts = s.facts ∧
      s'.armDepth = s.armDepth := by
  obtain ⟨r₁, s₁, h₁, h⟩ := bind_ok h
  rw [hk] at h
  cases h
  exact doubleOf_runs h₁ hm hc hx hop hheld

/-- The number that is converted, boxed as the facts say. -/
theorem valueRep_boxes (h : lowerOp id node env s = .ok (u, s')) (hop : node.op = .valueRep)
    (hchild : node.children = [e]) (hread : x.readBy e.useKind = true) (hx : x.IsOf source.op)
    (hm : s'.builder.Completes m.func) (hc : m.At s.builder c)
    (hheld : Holds env s c e.node source x.datum)
    (hform : ∀ form, x.form? = some form → (heldIn env s e.node form).isSome = true)
    (hknown : s.facts.factOf env.graph e.node = .ok known) (hbox : m.BoxesInt52 c.memory) :
    ∃ r s₁, setResult id r env s₁ = .ok (u, s') ∧ s₁.facts = s.facts ∧ s₁.armDepth = s.armDepth ∧
      m.Runs s.builder c s₁.builder fun c' => c'.Has s₁.builder r .i64 (x.plain.box known.ty) := by
  simp only [lowerOp, hop, lowerValueRep] at h
  obtain ⟨e', he', h⟩ := check_bind_ok h
  rw [Node.child, hchild] at he'
  cases he'
  -- integers of 52 bits, from an operation or a constant
  have hint52 {n : Int64} (hk : e.useKind = .int52Rep) (hn : x.datum = .int52 n)
    (hp : x.plain = .int52 n)
      (ho : source.op = .int52Constant n ∨ source.op.constantWord? = none) :
      ∃ r s₁, setResult id r env s₁ = .ok (u, s') ∧ s₁.facts = s.facts ∧ s₁.armDepth = s.armDepth ∧
        m.Runs s.builder c s₁.builder fun c' =>
          c'.Has s₁.builder r .i64 (x.plain.box known.ty) := by
    rw [hk] at h
    rw [hn] at hheld
    obtain ⟨strict, s₁, h₁, h⟩ := bind_ok h
    obtain ⟨r, s₂, h₂, h⟩ := bind_ok h
    rw [setResult_builder h] at hm
    have e₁ : s.builder.Emits [] s₁.builder := Tidy.after h₁ (.refl hc.wf)
    have e₂ : s₁.builder.Emits [] s₂.builder := Tidy.after h₂ (.refl e₁.after)
    obtain ⟨hfacts₁, hdepth₁⟩ := (inferInstance : KeepsFacts (asStrictInt52 e)).kept _ _ _ _ h₁
    obtain ⟨hfacts₂, hdepth₂⟩ := (inferInstance : KeepsFacts (boxStrictInt52 e.node strict)).kept _
      _ _ _ h₂
    refine ⟨r, s₂, h, hfacts₂.trans hfacts₁, hdepth₂.trans hdepth₁, ?_⟩
    rw [hp]
    refine (asStrictInt52_runs h₁ (e₂.toExtends.completes hm) hc hheld ho).bind e₁.toExtends
      e₂.toGrows
      fun c₁ hc₁ hk hstrict => ?_
    exact boxStrictInt52_runs h₂ hm hc₁ hstrict (by rw [hfacts₁]; exact hknown)
      (by rw [hk.memory]; exact hbox)
  -- doubles, from an operation or a constant
  have hdouble {d : Double} (hk : e.useKind = .doubleRep) (hd : x = .double d ∨
    x = .doubleConstant d) :
      ∃ r s₁, setResult id r env s₁ = .ok (u, s') ∧ s₁.facts = s.facts ∧ s₁.armDepth = s.armDepth ∧
        m.Runs s.builder c s₁.builder fun c' =>
          c'.Has s₁.builder r .i64 (x.plain.box known.ty) := by
    rw [hk] at h
    obtain ⟨double, s₁, h₁, hrest⟩ := bind_ok h
    obtain ⟨known', s₂, h₂, hrest⟩ := bind_ok hrest
    obtain ⟨hknown', hs₂⟩ := factOf_ok h₂
    rw [hs₂] at hrest
    obtain ⟨r, b₃, h₃, hset⟩ := emit_bind_ok hrest
    rw [setResult_builder hset] at hm
    have e₁ : s.builder.Emits [] s₁.builder := Tidy.after h₁ (.refl hc.wf)
    have e₃ := (inferInstance : (boxDouble double known'.ty.couldBeImpureNaN).Tidy).emits _ _ _
      e₁.after h₃
    obtain ⟨hruns, hfacts, hdepth⟩ := asDouble_runs h₁ hk (e₃.toExtends.completes hm) hc hd hx hheld
    rw [hfacts, hknown] at hknown'
    cases hknown'
    refine ⟨r, _, hset, hfacts, hdepth, ?_⟩
    have hp : x.plain = .double d := by rcases hd with rfl | rfl <;> rfl
    rw [hp]
    exact hruns.bind e₁.toExtends e₃.toGrows fun c₁ hc₁ _ hd' => boxDouble_yields hd' _ (.refl c₁ _)
      hc₁ h₃ hm
  cases x with
  | int32 n =>
    obtain ⟨r₁, hr₁⟩ := Option.isSome_iff_exists.1 (hform .int32 rfl)
    obtain ⟨w, rfl, hhas⟩ := hheld.shown _ _ hr₁
    have hint : (do setResult id (← boxInt32 (← asInt32 e)) : Lower Unit) env s = .ok (u, s') := by
      cases hk : e.useKind <;> rw [hk] at h hread <;> first | exact h | cases hread
    rw [asInt32, bind_assoc, held?_bind, hr₁] at hint
    obtain ⟨r, b₁, h₁, hset⟩ := emit_bind_ok hint
    rw [setResult_builder hset] at hm
    refine ⟨r, _, hset, rfl, rfl, (boxInt32_yields hhas (.refl c _) hc h₁ hm).mono
      fun c' _ hc' => ?_⟩
    rwa [low32_ofInt32] at hc'
  | int52 n =>
    exact hint52 (by cases hk : e.useKind <;> rw [hk] at hread <;> first | rfl | cases hread) rfl
      rfl (.inr hx.1)
  | int52Constant n =>
    exact hint52 (by cases hk : e.useKind <;> rw [hk] at hread <;> first | rfl | cases hread) rfl
      rfl (.inl hx.1)
  | double d =>
    exact hdouble (by cases hk : e.useKind <;> rw [hk] at hread <;> first | rfl | cases hread)
      (.inl rfl)
  | doubleConstant d =>
    exact hdouble (by cases hk : e.useKind <;> rw [hk] at hread <;> first | rfl | cases hread)
      (.inr rfl)

/-! ## There and back -/

/-- Node `b` is the number of node `v` boxed: `v` itself, or a conversion that was lowered. -/
inductive Boxes (env : Env) (v : NodeId) (x : Source) : Route → NodeId → State → State → Prop
  | direct (s : State) : Boxes env v x .direct v s s
  | valueRep {b : NodeId} {node : Node} {e : Edge} {s s' : State} : env.graph.node b = .ok node →
      node.op = .valueRep → node.children = [e] → e.node = v → x.readBy e.useKind = true →
      node.result.form? = some .jsValue → lowerNode b env s = .ok ((), s') →
      s'.builder.IsOpen s'.builder.current.index → Boxes env v x .valueRep b s s'

/-- A number that is boxed and converted back to a double leaves, or it comes back. It comes back as
the same number exactly if it is not misread. -/
theorem converted_back_iff {route : Route} {b : NodeId} {s₁ : State}
    (hboxes : Boxes env v x route b s s₁) (hnode : env.graph.node id = .ok node)
    (hop : node.op = .doubleRep) (hresult : node.result = .double) (hchild : node.children = [e])
    (he : e.node = b) (hkind : e.useKind = .number) (h : lowerOp id node env s₁ = .ok ((), s'))
    (hm : s'.builder.Completes m.func) (hc : m.At s.builder c) (hvalid : s.facts.valid = true)
    (hdepth : s.armDepth = 0) (hreach : env.dominators.dominates s₁.block s₁.block = true)
    (hheld : Holds env s c v source x.datum)
    (hform : ∀ form, x.form? = some form → (heldIn env s v form).isSome = true)
    (hx : x.IsOf source.op) (hknown : s.facts.factOf env.graph v = .ok known)
    (hdesc : x.Described known) (hbox : m.BoxesInt52 c.memory) :
    m.Leaves s'.builder c ∨ ∃ r, s'.values.lookup (id, .double) = some (r, s'.block) ∧
      m.Runs s.builder c s'.builder fun c' => ∃ d : Double, c'.Has s'.builder r .f64 d.bits ∧
        (d.Same x.number ↔ x.misread route known = false) := by
  cases hboxes with
  | direct =>
    subst he
    obtain ⟨w, hw, hruns⟩ := boxedNode_runs hc hheld hknown hbox
    refine (doubleRep_runs h hnode hop hresult hchild hkind hm hc hvalid hdepth hknown
      hruns).imp_right ?_
    rintro ⟨r, hr, hruns⟩
    exact ⟨r, hr, hruns.mono fun c' _ hhas => ⟨_, hhas, Source.readAs_iff hx hdesc hw⟩⟩
  | @valueRep _ rep e' _ _ hrep hrepOp hrepChild hv hread hrepForm hlower hopen =>
    subst he hv
    have hu : e'.useKind ≠ .untyped := by
      intro hu
      rw [hu] at hread
      cases x <;> cases hread
    obtain ⟨rep', s₂, hrep', h₂, hvalid₂, hexec, hvalid₁, hb₁, hvalues₁, hblock₁, hdepth₁⟩ :=
      lowerNode_goesOn hlower hopen
    rw [hrep] at hrep'
    cases hrep'
    have e₂ : s.builder.Emits [] s₂.builder := by
      have : Tidy (lowerOp e.node rep) :=
        tidy_lowerOp _ (by rw [hrepOp]; nofun) (by rw [hrepOp]; nofun)
      exact Tidy.after h₂ (.refl hc.wf)
    have e₁ : s₁.builder.Emits [] s'.builder := by
      have : Tidy (lowerOp id node) := tidy_lowerOp _ (by rw [hop]; nofun) (by rw [hop]; nofun)
      exact Tidy.after h (.refl (by rw [hb₁]; exact e₂.after))
    have hm₁ := e₁.toExtends.completes hm
    -- the conversion to a boxed value
    obtain ⟨r₂, s₃, hset, hfacts₃, hdepth₃, hruns₂⟩ :=
      valueRep_boxes (c := c) h₂ hrepOp hrepChild hread hx
      (by rw [← hb₁]; exact hm₁) hc ⟨hheld.found, hheld.shown, hheld.constant, hheld.boxed⟩ hform
        hknown hbox
    have hs₂ := setResult_ok hset hrep hrepForm (hdepth₃.trans hdepth)
    have hfacts₂ : s₂.facts = s.facts := by rw [hs₂]; exact hfacts₃
    rw [hfacts₂] at hexec
    obtain ⟨hknown₁, hne⟩ := AbstractState.execute_valueRep hexec hvalid hvalid₁ hrep hrepOp
      hrepChild hu hknown
    have hheld₁ : heldIn env s₁ e.node .jsValue = some r₂ := by
      have hlookup : s₁.values.lookup (e.node, .jsValue) = some (r₂, s₁.block) := by
        rw [hvalues₁, hblock₁, hs₂]
        simp
      rw [heldIn, hlookup]
      simp only [hreach, if_true]
    have hbuilder : s₁.builder = s₃.builder := by rw [hb₁, hs₂]
    rw [← hbuilder] at hruns₂
    obtain ⟨c₁, hgoes₁, hc₁, hk₁, hhas₁⟩ := hruns₂
    have hruns₁ : m.Runs s.builder c s₁.builder (· = c₁) := ⟨c₁, hgoes₁, hc₁, hk₁, rfl⟩
    have e₀ : s.builder.Extends s₁.builder := by rw [hb₁]; exact e₂.toExtends
    -- and back
    have hdepth' : s₁.armDepth = 0 := by rw [hdepth₁, hs₂]; exact hdepth₃.trans hdepth
    rcases doubleRep_runs h hnode hop hresult hchild hkind hm hc₁ hvalid₁ hdepth' hknown₁
      (fun {r s₄} hboxed hm₄ => by
        rw [boxedNode, held?_bind, hheld₁] at hboxed
        cases hboxed
        exact .refl hc₁ hhas₁) with hleave | ⟨r, hr, hruns⟩
    · exact .inl (hruns₁.leaves e₁.toExtends fun c' _ _ hc' => hc' ▸ hleave)
    · refine .inr ⟨r, hr, hruns₁.bind e₀ e₁.toGrows fun c' _ _ hc' => ?_⟩
      subst hc'
      exact hruns.mono fun c'' _ hhas => ⟨_, hhas, Source.readAs_converted_iff hx hread hdesc hne⟩

end

/-! ## A constant that is no number

The constant 1.0 is boxed as an int32, while its fact says that it is a double. Converted back to a
double it is a NaN, which is not equal to itself. -/

/-- Compares a constant, converted to a double, with itself. -/
def comparedConstant (d : Double) : Graph where
  name := "comparedConstant"
  nodes := #[
    { op := .doubleConstant d, result := .double },
    { op := .doubleRep, result := .double, children := [{ node := ⟨0⟩, useKind := .number }] },
    { op := .compare .eq, result := .boolean
      children := [{ node := ⟨1⟩, useKind := .doubleRep }, { node := ⟨1⟩, useKind := .doubleRep }]
        },
    { op := .ret, children := [{ node := ⟨2⟩ }] }]
  blocks := #[{ index := ⟨0⟩, nodes := #[⟨0⟩, ⟨1⟩, ⟨2⟩, ⟨3⟩] }]
  numArguments := 1
  numLocals := 0

/-- The number 1.0. -/
def oneAsDouble : Double := ⟨0x3ff0000000000000⟩

/-- The number 1.5. -/
def fractionAsDouble : Double := ⟨0x3ff8000000000000⟩

/-- A constant is misread: it is not equal to itself. -/
theorem comparedConstant_returns_false :
    (comparedConstant oneAsDouble).canCompile.isOk = true ∧
      simulated (comparedConstant oneAsDouble) {} = some (.returned Value.falseWord) ∧
      oneAsDouble.isNaN = false ∧ (Source.doubleConstant oneAsDouble).misread .direct
        (.ofType .int52AsDouble) = true := by
  refine ⟨by decide +kernel, by decide +kernel, by decide +kernel, by decide +kernel⟩

namespace ComparedConstant

def env : Env where
  graph := comparedConstant fractionAsDouble
  options := {}
  layout := {}
  dominators := { parents := #[some ⟨0⟩], numbers := #[some 0] }
  availabilityHeads := #[]
  phiParams := []
  exitOnly := []
  context := ⟨0⟩
  frame := ⟨1⟩

/-- Before the conversion. -/
def before : State where
  builder := {
    func := { name := "comparedConstant", blocks := #[{}], types := #[.i64, .i64] }
    terminated := #[false]
    current := ⟨0⟩ }
  facts := { blocks := #[], current := .empty (comparedConstant fractionAsDouble), valid := true }
  availability := .empty (comparedConstant fractionAsDouble)

def config (f : Function) : Config Unit where
  registers := Array.replicate f.types.size none
  memory := {}
  runtimeState := ()

theorem before_at (f : Function) : (Machine.plain f).At before.builder (config f) where
  wf := ⟨rfl, by decide⟩
  isOpen := rfl
  block := rfl
  position blk hb := by cases hb; rfl
  registers := Array.size_replicate

theorem before_holds (f : Function) :
    Holds env before (config f) ⟨0⟩ { op := .doubleConstant fractionAsDouble, result := .double }
    (Source.doubleConstant fractionAsDouble).datum where
  found := rfl
  shown _ _ h := by cases h
  constant w hw := by cases hw; rfl
  boxed _ _ h := by cases h

end ComparedConstant

/-- A fraction is converted back to itself. -/
theorem converted_back_fraction : ∃ s', lowerOp ⟨1⟩
      { op := .doubleRep, result := .double, children := [{ node := ⟨0⟩, useKind := .number }] }
      ComparedConstant.env ComparedConstant.before = .ok ((), s') ∧
    ((Machine.plain s'.builder.func).Leaves s'.builder
      (ComparedConstant.config s'.builder.func) ∨
      ∃ r, s'.values.lookup (⟨1⟩, .double) = some (r, s'.block) ∧
        (Machine.plain s'.builder.func).Runs ComparedConstant.before.builder
          (ComparedConstant.config s'.builder.func) s'.builder
          fun c' => ∃ d : Double, c'.Has s'.builder r .f64 d.bits ∧ d.Same fractionAsDouble) := by
  have hcheck :
    (lowerOp ⟨1⟩ { op := .doubleRep, result := .double,
                   children := [{ node := ⟨0⟩, useKind := .number }] }
      ComparedConstant.env ComparedConstant.before).isOk = true := by decide +kernel
  cases h : lowerOp ⟨1⟩ { op := .doubleRep, result := .double,
                          children := [{ node := ⟨0⟩, useKind := .number }] }
      ComparedConstant.env ComparedConstant.before with
  | error f => rw [h] at hcheck; cases hcheck
  | ok p =>
    obtain ⟨⟨⟩, s'⟩ := p
    refine ⟨s', rfl, ?_⟩
    have hknown : ComparedConstant.before.facts.factOf ComparedConstant.env.graph
      ⟨0⟩ = .ok (.ofType .fullDouble) := rfl
    refine (converted_back_iff (x := .doubleConstant fractionAsDouble) (.direct _) rfl rfl rfl
      rfl rfl rfl h s'.builder.completes_self (ComparedConstant.before_at _) rfl rfl
        (by decide +kernel)
      (ComparedConstant.before_holds _) (fun _ hf => by cases hf) ⟨rfl, by decide +kernel⟩ hknown
      ⟨by decide +kernel, fun _ _ hc => by cases hc⟩
      (Machine.plain_boxesInt52 _ _)).imp_right ?_
    rintro ⟨r, hr, hruns⟩
    exact ⟨r, hr, hruns.mono fun c' _ ⟨d, hhas, hsame⟩ => ⟨d, hhas, hsame.2 (by decide +kernel)⟩⟩

end Lowering

end SpecJit
