import SpecJit.Proofs.Lowering.Admitted
import SpecJit.Proofs.Lowering.Arithmetic
import SpecJit.Proofs.Lowering.Conversion
import SpecJit.Proofs.Lowering.DeadEnds
import SpecJit.Proofs.Lowering.Exits.Leaving

/-!
# What an exit restores and what a return returns

A variable that was last set by a hint to a node can be asked for in two ways: by leaving, and by
returning the node. An exit takes the value from a constant, from the first of the forms in which
the node is held, or redoes a sum (`taken?`). A return looks for a boxed form first, and boxes
another form in an order of its own (`given?`). The two agree exactly if the two forms that are
found stand for the same value (`restored_as_returned_iff`), and they do if the registers that hold
the node show one value (`Holds.formsAgree`). A node may be held as an int32 that is not its value,
and then they do not (`restored_differs`).
-/

namespace SpecJit

open Lir

theorem Value.Same.symm {v w : Word} (h : Value.Same v w) : Value.Same w v := by
  rcases h with rfl | ⟨a, b, ha, hb, hab⟩
  · exact .inl rfl
  · exact .inr ⟨b, a, hb, ha, hab.symm⟩

theorem Value.Same.trans {u v w : Word} (h₁ : Value.Same u v) (h₂ : Value.Same v w) :
    Value.Same u w := by
  rcases h₁ with rfl | ⟨a, b, ha, hb, hab⟩
  · exact h₂
  · rcases h₂ with rfl | ⟨b', c, hb', hc, hbc⟩
    · exact .inr ⟨a, b, ha, hb, hab⟩
    · obtain rfl := Option.some.inj (hb.symm.trans hb')
      exact .inr ⟨a, c, ha, hc, hab.trans hbc⟩

namespace Lowering

variable {σ : Type} {m m' : Machine σ} {c c' c₁ d : Config σ} {env : Env} {s s' s₁ s₂ : State}
  {id n : NodeId} {node : Node} {v : Operand} {w : Word} {r : Reg} {e : Edge} {u : Unit}

/-! ## Returning -/

/-- The forms that boxing looks for where there is no boxed one, in their order. -/
def unboxedForms : List (Form × ValueFormat) :=
  [(.int32, .int32), (.boolean, .boolean), (.double, .double), (.strictInt52, .strictInt52),
    (.int52, .int52)]

/-- The word for the form from which a node is boxed. -/
def given? (env : Env) (s : State) (c : Config σ) (id : NodeId) (node : Node) : Option Word :=
  match heldIn env s id .jsValue with
  | some r => c.word? r
  | none =>
    match node.op.constantWord? with
    | some w => some w
    | none =>
      (unboxedForms.findSome? fun f => (heldIn env s id f.1).map (·, f.2)).bind fun p =>
        (c.word? p.1).map p.2.rebox

/-- What an exit restores and what a return boxes stand for one value. -/
def FormsAgree (env : Env) (s : State) (c : Config σ) (id : NodeId) (node : Node) : Prop :=
  ∀ w g, taken? env s c id node = some w → given? env s c id node = some g → Value.Same w g

/-- The fact about a node is true of the words from which the node is boxed as the fact says. -/
structure Sincere (env : Env) (s : State) (c : Config σ) (id : NodeId) (known : AbstractValue) :
    Prop where
  strict : known.ty.isSubsetOf .int32 = true → ∀ r u, heldIn env s id .strictInt52 = some r →
    c.word? r = some u →
    Value.fitsInt32 u.toInt64 = true
  shifted : known.ty.isSubsetOf .int32 = true → ∀ r u, heldIn env s id .int52 = some r →
    c.word? r = some u →
    Value.fitsInt32 (u.toInt64 >>> 12) = true
  double : ∀ r u, heldIn env s id .double = some r → c.word? r = some u →
    Value.isImpureNaN u = true → known.ty.couldBeImpureNaN = true

/-- An integer of 52 bits is boxed right, if the fact that it has 32 bits is true. -/
theorem box_int52_of_sincere {known : AbstractValue} {k : Int64}
    (h : known.ty.isSubsetOf .int32 = true → Value.fitsInt32 k = true) :
    Datum.box known.ty (.int52 k) = Value.boxInt52 k := by
  rw [Datum.box]
  split
  · next hty =>
    have hfits := h hty
    rw [Value.fitsInt32] at hfits
    rw [Value.boxInt52, if_pos hfits]
  · rfl

/-- A double is boxed to the same number, if a NaN that cannot be boxed is known of. -/
theorem same_of_boxDouble {d : Double} {impure : Bool}
    (h : Value.isImpureNaN d.bits = true → impure = true) :
    Value.Same ((if impure && d.isNaN then Double.pureNaN else d).bits + Value.doubleOffset)
      (Value.boxDouble d) := by
  cases hnan : d.isNaN with
  | false =>
    rw [Bool.and_false, if_neg Bool.false_ne_true, boxDouble_of_not_isNaN hnan]
    exact .inl rfl
  | true =>
    have hpurified : (Value.purifyNaN d).isNaN = true := by
      rcases Value.purifyNaN_same d with he | ⟨h, -⟩
      · rw [he, hnan]
      · exact h
    cases impure with
    | true =>
      exact .inr ⟨_, _, Value.asNumber?_boxDouble .pureNaN, Value.asNumber?_boxDouble d,
        .inr ⟨by decide, hpurified⟩⟩
    | false =>
      left
      rw [Value.boxDouble, Value.purifyNaN, if_neg (fun himpure => Bool.false_ne_true (h himpure))]
      rfl

/-- Boxing a node whose forms are not boxed. -/
theorem boxHeld_gives {known : AbstractValue} (h : boxHeld n env s = .ok (r, s'))
    (hm : s'.builder.Completes m.func) (hc : m.At s.builder c) (hn : HasWords env s c n)
    (hknown : s.facts.factOf env.graph n = .ok known) (hsincere : Sincere env s c n known)
    (hbox : m.BoxesInt52 c.memory) :
    ∃ g w, ((unboxedForms.findSome? fun f => (heldIn env s n f.1).map (·, f.2)).bind fun p =>
      (c.word? p.1).map p.2.rebox) = some g ∧
      Value.Same w g ∧ m.Runs s.builder c s'.builder fun c' => c'.Has s'.builder r .i64 w := by
  rw [boxHeld, held?_bind] at h
  simp only [unboxedForms, List.findSome?_cons, List.findSome?_nil]
  cases hint : heldIn env s n .int32 with
  | some r₁ =>
    obtain ⟨u, ⟨k, rfl⟩, hr₁⟩ := hn _ _ hint
    rw [hint] at h
    have hruns := Yields.ofEmit (boxInt32_yields hr₁) (.refl c _) hc h hm
    rw [low32_ofInt32] at hruns
    refine ⟨_, _, ?_, .inl rfl, hruns⟩
    have hrebox : ValueFormat.int32.rebox (ofInt32 k) = Value.boxInt32 k :=
      congrArg Value.boxInt32 (low32_ofInt32 k)
    simp [hr₁.word?, hrebox]
  | none =>
  rw [hint] at h
  dsimp only at h
  rw [held?_bind] at h
  cases hbool : heldIn env s n .boolean with
  | some r₁ =>
    obtain ⟨u, ⟨t, rfl⟩, hr₁⟩ := hn _ _ hbool
    rw [hbool] at h
    refine ⟨_, _, ?_, .inl rfl, Yields.ofEmit (boxBoolean_yields hr₁) (.refl c _) hc h hm⟩
    have hrebox : ValueFormat.boolean.rebox (ofBool t) = Value.boxBoolean t := by cases t <;> rfl
    simp [hr₁.word?, hrebox]
  | none =>
  rw [hbool] at h
  dsimp only at h
  rw [held?_bind] at h
  cases hdouble : heldIn env s n .double with
  | some r₁ =>
    obtain ⟨u, -, hr₁⟩ := hn _ _ hdouble
    rw [hdouble] at h
    obtain ⟨known', s₁, h₁, h₂⟩ := bind_ok h
    obtain ⟨hknown', rfl⟩ := factOf_ok h₁
    obtain rfl : known = known' := Except.ok.inj (hknown.symm.trans hknown')
    refine ⟨_, _, ?_, same_of_boxDouble (d := ⟨u⟩) fun himpure => hsincere.double _ _ hdouble
      hr₁.word? himpure,
      Yields.ofEmit (boxDouble_yields hr₁ _) (.refl c _) hc h₂ hm⟩
    simp [hr₁.word?, ValueFormat.rebox]
  | none =>
  rw [hdouble] at h
  dsimp only at h
  rw [held?_bind, held?_bind] at h
  split at h
  · next hsome =>
    obtain ⟨strict, s₁, h₁, h₂⟩ := bind_ok h
    have e₁ : s.builder.Emits [] s₁.builder := Tidy.after h₁ (.refl hc.wf)
    have e₂ : s₁.builder.Emits [] s'.builder := Tidy.after h₂ (.refl e₁.after)
    have hfacts := (inferInstance : KeepsFacts (asStrictInt52 { node := n })).kept _ _ _ _ h₁
    have hboxes {k : Int64} (hk : known.ty.isSubsetOf .int32 = true → Value.fitsInt32 k = true)
        (hruns : m.Runs s.builder c s₁.builder fun c' => c'.Has s₁.builder strict .i64 k.toUInt64) :
        m.Runs s.builder c s'.builder fun c' => c'.Has s'.builder r .i64 (Value.boxInt52 k) := by
      refine hruns.bind e₁.toExtends e₂.toGrows fun c₁ hc₁ hkeeps hstrict => ?_
      rw [← box_int52_of_sincere hk]
      exact boxStrictInt52_runs h₂ hm hc₁ hstrict (by rw [hfacts.1]; exact hknown)
        (by rw [hkeeps.memory]; exact hbox)
    rw [asStrictInt52, held?_bind] at h₁
    cases hstrict : heldIn env s n .strictInt52 with
    | some r₁ =>
      obtain ⟨u, -, hr₁⟩ := hn _ _ hstrict
      rw [hstrict] at h₁
      cases h₁
      refine ⟨_, _, ?_, .inl rfl, hboxes (k :=
        u.toInt64) (fun hty => hsincere.strict hty _ _ hstrict hr₁.word?) (.refl hc ?_)⟩
      · simp [hr₁.word?, ValueFormat.rebox]
      · rwa [UInt64.toUInt64_toInt64]
    | none =>
      rw [hstrict] at h₁ hsome
      dsimp only at h₁
      rw [held?_bind] at h₁
      obtain ⟨r₁, hshifted⟩ := Option.isSome_iff_exists.1 (by simpa using hsome)
      obtain ⟨u, -, hr₁⟩ := hn _ _ hshifted
      rw [hshifted] at h₁
      obtain ⟨r₂, b₂, h₂, h₃⟩ := emit_bind_ok h₁
      obtain ⟨_, s₃, h₃, hend⟩ := bind_ok h₃
      cases hend
      have hb := record_builder h₃
      refine ⟨_, _, ?_, .inl rfl, hboxes (k := u.toInt64 >>> 12) (fun hty => hsincere.shifted hty _
        _ hshifted hr₁.word?) ?_⟩
      · simp only [hshifted, hr₁.word?, Option.map_none, Option.map_some, Option.bind_some]
        rfl
      · rw [hb] at e₂ ⊢
        exact (Emit.binaryImm_yields hr₁).congr rfl (.refl c _) hc h₂ (e₂.toExtends.completes hm)
  · cases h

/-- Boxing a node. -/
theorem boxedNode_gives {known : AbstractValue} (h : boxedNode n env s = .ok (r, s'))
    (hm : s'.builder.Completes m.func) (hc : m.At s.builder c) (hnode : env.graph.node n = .ok node)
    (hn : HasWords env s c n) (hknown : s.facts.factOf env.graph n = .ok known)
    (hsincere : Sincere env s c n known) (hbox : m.BoxesInt52 c.memory) :
    ∃ g w, given? env s c n node = some g ∧ Value.Same w g ∧ m.Runs s.builder c s'.builder fun c' =>
      c'.Has s'.builder r .i64 w := by
  rw [boxedNode, held?_bind] at h
  cases hboxed : heldIn env s n .jsValue with
  | some r₁ =>
    obtain ⟨u, -, hr₁⟩ := hn _ _ hboxed
    rw [hboxed] at h
    cases h
    refine ⟨u, u, ?_, .inl rfl, .refl hc hr₁⟩
    rw [given?, hboxed]
    exact hr₁.word?
  | none =>
  rw [hboxed] at h
  obtain ⟨node', hnode', h⟩ := getNode_bind_ok h
  obtain rfl := Except.ok.inj (hnode.symm.trans hnode')
  simp only [given?, hboxed]
  cases hconst : node.op.constantWord? with
  | some w =>
    rw [hconst] at h
    obtain ⟨r₁, b₁, h₁, h⟩ := emit_bind_ok h
    obtain ⟨_, s₂, h₂, h⟩ := bind_ok h
    cases h
    rw [record_builder h₂] at hm ⊢
    exact ⟨w, w, rfl, .inl rfl, Emit.word_yields w (.refl c _) hc h₁ hm⟩
  | none =>
    rw [hconst] at h
    obtain ⟨r₁, s₁, h₁, h⟩ := bind_ok h
    obtain ⟨_, s₂, h₂, h⟩ := bind_ok h
    cases h
    rw [record_builder h₂] at hm ⊢
    exact boxHeld_gives h₁ hm hc hn hknown hsincere hbox

/-- A node that returns another one. -/
def returnOf (n : NodeId) : Node := { op := .ret, children := [{ node := n }] }

/-- What is returned is the node, boxed. -/
theorem returnOf_returns {known : AbstractValue} (h : lowerOp id (returnOf n) env s = .ok (u, s'))
    (hm : s'.builder.Completes m.func) (hc : m.At s.builder c) (hnode : env.graph.node n = .ok node)
    (hn : HasWords env s c n) (hknown : s.facts.factOf env.graph n = .ok known)
    (hsincere : Sincere env s c n known) (hbox : m.BoxesInt52 c.memory) :
    ∃ g w, given? env s c n node = some g ∧ Value.Same w g ∧ ∃ k c', m.Steps k c c' ∧
      m.step c' = .ok (.done (.returned w)) := by
  change (liftM ((returnOf n).child 0) >>= fun e => asValue e >>= fun r => liftM (Emit.ret r)) env
    s = _ at h
  obtain ⟨e, he, h⟩ := check_bind_ok h
  cases he
  obtain ⟨r, s₁, h₁, h⟩ := bind_ok h
  obtain ⟨b₂, h₂, rfl⟩ := emit_ok h
  rw [asValue] at h₁
  obtain ⟨r', s₂, h₁, h₃⟩ := bind_ok h₁
  obtain ⟨_, s₃, h₃, h₄⟩ := bind_ok h₃
  cases h₃
  cases h₄
  have e₁ : s.builder.Emits [] s₁.builder := Tidy.after h₁ (.refl hc.wf)
  have e₂ := (inferInstance : (Emit.ret r).Tidy).emits _ _ _ e₁.after h₂
  obtain ⟨g, w, hg, hw, c₁, hgoes, hc₁, -, hr⟩ :=
    boxedNode_gives h₁ (e₂.toExtends.completes hm) hc hnode hn hknown hsincere hbox
  obtain ⟨hstep, -⟩ := Machine.terminate_step h₂ hm hc₁
  obtain ⟨k, hsteps⟩ := hgoes.steps
  refine ⟨g, w, hg, hw, k, c₁, hsteps, ?_⟩
  rw [hstep, Machine.stepTerminator, hr.read]
  rfl

/-! ## Sums -/

/-- An operand that is held as an int32, or is such a constant. -/
theorem asInt32_of_term {l : Term} (h : asInt32 e env s = .ok (r, s'))
    (hl : termOf env s e = some l) :
    SameButCode s s' ∧ (HasWords env s c e.node → ∀ k, l.int32? c = some k → m.At s.builder c →
      s'.builder.Completes m.func →
      m.Runs s.builder c s'.builder fun c' => c'.Has s'.builder r .i32 (ofInt32 k)) := by
  rw [asInt32, held?_bind] at h
  rw [termOf] at hl
  cases hint : heldIn env s e.node .int32 with
  | some r₁ =>
    rw [hint] at h hl
    cases h
    cases hl
    refine ⟨.refl s, fun he k hk hc hm => .refl hc ?_⟩
    obtain ⟨u, ⟨j, rfl⟩, hr⟩ := he _ _ hint
    rw [Term.int32?, hr.word?] at hk
    obtain rfl : j = k := (low32_ofInt32 j).symm.trans (Option.some.inj hk)
    exact hr
  | none =>
    rw [hint] at h hl
    obtain ⟨node, hnode, h⟩ := getNode_bind_ok h
    rw [Fault.ofOption_eq_ok.1 hnode, Option.bind_some] at hl
    obtain ⟨j, hj, rfl⟩ := Option.map_eq_some_iff.1 hl
    have hop : node.op = .jsConstant (.int32 j) := by
      unfold int32Constant? at hj
      split at hj
      · next n hop => rw [hop, Option.some.inj hj]
      · cases hj
    rw [hop] at h
    obtain ⟨b', hb, rfl⟩ := emit_ok h
    refine ⟨⟨rfl, rfl, rfl, rfl, rfl, rfl, rfl, rfl⟩, fun _ k hk hc hm => ?_⟩
    obtain rfl : j = k := Option.some.inj hk
    have hruns := Emit.int32_yields j.toInt (.refl c _) hc hb hm
    rwa [Int32.ofInt_toInt] at hruns

theorem HasWords.later (h : HasWords env s c n) (hs : SameButCode s s')
    (e : s.builder.Extends s'.builder) (hk : c.Keeps s.builder c') :
    HasWords env s' c' n := by
  intro form r hr
  rw [heldIn_congr hs] at hr
  obtain ⟨u, hfits, hhas⟩ := h form r hr
  exact ⟨u, hfits, hhas.keep e hk⟩

theorem int32?_later {l : Term} (hl : termOf env s e = some l) (he : HasWords env s c e.node)
    (hk : c.Keeps s.builder c') :
    l.int32? c' = l.int32? c := by
  cases l with
  | constant k => rfl
  | register r =>
    obtain ⟨u, -, hbefore, hafter⟩ := he.keep (heldIn_of_termOf hl) hk
    rw [Term.int32?, Term.int32?, hbefore, hafter]

/-- An operand of a sum, and its number. -/
structure Summand (env : Env) (s : State) (c : Config σ) (e : Edge) (l : Term) (k : Int32) :
    Prop where
  term : termOf env s e = some l
  number : l.int32? c = some k
  words : HasWords env s c e.node

theorem exists_summand (hl : (termOf env s e).isSome = true) (he : HasWords env s c e.node) :
    ∃ l k, Summand env s c e l k := by
  obtain ⟨l, hl⟩ := Option.isSome_iff_exists.1 hl
  cases l with
  | constant k => exact ⟨_, k, hl, rfl, he⟩
  | register r =>
    obtain ⟨u, -, hu⟩ := he _ _ (heldIn_of_termOf hl)
    exact ⟨_, low32 u, hl, congrArg (Option.map low32) hu.word?, he⟩

theorem Summand.later {l : Term} {k : Int32} (h : Summand env s c e l k) (hs : SameButCode s s')
    (g : s.builder.Extends s'.builder) (hk : c.Keeps s.builder c') : Summand env s' c' e l k where
  term := by rw [termOf_congr hs, h.term]
  number := by rw [int32?_later h.term h.words hk, h.number]
  words := h.words.later hs g hk

/-- The code of a sum computes it. -/
theorem lowerAddSub_computes {mode : ArithMode} {instruction : BinaryOp} {overflow : OverflowOp}
    {double : FBinaryOp}
    (h : lowerAddSub n node mode instruction overflow double env s = .ok (u, s'))
    (hm : s'.builder.Completes m.func) (hc : m.At s.builder c) (hnode : env.graph.node n = .ok node)
    (hresult : node.result = .int32) (hmode : mode.checksOverflow = false)
    (hneeded : env.exitOnly.contains n = false) (hdepth : s.armDepth = 0)
    (hsummands : ∀ e ∈ node.children, ∃ l k, Summand env s c e l k) :
    ∃ left right a b r, node.children[0]?.bind (termOf env s) = some left ∧ node.children[1]?.bind
      (termOf env s) = some right ∧
      left.int32? c = some a ∧ right.int32? c = some b ∧ s'.values = ((n, .int32), r, s.block) ::
      s.values ∧ s'.block = s.block ∧
      s'.facts = s.facts ∧ m.Runs s.builder c s'.builder fun c' =>
        c'.Has s'.builder r .i32 (ofInt32 (binary32 instruction a b)) := by
  rw [lowerAddSub, hresult] at h
  obtain ⟨⟨r₁, r₂⟩, s₂, h₁, h⟩ := bind_ok h
  change (if env.exitOnly.contains n then pure () else _ : Lower Unit) env s₂ = _ at h
  rw [if_neg (by rw [hneeded]; exact Bool.false_ne_true)] at h
  obtain ⟨_, s₃, h₃, h⟩ := bind_ok h
  rw [checkOverflow, hmode] at h₃
  cases h₃
  obtain ⟨r, b₄, h₄, h⟩ := emit_bind_ok h
  rw [asBoth] at h₁
  obtain ⟨e₁, he₁, h₁⟩ := check_bind_ok h₁
  obtain ⟨r₁', s₁, h₁, h₂⟩ := bind_ok h₁
  obtain ⟨e₂, he₂, h₂⟩ := check_bind_ok h₂
  obtain ⟨r₂', s₂', h₂, hpair⟩ := bind_ok h₂
  cases hpair
  replace he₁ := Fault.ofOption_eq_ok.1 he₁
  replace he₂ := Fault.ofOption_eq_ok.1 he₂
  obtain ⟨left, a, hleft⟩ := hsummands e₁ (List.mem_of_getElem? he₁)
  obtain ⟨right, b, hright⟩ := hsummands e₂ (List.mem_of_getElem? he₂)
  have g₁ : s.builder.Emits [] s₁.builder := Tidy.after h₁ (.refl hc.wf)
  have g₂ : s₁.builder.Emits [] s₂.builder := Tidy.after h₂ (.refl g₁.after)
  have g₃ := (inferInstance : (Emit.binary instruction r₁ r₂).Tidy).emits _ _ _ g₂.after h₄
  obtain ⟨hs₁, hruns₁⟩ := asInt32_of_term (m := m) (c := c) h₁ hleft.term
  have hs :=
    hs₁.trans (asInt32_of_term (m := m) (c := c) h₂ ((termOf_congr hs₁ e₂).trans hright.term)).1
  obtain rfl := setResult_ok h hnode (by rw [hresult]; rfl) (hs.armDepth.trans hdepth)
  have hm₂ := g₃.toExtends.completes hm
  refine ⟨left, right, a, b, r,
    by rw [he₁, Option.bind_some, hleft.term], by rw [he₂, Option.bind_some,
      hright.term], hleft.number,
    hright.number, ?_, hs.block, hs.facts, ?_⟩
  · dsimp only
    rw [hs.values, hs.block]
  refine (hruns₁ hleft.words a hleft.number hc (g₂.toExtends.completes hm₂)).bind g₁.toExtends
    (g₂.trans g₃).toGrows
    fun c₁ hc₁ hkeeps₁ hr₁ => ?_
  replace hright := hright.later hs₁ g₁.toExtends hkeeps₁
  refine ((asInt32_of_term h₂ hright.term).2 hright.words b hright.number hc₁ hm₂).bind g₂.toExtends
    g₃.toGrows
    fun c₂ hc₂ hkeeps₂ hr₂ => ?_
  exact Emit.binary_int32 (hr₁.keep g₂.toExtends hkeeps₂) hr₂ (.refl c₂ _) hc₂ h₄ hm

theorem arith_of_isPlainSum (h : node.isPlainSum = true) :
    ∃ mode, (node.op = .arith .add mode ∨ node.op = .arith .sub mode) ∧
    mode.checksOverflow = false ∧ node.result = .int32 := by
  rw [Node.isPlainSum] at h
  split at h
  · next mode hop =>
    rw [Bool.and_eq_true, Bool.and_eq_true, Bool.not_eq_true', beq_iff_eq] at h
    exact ⟨mode, .inl hop, h.1⟩
  · next mode hop =>
    rw [Bool.and_eq_true, Bool.and_eq_true, Bool.not_eq_true', beq_iff_eq] at h
    exact ⟨mode, .inr hop, h.1⟩
  · cases h

/-- The code of a sum that exits redo, where it is needed, computes the int32 that they restore. -/
theorem plainSum_computes (h : lowerOp n node env s = .ok (u, s'))
    (hm : s'.builder.Completes m.func) (hc : m.At s.builder c) (hnode : env.graph.node n = .ok node)
    (hplain : node.isPlainSum = true) (hneeded : env.exitOnly.contains n = false)
    (hdepth : s.armDepth = 0) (hsummands : ∀ e ∈ node.children, ∃ l k, Summand env s c e l k) :
    ∃ left right k r, node.children[0]?.bind (termOf env s) = some left ∧ node.children[1]?.bind
      (termOf env s) = some right ∧
      (ExitSource.sum (recoveryOp node.op) left right).word? c = some (Value.boxInt32 k) ∧
      s'.values = ((n, .int32), r, s.block) :: s.values ∧ s'.block = s.block ∧ s'.facts = s.facts ∧
      m.Runs s.builder c s'.builder fun c' => c'.Has s'.builder r .i32 (ofInt32 k) := by
  obtain ⟨mode, hop, hmode, hresult⟩ := arith_of_isPlainSum hplain
  rcases hop with hop | hop
  all_goals
    rw [lowerOp, hop] at h
    obtain ⟨left, right, a, b, r, hleft, hright, ha, hb, hrest⟩ :=
      lowerAddSub_computes h hm hc hnode hresult hmode hneeded hdepth hsummands
    refine ⟨left, right, _, r, hleft, hright, ?_, hrest⟩
    rw [hop, ExitSource.word?, ha, hb]
    rfl

/-! ## The two runs -/

/-- What holds where a hint to node `n` was the last to set variable `v`. -/
structure Hinted (env : Env) (s : State) (c : Config σ) (v : Operand) (n : NodeId) (node : Node) :
    Prop where
  found : env.graph.node n = .ok node
  plain : ∀ kind, node.op ≠ .phantomAllocation kind
  shape : s.availability.operands.Shaped env.graph.numArguments env.graph.numLocals
  hinted : s.availability.operands.get? v = some (.ofNode n)
  live : env.graph.isLiveInBytecode v s.origin = true
  valid : s.facts.valid = true
  depth : s.armDepth = 0
  self : env.dominators.dominates s.block s.block = true
  words : HasWords env s c n
  operands : ∀ e ∈ node.children, HasWords env s c e.node
  fact : ∃ known, s.facts.factOf env.graph n = .ok known ∧ Sincere env s c n known
  /-- A sum that is left to exits is not held, but its operands are. -/
  sum : n ∈ env.exitOnly → node.isPlainSum = true ∧ (∀ form, heldIn env s n form = none) ∧
    ∀ e ∈ node.children, (termOf env s e).isSome = true

/-- The program in which code needs node `n`. -/
def Env.needing (env : Env) (n : NodeId) : Env :=
  { env with exitOnly := env.exitOnly.filter (· ≠ n) }

/-- Returns node `n`. A sum that was left to exits is computed first. -/
def returning (id n : NodeId) (node : Node) : Lower Unit := do
  if (← read).exitOnly.contains n then withReader (Env.needing · n) (lowerOp n node)
  lowerOp id (returnOf n)

theorem formsAgree_iff {g : Word} (ht : taken? env s c n node = some w)
    (hg : given? env s c n node = some g) :
    FormsAgree env s c n node ↔ Value.Same w g := by
  refine ⟨fun h => h w g ht hg, fun h w' g' ht' hg' => ?_⟩
  obtain rfl := Option.some.inj (ht.symm.trans ht')
  obtain rfl := Option.some.inj (hg.symm.trans hg')
  exact h

/-- What no exit captures is not boxed either, unless it is a constant. -/
theorem given?_of_capturedIn (h : capturedIn env s n = none) :
    given? env s c n node = node.op.constantWord? := by
  simp only [capturedIn, capturedForms, List.findSome?_eq_none_iff, List.forall_mem_cons,
    Option.map_eq_none_iff] at h
  obtain ⟨hint, hshifted, hstrict, hbool, hdouble, hboxed, -⟩ := h
  rw [given?, hboxed]
  cases hconst : node.op.constantWord? with
  | some w => rfl
  | none => simp [unboxedForms, hint, hshifted, hstrict, hbool, hdouble]

theorem exists_heldIn_of_capturedIn {format : ValueFormat}
    (h : capturedIn env s n = some (r, format)) :
    ∃ form, heldIn env s n form = some r := by
  obtain ⟨f, -, hf⟩ := List.exists_of_findSome?_eq_some h
  obtain ⟨r', hr', he⟩ := Option.map_eq_some_iff.1 hf
  cases he
  exact ⟨_, hr'⟩

/-- What can be boxed can be restored. -/
theorem exists_taken {g : Word} (hn : HasWords env s c n)
    (hplain : ∀ kind, node.op ≠ .phantomAllocation kind) (hg : given? env s c n node = some g) :
    ∃ w, taken? env s c n node = some w := by
  rw [taken?, nodeSource]
  split
  · next kind hkind => exact absurd hkind (hplain kind)
  split
  · exact ⟨_, rfl⟩
  next hconst =>
  split
  · next r format hr =>
    obtain ⟨form, hheld⟩ := exists_heldIn_of_capturedIn hr
    obtain ⟨u, -, hu⟩ := hn _ _ hheld
    exact ⟨_, congrArg (Option.map _) hu.word?⟩
  · next hnone =>
    rw [given?_of_capturedIn hnone, hconst] at hg
    cases hg

/-- The node is held as an int32, and in no other form. -/
structure OnlyInt32 (env : Env) (s : State) (c : Config σ) (n : NodeId) (k : Int32) : Prop where
  register : ∃ r, heldIn env s n .int32 = some r ∧ c.Has s.builder r .i32 (ofInt32 k)
  others : ∀ form, form ≠ .int32 → heldIn env s n form = none

section OnlyInt32

variable {k : Int32}

theorem onlyInt32_of_values (hnone : ∀ form, heldIn env s n form = none)
    (hvalues : s'.values = ((n, .int32), r, s.block) :: s.values) (hblock : s'.block = s.block)
    (hself : env.dominators.dominates s.block s.block = true)
    (hr : c.Has s'.builder r .i32 (ofInt32 k)) :
    OnlyInt32 env s' c n k where
  register := by
    refine ⟨r, ?_, hr⟩
    rw [heldIn, hvalues, List.lookup_cons_self, hblock]
    exact if_pos hself
  others form hform := by
    have hother : ((n, form) == (n, Form.int32)) = false := beq_eq_false_iff_ne.2 fun he =>
      hform (congrArg Prod.snd he)
    rw [← hnone form, heldIn, heldIn, hvalues, hblock, List.lookup_cons, hother]

theorem OnlyInt32.words (h : OnlyInt32 env s c n k) : HasWords env s c n := by
  intro form r' hr'
  obtain ⟨r, hheld, hr⟩ := h.register
  by_cases hform : form = .int32
  · subst hform
    obtain rfl := Option.some.inj (hheld.symm.trans hr')
    exact ⟨_, ⟨k, rfl⟩, hr⟩
  · rw [h.others form hform] at hr'
    cases hr'

theorem OnlyInt32.sincere (h : OnlyInt32 env s c n k) (known : AbstractValue) :
    Sincere env s c n known where
  strict _ r _ hr := by
    rw [h.others .strictInt52 (by decide)] at hr
    cases hr
  shifted _ r _ hr := by
    rw [h.others .int52 (by decide)] at hr
    cases hr
  double r _ hr := by
    rw [h.others .double (by decide)] at hr
    cases hr

theorem OnlyInt32.given (h : OnlyInt32 env s c n k) (hconst : node.op.constantWord? = none) :
    given? env s c n node = some (Value.boxInt32 k) := by
  obtain ⟨r, hheld, hr⟩ := h.register
  have hrebox : ValueFormat.int32.rebox (ofInt32 k) = Value.boxInt32 k :=
    congrArg Value.boxInt32 (low32_ofInt32 k)
  rw [given?, h.others .jsValue (by decide), hconst]
  simp [unboxedForms, hheld, hr.word?, hrebox]

end OnlyInt32

theorem sumOf_eq {left right : Term} (honly : n ∈ env.exitOnly)
    (hleft : node.children[0]?.bind (termOf env s) = some left)
    (hright : node.children[1]?.bind (termOf env s) = some right) :
    sumOf env s n node = .sum (recoveryOp node.op) left right := by
  unfold sumOf
  rewrite [if_pos (List.contains_iff_mem.2 honly), hleft, hright]
  rfl

/-- A sum that was left to exits is returned as exits restore it. -/
theorem returning_sum (hs : Hinted env s c v n node) (honly : n ∈ env.exitOnly)
    (h : returning id n node env s = .ok (u, s')) (hm : s'.builder.Completes m.func)
    (hc : m.At s.builder c) (hbox : m.BoxesInt52 c.memory) :
    ∃ w w', taken? env s c n node = some w ∧ Value.Same w w' ∧ given? env s c n node = none ∧
      ∃ k c', m.Steps k c c' ∧ m.step c' = .ok (.done (.returned w')) := by
  obtain ⟨hplain, hnone, hterms⟩ := hs.sum honly
  obtain ⟨known, hknown, -⟩ := hs.fact
  have hcaptured : capturedIn env s n = none := by simp [capturedIn, capturedForms, hnone]
  obtain ⟨mode, hop, -⟩ := arith_of_isPlainSum hplain
  have hconst : node.op.constantWord? = none := by rcases hop with hop | hop <;> rw [hop] <;> rfl
  have : Tidy (lowerOp n node) := by
    rcases hop with hop | hop <;> exact tidy_lowerOp n (by simp [hop]) (by simp [hop])
  have : Tidy (lowerOp id (returnOf n)) := tidy_lowerOp id (by simp [returnOf]) (by simp [returnOf])
  change (if env.exitOnly.contains n then withReader (Env.needing · n) (lowerOp n node) >>=
    fun _ => lowerOp id (returnOf n)
    else lowerOp id (returnOf n)) env s = _ at h
  rw [if_pos (List.contains_iff_mem.2 honly)] at h
  obtain ⟨_, s₁, h₁, h₂⟩ := bind_ok h
  change lowerOp n node (env.needing n) s = _ at h₁
  have g₁ : s.builder.Emits [] s₁.builder := Tidy.after h₁ (.refl hc.wf)
  have g₂ : s₁.builder.Emits [] s'.builder := Tidy.after h₂ (.refl g₁.after)
  obtain ⟨left, right, k, r, hleft, hright, hword, hvalues, hblock, hfacts, c₁, hgoes, hc₁, hkeeps,
    hr⟩ :=
    plainSum_computes h₁ (g₂.toExtends.completes hm) hc hs.found hplain (by simp [Env.needing])
      hs.depth
      fun e he => exists_summand (hterms e he) (hs.operands e he)
  change node.children[0]?.bind (termOf env s) = _ at hleft
  change node.children[1]?.bind (termOf env s) = _ at hright
  have honly₁ : OnlyInt32 env s₁ c₁ n k := onlyInt32_of_values hnone hvalues hblock hs.self hr
  obtain ⟨g, w', hg, hsame, j, c₂, hsteps, hdone⟩ :=
    returnOf_returns h₂ hm hc₁ hs.found honly₁.words (by rw [hfacts]; exact hknown)
    (honly₁.sincere known) (by rw [hkeeps.memory]; exact hbox)
  obtain rfl := Option.some.inj (hg.symm.trans (honly₁.given hconst))
  obtain ⟨i, hsteps₁⟩ := hgoes.steps
  refine ⟨_, w', ?_, hsame.symm,
    by rw [given?_of_capturedIn hcaptured, hconst], _, c₂, hsteps₁.trans hsteps, hdone⟩
  rw [taken?, ← hword, ← sumOf_eq honly hleft hright, nodeSource]
  split
  · next kind hkind => exact absurd hkind (hs.plain kind)
  · rw [hconst, hcaptured]

/-- The node is returned as it is boxed, and the word agrees with the one that an exit restores
exactly if the forms do from which they are taken. -/
theorem returning_returns (hs : Hinted env s c v n node)
    (h : returning id n node env s = .ok (u, s')) (hm : s'.builder.Completes m.func)
    (hc : m.At s.builder c) (hbox : m.BoxesInt52 c.memory) :
    ∃ w w', taken? env s c n node = some w ∧ (Value.Same w w' ↔ FormsAgree env s c n node) ∧
      ∃ k c', m.Steps k c c' ∧ m.step c' = .ok (.done (.returned w')) := by
  by_cases honly : n ∈ env.exitOnly
  · obtain ⟨w, w', hw, hsame, hnone, hret⟩ := returning_sum hs honly h hm hc hbox
    refine ⟨w, w', hw, ⟨fun _ _ g _ hg => ?_, fun _ => hsame⟩, hret⟩
    rw [hnone] at hg
    cases hg
  · change (if env.exitOnly.contains n then withReader (Env.needing · n) (lowerOp n node) >>=
      fun _ => lowerOp id (returnOf n)
      else lowerOp id (returnOf n)) env s = _ at h
    rw [if_neg (by rwa [List.contains_iff_mem])] at h
    obtain ⟨known, hknown, hsincere⟩ := hs.fact
    obtain ⟨g, w', hg, hw', hret⟩ := returnOf_returns h hm hc hs.found hs.words hknown hsincere hbox
    obtain ⟨w, hw⟩ := exists_taken hs.words hs.plain hg
    refine ⟨w, w', hw, ?_, hret⟩
    rw [formsAgree_iff hw hg]
    exact ⟨fun hsame => hsame.trans hw', fun hsame => hsame.trans hw'.symm⟩

theorem HasWords.of_keeps (h : HasWords env s c n) (hk : c.Keeps s.builder d) :
    HasWords env s d n := h.later (.refl s) (.refl _) hk

/-- Words that are kept are found again. -/
theorem HasWords.word?_eq (h : HasWords env s c n) {form : Form} (hr : heldIn env s n form = some r)
    (hk : c.Keeps s.builder d) :
    d.word? r = c.word? r := by
  obtain ⟨u, -, hbefore, hafter⟩ := h.keep hr hk
  rw [hbefore, hafter]

theorem taken?_keep (hplain : ∀ kind, node.op ≠ .phantomAllocation kind) (hn : HasWords env s c n)
    (hoperands : ∀ e ∈ node.children, HasWords env s c e.node) (hk : c.Keeps s.builder d) :
    taken? env s d n node = taken? env s c n node := by
  have hfound : Found env s n node (nodeSource env s n node) := nodeSource_found hplain
  rw [taken?, taken?]
  generalize nodeSource env s n node = src at *
  cases hfound with
  | nowhere | constant => rfl
  | register _ _ hr => rw [ExitSource.word?, ExitSource.word?, hn.word?_eq hr hk]
  | sum _ _ _ _ he₁ he₂ hleft hright =>
    rw [ExitSource.word?, ExitSource.word?,
      int32?_later hleft (hoperands _ (List.mem_of_getElem? he₁)) hk,
      int32?_later hright (hoperands _ (List.mem_of_getElem? he₂)) hk]

theorem given?_keep (hn : HasWords env s c n) (hk : c.Keeps s.builder d) :
    given? env s d n node = given? env s c n node := by
  rw [given?, given?]
  split
  · next r hr => exact hn.word?_eq hr hk
  split
  · rfl
  cases hfirst : unboxedForms.findSome? fun f => (heldIn env s n f.1).map (·, f.2) with
  | none => rfl
  | some p =>
    obtain ⟨f, -, hf⟩ := List.exists_of_findSome?_eq_some hfirst
    obtain ⟨r, hr, rfl⟩ := Option.map_eq_some_iff.1 hf
    rw [Option.bind_some, Option.bind_some, hn.word?_eq hr hk]

theorem Sincere.of_keeps {known : AbstractValue} (h : Sincere env s c n known)
    (hn : HasWords env s c n) (hk : c.Keeps s.builder d) :
    Sincere env s d n known where
  strict hty r u hr hu := h.strict hty r u hr (by rw [← hn.word?_eq hr hk, hu])
  shifted hty r u hr hu := h.shifted hty r u hr (by rw [← hn.word?_eq hr hk, hu])
  double r u hr hu := h.double r u hr (by rw [← hn.word?_eq hr hk, hu])

theorem Hinted.of_keeps (hs : Hinted env s c v n node) (hk : c.Keeps s.builder d) :
    Hinted env s d v n node where
  __ := hs
  words := hs.words.of_keeps hk
  operands e he := (hs.operands e he).of_keeps hk
  fact := by
    obtain ⟨known, hknown, hsincere⟩ := hs.fact
    exact ⟨known, hknown, hsincere.of_keeps hs.words hk⟩

/-- An exit takes the variable from the node. -/
theorem Hinted.source (hs : Hinted env s c v n node) :
    variableSource env s v (s.availability.get v) = nodeSource env s n node := by
  have hget : s.availability.get v = .ofNode n := by rw [AvailabilityMap.get, hs.hinted]; rfl
  rw [variableSource, hget, hs.live, if_neg (by simp), sourceOf]
  simp [Availability.ofNode, Availability.liveFlush?, Fault.ofOption_eq_ok.1 hs.found]

/-! ## One value -/

/-- Words that show one boxed value. -/
theorem same_of_shows {y : Datum} {v w : Word} (hv : y.Shows .jsValue v) (hw : y.Shows .jsValue w) :
    Value.Same v w := by
  cases y with
  | double d =>
    -- a NaN may be shown by two words
    have hnan (h : d.isNaN = true) : Value.Same (Value.boxDouble d) (Value.boxDouble .pureNaN) := by
      refine .inr ⟨_, _, Value.asNumber?_boxDouble d, Value.asNumber?_boxDouble .pureNaN, ?_⟩
      exact (Value.purifyNaN_same d).trans (.inr ⟨h, by decide⟩)
    rcases hv with rfl | ⟨h, rfl⟩ <;> rcases hw with rfl | ⟨h', rfl⟩
    · exact .inl rfl
    · exact hnan h'
    · exact (hnan h).symm
    · exact .inl rfl
  | _ => exact .inl (hv.trans hw.symm)

/-- A form that shows a value is boxed to it. -/
theorem same_of_rebox {y : Datum} {f : Form × ValueFormat} {u v : Word} (hf : f ∈ capturedForms)
    (hu : y.Shows f.1 u) (hv : y.Shows .jsValue v) : Value.Same (f.2.rebox u) v := by
  simp only [capturedForms, List.mem_cons, List.not_mem_nil, or_false] at hf
  rcases hf with rfl | rfl | rfl | rfl | rfl | rfl
  case inl =>
    cases y with
    | int32 k =>
      obtain rfl := hu
      obtain rfl := hv
      exact .inl (congrArg Value.boxInt32 (low32_ofInt32 k))
    | boxed w =>
      obtain ⟨hint, rfl⟩ := hu
      obtain rfl := hv
      have hrebox : ValueFormat.int32.rebox (ofInt32 (Value.unboxInt32 v)) = Value.boxInt32
        (Value.unboxInt32 v) :=
        congrArg Value.boxInt32 (low32_ofInt32 _)
      exact .inr ⟨_, _,
        by rw [hrebox]; exact Value.asNumber?_boxInt32 _, by rw [Value.asNumber?,
          if_pos hint], .refl _⟩
    | _ => exact hu.elim
  case inr.inl =>
    cases y with
    | int52 k =>
      obtain rfl := hu
      exact .inl hv.symm
    | _ => exact hu.elim
  case inr.inr.inl =>
    cases y with
    | int52 k =>
      obtain rfl := hu
      obtain rfl := hv
      exact .inl rfl
    | _ => exact hu.elim
  case inr.inr.inr.inl =>
    cases y with
    | boolean b =>
      obtain rfl := hu
      obtain rfl := hv
      cases b <;> exact .inl rfl
    | boxed w =>
      obtain ⟨hbool, rfl⟩ := hu
      obtain rfl := hv
      rcases Value.isBoolean_iff.1 hbool with rfl | rfl <;> exact .inl rfl
    | _ => exact hu.elim
  case inr.inr.inr.inr.inl =>
    cases y with
    | double d =>
      obtain rfl := hu
      have hboxed : (Datum.double d).Shows .jsValue (Value.boxDouble d) := .inl rfl
      exact same_of_shows hboxed hv
    | _ => exact hu.elim
  case inr.inr.inr.inr.inr => exact same_of_shows hu hv

/-- What a node is boxed to stands for its value. -/
theorem Holds.same_given {y : Datum} {g v : Word} (hy : Holds env s c n node y)
    (hg : given? env s c n node = some g) (hv : y.Shows .jsValue v) : Value.Same g v := by
  rw [given?] at hg
  split at hg
  · next r hr =>
    obtain ⟨u, hu, hhas⟩ := hy.shown _ _ hr
    obtain rfl := Option.some.inj (hhas.word?.symm.trans hg)
    exact same_of_shows hu hv
  split at hg
  · next w hw =>
    cases hg
    exact same_of_shows (hy.constant _ hw) hv
  obtain ⟨p, hfirst, hg⟩ := Option.bind_eq_some_iff.1 hg
  obtain ⟨f, hf, hmap⟩ := List.exists_of_findSome?_eq_some hfirst
  obtain ⟨r, hr, rfl⟩ := Option.map_eq_some_iff.1 hmap
  obtain ⟨u, hu, hhas⟩ := hy.shown _ _ hr
  rw [hhas.word?] at hg
  cases hg
  exact same_of_rebox ((by decide : unboxedForms ⊆ capturedForms) hf) hu hv

/-- The forms of a node that has one value agree. -/
theorem Holds.formsAgree {y : Datum} (hy : Holds env s c n node y)
    (hplain : ∀ kind, node.op ≠ .phantomAllocation kind) :
    FormsAgree env s c n node := by
  intro w g ht hg
  obtain ⟨v, hv⟩ := y.exists_shows
  suffices hw : Value.Same w v from hw.trans (hy.same_given hg hv).symm
  have hfound : Found env s n node (nodeSource env s n node) := nodeSource_found hplain
  rw [taken?] at ht
  generalize nodeSource env s n node = src at *
  cases hfound with
  | nowhere => cases ht
  | constant hw =>
    cases ht
    exact same_of_shows (hy.constant _ hw) hv
  | register hf hformat hr =>
    obtain ⟨u, hu, hhas⟩ := hy.shown _ _ hr
    rw [ExitSource.word?, hhas.word?, hformat] at ht
    cases ht
    exact same_of_rebox hf hu hv
  | sum hconst hcaptured =>
    rw [given?_of_capturedIn hcaptured, hconst] at hg
    cases hg

/-- From the same registers and memory, one program leaves, and another one returns node `n`, to
which variable `v` was last set by a hint. Whichever form, constant or sum the exit takes the value
from: it is restored to the word that is returned, or to the same number in another word, exactly if
the forms agree from which the two take it, and they do if each form shows the value of the node. -/
theorem restored_as_returned_iff {exit : NodeId} {limit left : Nat} {o : Outcome}
    (hs : Hinted env s c v n node)
    (hexit : lowerOp exit { op := .forceOsrExit } env s = .ok (u, s₁))
    (hm : s₁.builder.Completes m.func) (hc : m.At s.builder c)
    (hrun : (m.runFrom limit left c).result = .ok o)
    (hret : returning id n node env s = .ok (u, s₂)) (hm' : s₂.builder.Completes m'.func)
    (hd : m'.At s.builder d) (hcd : c.Keeps s.builder d) (hbox : m'.BoxesInt52 d.memory) :
    ∃ x ws w w', o = .exited x ws ∧
      (∀ (t : ExitTable) (frame : SpecJit.Operands Word) {τ : Type} (mat : Materializer τ) (q : τ),
        s₁.exits.Extends t →
        frame.Shaped env.graph.numArguments env.graph.numLocals → SlotsIn s.availability frame →
        (∀ e, t.exit? x = some e → ∀ i, t.Reached e i → ¬ t.InCycle i) →
        ∃ F, (t.resolve mat ⟨x, ws.toArray, frame⟩ q).1 = .ok F ∧ F.operands.get? v = some w) ∧
      (∃ left, ∀ limit, (m'.runFrom limit left d).result = .ok (.returned w')) ∧
      (Value.Same w w' ↔ FormsAgree env s c n node) ∧ ∀ y, Holds env s c n node y →
      Value.Same w w' := by
  obtain ⟨K, cap, e, s₀, c₁, ws, hrecords, hexits, rfl, hat⟩ :=
    terminate_exits hexit hm hc hs.valid hrun
  obtain ⟨w, w', hw, hsame, k, c', hsteps, hdone⟩ :=
    returning_returns (hs.of_keeps hcd) hret hm' hd hbox
  have ht := taken?_keep hs.plain hs.words hs.operands hcd
  have hg : given? env s d n node = given? env s c n node := given?_keep hs.words hcd
  rw [ht] at hw
  replace hsame : Value.Same w w' ↔ FormsAgree env s c n node := by
    rw [hsame, FormsAgree, FormsAgree, ht, hg]
  refine ⟨_, ws, w, w', rfl, fun t frame τ mat q hextends hframe hslots hacyclic => ?_,
    ⟨k + 1, fun limit => ?_⟩, hsame, fun y hy => ?_⟩
  · have he : t.exit? ⟨s₀.exits.exits.size⟩ = some e := by
      refine hextends.exits _ _ ?_
      rw [hexits]
      simp [ExitTable.pushExit, ExitTable.exit?]
    have hsufficient : t.Sufficient ⟨⟨s₀.exits.exits.size⟩, ws.toArray, frame⟩ e := by
      refine hrecords.sufficient (fun i record hi => hextends.materializations _ _ ?_)
        (by simpa using hat.captured.length_eq) hframe
        hslots
      rw [hexits]
      exact hi
    obtain ⟨-, -, -, -, htaken⟩ := ExitTable.resolve_builds he hsufficient mat q
    obtain ⟨-, F, hF, -, -, -, hvalues⟩ := htaken fun i hi => hacyclic e he i hi
    obtain ⟨y, hy⟩ := Operands.get?_of_shaped hs.shape hrecords.shape hs.hinted
    obtain ⟨w₁, hw₁, hrestores⟩ := hvalues v y hy
    have hrealizes := hrecords.values v y hy
    rw [hs.source] at hrealizes
    have hsource : nodeSource env s n node ≠ .nowhere := fun hnowhere => by
      rw [taken?, hnowhere] at hw
      cases hw
    obtain rfl :=
      Option.some.inj (hw.symm.trans (taken?_of_restores hat hs.plain hs.words hs.operands hsource
        hrealizes hrestores))
    exact ⟨F, hF, hw₁⟩
  · exact Machine.runFrom_result_iff.2 ⟨k, Nat.lt_succ_self k, c', hsteps, hdone⟩
  · exact hsame.2 (hy.formsAgree hs.plain)

/-! ## A fraction that is held as an int32 -/

namespace HeldTwice

def argument : Node :=
  { op := .getStack { operand := .arg 1, slot := .arg 1, format := .jsValue }, result := .jsValue }

/-- Uses the argument as an int32, sets a local to the argument, and goes on. -/
def graph (rest : List Node) : Graph where
  name := "heldTwice"
  nodes := #[
    argument,
    { op := .check, children := [{ node := ⟨0⟩, useKind := .machineInt }] },
    { op := .bit .and, children := [{ node := ⟨0⟩, useKind := .int32 },
      { node := ⟨0⟩, useKind := .int32 }], result := .int32 },
    { op := .movHint (.loc 0), children := [{ node := ⟨0⟩ }] }] ++ rest.toArray
  blocks := #[{ index := ⟨0⟩, nodes := ((List.range (4 + rest.length)).map NodeId.mk).toArray }]
  numArguments := 2
  numLocals := 1

def leaving : Graph :=
  graph [{ op := .forceOsrExit }, { op := .ret, children := [{ node := ⟨2⟩ }] }]

def ending : Graph := graph [returnOf ⟨0⟩]

/-- Before the exit: registers 2 and 3 hold the argument, boxed and as an int32. -/
def before : State where
  builder := {
    func := { name := "heldTwice", blocks := #[{}], types := #[.i64, .i64, .i64, .i32] }
    terminated := #[false]
    current := ⟨0⟩ }
  facts := { blocks := #[], current := .empty leaving, valid := true }
  availability := (AvailabilityMap.empty leaving).setVariable (.loc 0) (.ofNode ⟨0⟩)
  values := [((⟨0⟩, .jsValue), ⟨2⟩, ⟨0⟩), ((⟨0⟩, .int32), ⟨3⟩, ⟨0⟩)]

/-- The value of a variable in the frame that an exit of a lowered graph is resolved to. -/
def restored (g : Graph) (x : ExitId) (ws : List Word) (frame : SpecJit.Operands Word) (v : Operand)
    : Option Word := do
  let f ← (g.lower {} {}).toOption
  let F ← (f.exits.resolve (σ := Unit) ⟨fun _ _ => (0, ())⟩ ⟨x, ws.toArray, frame⟩ ()).1.toOption
  F.operands.get? v

end HeldTwice

namespace HeldTwice

def start (f : Function) : Config Unit := TwoArguments.config f (Value.boxInt32 5) (ofInt32 5)

theorem before_at (f : Function) : (Machine.plain f).At before.builder (start f) where
  wf := ⟨rfl, Nat.zero_lt_one⟩
  isOpen := rfl
  block := rfl
  position blk hb := by cases hb; rfl
  registers := by simp [start, TwoArguments.config, Machine.plain]

theorem start_words {f : Function} (hf : f.types.size = 4) :
    (start f).Has before.builder ⟨2⟩ .i64 (Value.boxInt32 5) ∧ (start f).Has before.builder ⟨3⟩ .i32
      (ofInt32 5) := by
  refine ⟨⟨rfl, ?_⟩, rfl, ?_⟩ <;> simp [start, TwoArguments.config, hf]

/-- Both forms show the argument 5. -/
theorem holds {f : Function} (hf : f.types.size = 4) :
    Holds (TwoArguments.env leaving) before (start f) ⟨0⟩ argument (.boxed (Value.boxInt32 5)) where
  found := rfl
  shown form r hr := by
    cases form <;> first | cases hr; done | skip
    · cases hr
      exact ⟨_, ⟨by decide, by decide⟩, (start_words hf).2⟩
    · cases hr
      exact ⟨_, rfl, (start_words hf).1⟩
  constant w hw := by cases hw
  boxed w _ _ := rfl

theorem hinted {f : Function} (hf : f.types.size = 4) :
    Hinted (TwoArguments.env leaving) before (start f) (.loc 0) ⟨0⟩ argument where
  found := rfl
  plain := nofun
  shape := ⟨rfl, rfl⟩
  hinted := rfl
  live := rfl
  valid := rfl
  depth := rfl
  self := by decide
  words form r hr := by
    cases form <;> first | cases hr; done | skip
    · cases hr
      exact ⟨_, ⟨5, rfl⟩, (start_words hf).2⟩
    · cases hr
      exact ⟨_, trivial, (start_words hf).1⟩
  operands := nofun
  fact := ⟨_, rfl, nofun, nofun, nofun⟩
  sum h := absurd h (by decide)

end HeldTwice

/-- The argument 5 is restored and returned, as one value. -/
theorem restored_as_returned_five :
    ∃ s₁ s₂ w w', lowerOp ⟨4⟩ { op := .forceOsrExit } (TwoArguments.env HeldTwice.leaving)
      HeldTwice.before = .ok ((), s₁) ∧
    returning ⟨4⟩ ⟨0⟩ HeldTwice.argument (TwoArguments.env HeldTwice.leaving)
      HeldTwice.before = .ok ((), s₂) ∧
    (∃ x ws,
      ((Machine.plain s₁.builder.func).runFrom 10 10
        (HeldTwice.start s₁.builder.func)).result = .ok (.exited x ws) ∧
      ∀ (frame : SpecJit.Operands Word) (mat : Materializer Unit), frame.Shaped 2 1 →
      SlotsIn HeldTwice.before.availability frame →
        (∀ e, s₁.exits.exit? x = some e → ∀ i, s₁.exits.Reached e i → ¬ s₁.exits.InCycle i) →
        ∃ F, (s₁.exits.resolve mat ⟨x, ws.toArray, frame⟩ ()).1 = .ok F ∧
        F.operands.get? (.loc 0) = some w) ∧
    (∃ left,
      ((Machine.plain s₂.builder.func).runFrom 10 left
        (HeldTwice.start s₂.builder.func)).result = .ok (.returned w')) ∧
    Value.Same w w' := by
  have hexit :
    ((lowerOp ⟨4⟩ { op := .forceOsrExit } (TwoArguments.env HeldTwice.leaving)
      HeldTwice.before).toOption.any fun p =>
      decide (p.2.builder.func.types.size = 4) &&
        ((Machine.plain p.2.builder.func).runFrom 10 10
          (HeldTwice.start p.2.builder.func)).result.isOk) = true := by
    decide +kernel
  have hret :
    ((returning ⟨4⟩ ⟨0⟩ HeldTwice.argument (TwoArguments.env HeldTwice.leaving)
      HeldTwice.before).toOption.any fun p =>
      decide (p.2.builder.func.types.size = 4)) = true := by decide +kernel
  obtain ⟨⟨⟨⟩, s₁⟩, h₁, hs₁⟩ := ok_of_any hexit
  obtain ⟨⟨⟨⟩, s₂⟩, h₂, hs₂⟩ := ok_of_any hret
  rw [Bool.and_eq_true, decide_eq_true_eq] at hs₁
  obtain ⟨hsize₁, hok⟩ := hs₁
  replace hs₂ := of_decide_eq_true hs₂
  cases hrun :
    ((Machine.plain s₁.builder.func).runFrom 10 10 (HeldTwice.start s₁.builder.func)).result
      with
  | error e =>
    rw [hrun] at hok
    cases hok
  | ok o =>
    have hkeeps : (HeldTwice.start s₁.builder.func).Keeps HeldTwice.before.builder
      (HeldTwice.start s₂.builder.func) :=
      ⟨fun _ _ =>
        by rw [HeldTwice.start, HeldTwice.start, TwoArguments.config, TwoArguments.config, hsize₁,
          hs₂], rfl⟩
    obtain ⟨x, ws, w, w', rfl, hrestored, ⟨left, hreturned⟩, -, hsame⟩ :=
      restored_as_returned_iff (HeldTwice.hinted hsize₁) h₁
      s₁.builder.completes_self (HeldTwice.before_at _) hrun h₂ s₂.builder.completes_self
        (HeldTwice.before_at _) hkeeps
      (Machine.plain_boxesInt52 _ _)
    exact ⟨s₁, s₂, w, w', h₁, h₂, ⟨x, ws, hrun, fun frame mat => hrestored s₁.exits frame mat ()
      ⟨fun _ _ h => h, fun _ _ h => h⟩⟩,
      ⟨left, hreturned 10⟩, hsame _ (HeldTwice.holds hsize₁)⟩

/-- The argument 1.5 is restored as the int32 0, though it is returned as it is. -/
theorem restored_differs :
    HeldTwice.leaving.canCompile.isOk = true ∧ HeldTwice.ending.canCompile.isOk = true ∧
      HeldTwice.leaving.isLiveInBytecode (.loc 0) {} = true ∧
      simulated HeldTwice.leaving
        (Simulation.FrameValues.memory { arguments := [0x3ff9000000000000] }) = some (.exited ⟨1⟩
          [0]) ∧
      HeldTwice.restored HeldTwice.leaving ⟨1⟩ [0] (.replicate 2 1 0x3ff9000000000000)
        (.loc 0) = some (Value.boxInt32 0) ∧
      simulated HeldTwice.ending
        (Simulation.FrameValues.memory { arguments := [0x3ff9000000000000] }) =
        some (.returned 0x3ff9000000000000) ∧
      ¬ Value.Same (Value.boxInt32 0) 0x3ff9000000000000 := by
  refine ⟨by
    decide +kernel, by
      decide +kernel, by decide, by decide +kernel, by decide +kernel, by decide +kernel, ?_⟩
  have hzero : Value.asNumber? (Value.boxInt32 0) = some (.ofInt 0) := Value.asNumber?_boxInt32 0
  have hfraction : Value.asNumber? 0x3ff9000000000000 = some ⟨0x3ff8000000000000⟩ := by decide
  rintro (h | ⟨a, b, ha, hb, hab⟩)
  · exact absurd h (by decide)
  · obtain rfl := Option.some.inj (ha.symm.trans hzero)
    obtain rfl := Option.some.inj (hb.symm.trans hfraction)
    exact absurd hab (by decide)

end Lowering

end SpecJit
