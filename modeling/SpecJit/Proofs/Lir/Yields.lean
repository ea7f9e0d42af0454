import SpecJit.Proofs.Lir.Effects

/-!
# What building steps compute

`Emit.Yields m b c x ty w`: the code of the building step `x` computes the word `w`, of type `ty`,
wherever it stands after `b`, as long as control has come there from `c` without touching the
registers of `b` or the memory. Steps compose (`Yields.bind`); there is one rule for each
instruction that only computes a value. `Emit.YieldsIn m L b c x ty w` says in addition that all the
code loads is loaded from addresses in `L`.
-/

namespace SpecJit.Lir

variable {σ : Type} {m : Machine σ} {b b' b'' : Builder} {c c' c'' : Config σ}

/-- Control has come from the end of `b` to that of `b'`, and nothing that was there has changed. -/
structure Config.Follows (c : Config σ) (b : Builder) (c' : Config σ) (b' : Builder) : Prop where
  grown : b.Extends b'
  keeps : c.Keeps b c'

theorem Config.Follows.refl (c : Config σ) (b : Builder) : c.Follows b c b := ⟨.refl b, .refl b c⟩

theorem Config.Follows.trans (h₁ : c.Follows b c' b') (h₂ : c'.Follows b' c'' b'') :
    c.Follows b c'' b'' :=
  ⟨h₁.grown.trans h₂.grown, h₁.keeps.trans h₂.keeps h₁.grown⟩

theorem Config.Has.later {r : Reg} {ty : Ty} {w : Word} (h : c.Has b r ty w)
    (hf : c.Follows b c' b') :
    c'.Has b' r ty w := h.keep hf.grown hf.keeps

theorem Config.Follows.memory (h : c.Follows b c' b') : c'.memory = c.memory := h.keeps.memory

/-- The step computes `w`, wherever it stands after `b`. -/
def Emit.Yields (m : Machine σ) (b : Builder) (c : Config σ) (x : Emit Reg) (ty : Ty) (w : Word) :
    Prop :=
  ∀ ⦃b₁ b₂ : Builder⦄ ⦃r : Reg⦄ ⦃c₁ : Config σ⦄, c.Follows b c₁ b₁ → m.At b₁ c₁ →
    x b₁ = .ok (r, b₂) →
    b₂.Completes m.func → m.Runs b₁ c₁ b₂ fun c₂ => c₂.Has b₂ r ty w

/-- The step computes `w` and loads from `L` only, wherever it stands after `b`. -/
def Emit.YieldsIn (m : Machine σ) (L : Set Word) (b : Builder) (c : Config σ) (x : Emit Reg)
    (ty : Ty) (w : Word) : Prop :=
  ∀ ⦃b₁ b₂ : Builder⦄ ⦃r : Reg⦄ ⦃c₁ : Config σ⦄, c.Follows b c₁ b₁ → m.At b₁ c₁ →
    x b₁ = .ok (r, b₂) →
    b₂.Completes m.func → m.Does L b₁ c₁ b₂ fun c₂ => c₂.memory = c₁.memory ∧ c₂.Has b₂ r ty w

namespace Emit

variable {L : Set Word} {x : Emit Reg} {ty ty' : Ty} {w v : Word} {r lhs rhs : Reg}

theorem YieldsIn.yields (hx : x.YieldsIn m L b c ty w) : x.Yields m b c ty w :=
  fun _ _ _ _ hf hc h hm => (hx hf hc h hm).runs

theorem YieldsIn.bind {f : Reg → Emit Reg} [hxt : x.Tidy] [hft : ∀ r, (f r).Tidy]
    (hx : x.YieldsIn m L b c ty v)
    (hf : ∀ {r : Reg} {b' : Builder} {c' : Config σ}, c.Follows b c' b' → c'.Has b' r ty v →
      (f r).YieldsIn m L b' c' ty' w) : (x >>= f).YieldsIn m L b c ty' w := by
  intro b₁ b₂ r c₁ hf₁ hc₁ h hm
  obtain ⟨a, b₃, h₁, h₂⟩ := Emit.bind_ok h
  have e₁ := hxt.emits b₁ a b₃ hc₁.wf h₁
  have e₂ := (hft a).emits b₃ r b₂ e₁.after h₂
  refine (hx hf₁ hc₁ h₁ (e₂.toExtends.completes hm)).bind e₁.toExtends e₂.toGrows
    fun c₃ hc₃ hregs ⟨hmem, ha⟩ => ?_
  refine (hf (hf₁.trans ⟨e₁.toExtends, hregs, hmem⟩) ha (.refl _ _) hc₃ h₂ hm).mono
    fun c₄ _ _ ⟨hmem', hr⟩ => ?_
  exact ⟨hmem'.trans hmem, hr⟩

theorem YieldsIn.pure (h : c.Has b r ty w) : (pure r : Emit Reg).YieldsIn m L b c ty w := by
  intro b₁ b₂ r' c₁ hf hc hpure hm
  cases hpure
  exact .refl hc ⟨rfl, h.later hf⟩

theorem YieldsIn.congr (hx : x.YieldsIn m L b c ty v) (h : v = w) : x.YieldsIn m L b c ty w :=
  h ▸ hx

theorem Yields.bind {f : Reg → Emit Reg} [x.Tidy] [∀ r, (f r).Tidy] (hx : x.Yields m b c ty v)
    (hf : ∀ {r : Reg} {b' : Builder} {c' : Config σ}, c.Follows b c' b' → c'.Has b' r ty v →
      (f r).Yields m b' c' ty' w) : (x >>= f).Yields m b c ty' w := by
  intro b₁ b₂ r c₁ hf₁ hc₁ h hm
  refine Machine.Runs.andThen h hm hc₁ (fun h₁ hm₁ => hx hf₁ hc₁ h₁ hm₁)
    fun {a b' c'} h₂ hc' e hk ha => ?_
  exact hf (hf₁.trans ⟨e, hk⟩) ha (.refl _ _) hc' h₂ hm

theorem Yields.congr (hx : x.Yields m b c ty v) (h : v = w) : x.Yields m b c ty w := h ▸ hx

/-- An instruction that only computes a value. -/
theorem define_yieldsIn {inst : Inst} (hp : inst.isPlain = true)
    (hv : ∀ {b' : Builder} {c' : Config σ}, c.Follows b c' b' → b'.Completes m.func →
      m.value c' inst = .ok w)
    (hl : ∀ {b' : Builder} {c' : Config σ} {a : Word}, c.Follows b c' b' → c'.loadOf inst = some a →
      a ∈ L) :
    (Emit.define ty inst).YieldsIn m L b c ty (ty.normalize w) := by
  intro b₁ b₂ r c₁ hf hc h hm
  have e := (inferInstance : (Emit.define ty inst).Tidy).emits b₁ r b₂ hc.wf h
  have hexecute : m.execute c₁ inst = .ok (some w,
    { c₁ with runtimeState := c₁.runtimeState, memory := c₁.memory }) := by
    rw [Machine.execute_plain hp, hv hf (e.toExtends.completes hm)]
    rfl
  exact (Machine.define_does h hm hc hexecute fun a => hl hf).mono fun _ _ _ ⟨hmem, _, hr⟩ => ⟨hmem,
    hr⟩

theorem define_yields {inst : Inst} (hp : inst.isPlain = true)
    (hv : ∀ {b' : Builder} {c' : Config σ}, c.Follows b c' b' → b'.Completes m.func →
      m.value c' inst = .ok w) :
    (Emit.define ty inst).Yields m b c ty (ty.normalize w) :=
      (define_yieldsIn (L := .univ) hp hv fun _ _ => trivial).yields

/-! ## Constants -/

theorem iconst_yieldsIn (imm : Int64) :
    (iconst ty imm).YieldsIn m L b c ty (ty.normalize imm.toUInt64) :=
  define_yieldsIn rfl (fun _ _ => rfl) nofun

theorem iconst_yields (imm : Int64) : (iconst ty imm).Yields m b c ty (ty.normalize imm.toUInt64) :=
  (iconst_yieldsIn (L := ∅) imm).yields

theorem word_yieldsIn (w : Word) : (word w).YieldsIn m L b c .i64 w := by
  have h : (word w).YieldsIn m L b c .i64 (Ty.i64.normalize w.toInt64.toUInt64) := iconst_yieldsIn _
  exact h.congr (by simp [Ty.normalize])

theorem word_yields (w : Word) : (word w).Yields m b c .i64 w := (word_yieldsIn (L := ∅) w).yields

theorem int32_yieldsIn (n : Int) : (int32 n).YieldsIn m L b c .i32 (ofInt32 (Int32.ofInt n)) := by
  refine (iconst_yieldsIn _).congr ?_
  simp only [Ty.normalize, ofInt32]
  congr 1
  rw [← UInt32.toBitVec_inj]
  apply BitVec.eq_of_toNat_eq
  simp [BitVec.toNat_ofInt]
  omega

theorem int32_yields (n : Int) : (int32 n).Yields m b c .i32 (ofInt32 (Int32.ofInt n)) :=
  (int32_yieldsIn (L := ∅) n).yields

theorem fconst_yields (d : Double) : (fconst d).Yields m b c .f64 d.bits :=
  define_yields rfl fun _ _ => rfl

/-! ## Operations -/

/-- A rule for a step that first looks up the type of a register. -/
theorem Yields.ofType {f : Ty → Emit Reg} (hl : c.Has b lhs ty w) (h : (f ty).Yields m b c ty' v) :
    (do f (← typeOf lhs)).Yields m b c ty' v := by
  intro b₁ b₂ r c₁ hf hc h' hm
  exact h hf hc (typeOf_bind_ok (hl.later hf).type h') hm

theorem YieldsIn.ofType {f : Ty → Emit Reg} (hl : c.Has b lhs ty w)
    (h : (f ty).YieldsIn m L b c ty' v) :
    (do f (← typeOf lhs)).YieldsIn m L b c ty' v := by
  intro b₁ b₂ r c₁ hf hc h' hm
  exact h hf hc (typeOf_bind_ok (hl.later hf).type h') hm

theorem binary_yieldsIn {op : BinaryOp} (hl : c.Has b lhs ty w) (hr : c.Has b rhs ty' v) :
    (binary op lhs rhs).YieldsIn m L b c ty (ty.normalize (op.eval ty w v)) := by
  refine .ofType hl (define_yieldsIn rfl (fun hf _ => ?_) nofun)
  simp [Machine.value, (hl.later hf).read, (hr.later hf).read, bind, Except.bind, pure, Except.pure]

theorem binary_yields {op : BinaryOp} (hl : c.Has b lhs ty w) (hr : c.Has b rhs ty' v) :
    (binary op lhs rhs).Yields m b c ty (ty.normalize (op.eval ty w v)) :=
      (binary_yieldsIn (L := ∅) hl hr).yields

theorem unary_yields {op : UnaryOp} (hl : c.Has b lhs ty w) :
    (unary op lhs).Yields m b c ty (ty.normalize (op.eval ty w)) := by
  refine .ofType hl (define_yields rfl fun hf _ => ?_)
  simp [Machine.value, (hl.later hf).read, bind, Except.bind, pure, Except.pure]

theorem overflows_yields {op : OverflowOp} (hl : c.Has b lhs ty w) (hr : c.Has b rhs ty' v) :
    (overflows op lhs rhs).Yields m b c .i32 (ofBool (op.eval ty w v)) := by
  rw [← normalize_ofBool .i32]
  refine .ofType hl (define_yields rfl fun hf _ => ?_)
  simp [Machine.value, (hl.later hf).read, (hr.later hf).read, bind, Except.bind, pure, Except.pure]

theorem icmp_yieldsIn {cc : IntCC} (hl : c.Has b lhs ty w) (hr : c.Has b rhs ty' v) :
    (icmp cc lhs rhs).YieldsIn m L b c .i32 (ofBool (cc.eval ty w v)) := by
  rw [← normalize_ofBool .i32]
  refine define_yieldsIn rfl (fun hf hm => ?_) nofun
  simp [Machine.value, (hl.later hf).read, (hr.later hf).read, (hl.later hf).typeOf hm, bind,
    Except.bind, pure, Except.pure]

theorem icmp_yields {cc : IntCC} (hl : c.Has b lhs ty w) (hr : c.Has b rhs ty' v) :
    (icmp cc lhs rhs).Yields m b c .i32 (ofBool (cc.eval ty w v)) :=
      (icmp_yieldsIn (L := ∅) hl hr).yields

/-- An operation with a constant. -/
theorem binaryImm_yieldsIn {op : BinaryOp} {n : Int} (hl : c.Has b lhs ty w) :
    (binaryImm op lhs n).YieldsIn m L b c ty
      (ty.normalize (op.eval ty w (ty.normalize (Int64.ofInt n).toUInt64))) :=
  .ofType hl ((iconst_yieldsIn _).bind fun hf himm => binary_yieldsIn (hl.later hf) himm)

theorem binaryImm_yields {op : BinaryOp} {n : Int} (hl : c.Has b lhs ty w) :
    (binaryImm op lhs n).Yields m b c ty
      (ty.normalize (op.eval ty w (ty.normalize (Int64.ofInt n).toUInt64))) :=
  (binaryImm_yieldsIn (L := ∅) hl).yields

/-- A comparison with a constant. -/
theorem icmpImm_yieldsIn {cc : IntCC} {n : Int} (hl : c.Has b lhs ty w) :
    (icmpImm cc lhs n).YieldsIn m L b c .i32
      (ofBool (cc.eval ty w (ty.normalize (Int64.ofInt n).toUInt64))) :=
  .ofType hl ((iconst_yieldsIn _).bind fun hf himm => icmp_yieldsIn (hl.later hf) himm)

theorem icmpImm_yields {cc : IntCC} {n : Int} (hl : c.Has b lhs ty w) :
    (icmpImm cc lhs n).Yields m b c .i32
      (ofBool (cc.eval ty w (ty.normalize (Int64.ofInt n).toUInt64))) :=
  (icmpImm_yieldsIn (L := ∅) hl).yields

theorem fcmp_yieldsIn {cc : FloatCC} (hl : c.Has b lhs ty w) (hr : c.Has b rhs ty' v) :
    (fcmp cc lhs rhs).YieldsIn m L b c .i32 (ofBool (cc.eval ⟨w⟩ ⟨v⟩)) := by
  rw [← normalize_ofBool .i32]
  refine define_yieldsIn rfl (fun hf _ => ?_) nofun
  simp [Machine.value, (hl.later hf).read, (hr.later hf).read, bind, Except.bind, pure, Except.pure]

theorem fcmp_yields {cc : FloatCC} (hl : c.Has b lhs ty w) (hr : c.Has b rhs ty' v) :
    (fcmp cc lhs rhs).Yields m b c .i32 (ofBool (cc.eval ⟨w⟩ ⟨v⟩)) :=
      (fcmp_yieldsIn (L := ∅) hl hr).yields

theorem select_yieldsIn {cond : Reg} {t : Word} {ty₀ : Ty} (hcond : c.Has b cond ty₀ t)
    (hl : c.Has b lhs ty w) (hr : c.Has b rhs ty' v) :
    (select cond lhs rhs).YieldsIn m L b c ty (ty.normalize (if t.toUInt32 ≠ 0 then w else v)) := by
  refine .ofType hl (define_yieldsIn rfl (fun hf _ => ?_) nofun)
  by_cases ht : t.toUInt32 = 0
  · simp [Machine.value, (hcond.later hf).read, (hr.later hf).read, ht, bind, Except.bind]
  · simp [Machine.value, (hcond.later hf).read, (hl.later hf).read, ht, bind, Except.bind]

theorem select_yields {cond : Reg} {t : Word} {ty₀ : Ty} (hcond : c.Has b cond ty₀ t)
    (hl : c.Has b lhs ty w) (hr : c.Has b rhs ty' v) :
    (select cond lhs rhs).Yields m b c ty (ty.normalize (if t.toUInt32 ≠ 0 then w else v)) :=
  (select_yieldsIn (L := ∅) hcond hl hr).yields

/-! ## Conversions -/

variable {arg : Reg}

theorem signExtend_yields (ha : c.Has b arg ty w) :
    (signExtend arg).Yields m b c .i64 (extend true w) :=
  define_yields rfl fun hf _ => by
    simp [Machine.value, (ha.later hf).read, Lir.extend, bind, Except.bind, pure, Except.pure]

theorem zeroExtend_yieldsIn (ha : c.Has b arg ty w) :
    (zeroExtend arg).YieldsIn m L b c .i64 (extend false w) := by
  refine define_yieldsIn rfl (fun hf _ => ?_) nofun
  simp [Machine.value, (ha.later hf).read, Lir.extend, bind, Except.bind, pure, Except.pure]

theorem zeroExtend_yields (ha : c.Has b arg ty w) :
    (zeroExtend arg).Yields m b c .i64 (extend false w) :=
  (zeroExtend_yieldsIn (L := ∅) ha).yields

theorem truncate_yieldsIn (ha : c.Has b arg ty w) :
    (truncate arg).YieldsIn m L b c .i32 w.toUInt32.toUInt64 := by
  have hn : Ty.normalize .i32 w.toUInt32.toUInt64 = w.toUInt32.toUInt64 := by
    simp only [Ty.normalize, UInt32.toUInt32_toUInt64]
  refine YieldsIn.congr (define_yieldsIn rfl (fun hf _ => ?_) nofun) hn
  simp [Machine.value, (ha.later hf).read, bind, Except.bind, pure, Except.pure]

theorem truncate_yields (ha : c.Has b arg ty w) :
    (truncate arg).Yields m b c .i32 w.toUInt32.toUInt64 :=
  (truncate_yieldsIn (L := ∅) ha).yields

theorem intToDouble_yieldsIn {signed : Bool} (ha : c.Has b arg ty w) :
    (Emit.intToDouble signed arg).YieldsIn m L b c .f64 (Lir.intToDouble ty signed w).bits := by
  refine define_yieldsIn rfl (fun hf hm => ?_) nofun
  simp [Machine.value, (ha.later hf).read, (ha.later hf).typeOf hm, bind, Except.bind, pure,
    Except.pure]

theorem intToDouble_yields {signed : Bool} (ha : c.Has b arg ty w) :
    (Emit.intToDouble signed arg).Yields m b c .f64 (Lir.intToDouble ty signed w).bits :=
  (intToDouble_yieldsIn (L := ∅) ha).yields

theorem bitcastToInt_yieldsIn (ha : c.Has b arg ty w) :
    (bitcastToInt arg).YieldsIn m L b c .i64 w :=
  define_yieldsIn rfl (fun hf _ => by simp [Machine.value, (ha.later hf).read]) nofun

theorem bitcastToInt_yields (ha : c.Has b arg ty w) : (bitcastToInt arg).Yields m b c .i64 w :=
  (bitcastToInt_yieldsIn (L := ∅) ha).yields

theorem bitcastToDouble_yieldsIn (ha : c.Has b arg ty w) :
    (bitcastToDouble arg).YieldsIn m L b c .f64 w :=
  define_yieldsIn rfl (fun hf _ => by simp [Machine.value, (ha.later hf).read]) nofun

theorem bitcastToDouble_yields (ha : c.Has b arg ty w) :
    (bitcastToDouble arg).Yields m b c .f64 w :=
  (bitcastToDouble_yieldsIn (L := ∅) ha).yields

/-! ## Memory -/

theorem load_yieldsIn {width : MemWidth} {signed : Bool} {offset : Int} (ha : c.Has b arg ty w)
    (hl : Machine.address w (Int32.ofInt offset) ∈ L) :
    (load ty' width signed arg offset).YieldsIn m L b c ty' (ty'.normalize
      (width.decode signed (c.memory.read (Machine.address w (Int32.ofInt offset)) width.bytes)))
        := by
  refine define_yieldsIn rfl (fun hf _ => ?_) fun hf ha' => ?_
  · simp [Machine.value, (ha.later hf).read, hf.memory, bind, Except.bind, pure, Except.pure]
  · obtain rfl : Machine.address w (Int32.ofInt offset) = _ := by
      simpa [Config.loadOf, (ha.later hf).read, Except.toOption] using ha'
    exact hl

theorem load_yields {width : MemWidth} {signed : Bool} {offset : Int} (ha : c.Has b arg ty w) :
    (load ty' width signed arg offset).Yields m b c ty' (ty'.normalize
      (width.decode signed (c.memory.read (Machine.address w (Int32.ofInt offset)) width.bytes))) :=
  (load_yieldsIn (L := .univ) ha trivial).yields

/-! ## Calls -/

/-- A call of a helper that computes a value and leaves memory as it is. -/
theorem call_yields {helper : Helper} (ha : c.Has b arg ty v)
    (hcall : ∀ t, ∃ t', m.runtime.callHelper helper [v] t c.memory = (w, t', c.memory)) :
    (call helper [arg]).Yields m b c .i64 w := by
  intro b₁ b₂ r c₁ hf hc h hm
  obtain ⟨t, ht⟩ := hcall c₁.runtimeState
  rw [← hf.memory] at ht
  refine Machine.define_runs h hm hc (t := t) ?_
  simp [Machine.execute, Config.readAll, (ha.later hf).read, ht, bind, Except.bind, pure,
    Except.pure]

end Emit

/-!
## Code that is a function of one register

`Emit.Yields` says what a building step computes if it succeeds. `Emit.Defines b x ty` is the other
half: the step succeeds wherever it stands after `b`, and its register has type `ty`. Both have a
rule for each instruction and one for sequences. `Emit.Computes` puts the two together for a piece
of code with one argument: it can be built anywhere, and what is built is a function of the
argument.
-/

namespace Emit

variable {x : Emit Reg} {ty ty' : Ty} {lhs rhs arg : Reg}

/-- The step succeeds wherever it stands after `b`, and its result has that type. -/
def Defines (b : Builder) (x : Emit Reg) (ty : Ty) : Prop :=
  ∀ ⦃b₁ : Builder⦄, b.Extends b₁ → b₁.WellFormed → ∃ r b₂, x b₁ = .ok (r, b₂) ∧
    b₂.func.types[r.index]? = some ty

/-- Building steps one after the other, from what the first one gives. -/
theorem bind_of_ok {α β : Type} {x : Emit α} {a : α} (h : x b = .ok (a, b')) (f : α → Emit β) :
    (x >>= f) b = f a b' := by
  change (x b >>= fun p => f p.1 p.2) = f a b'
  rw [h]
  rfl

theorem modifyBlock_of_lt {block : BlockId} (h : block.index < b.func.blocks.size)
    (f : Block → Block) :
    modifyBlock block f b = .ok ((), { b with func.blocks := b.func.blocks.modify block.index f })
      := by
  change (if block.index < b.func.blocks.size then (set _ : Emit Unit) else throw .outOfRange) b = _
  rw [if_pos h]
  rfl

/-- There is always a block to go on in. -/
theorem ensureOpen_succeeds (hw : b.WellFormed) :
    ∃ b', ensureOpen b = .ok ((), b') ∧ b'.WellFormed := by
  have hterminated {t : Bool} (ht : b.terminated[b.current.index]? = some t) : isTerminated
    b = .ok (t, b) := by
    change (liftM (Fault.ofOption b.terminated[b.current.index]?) : Emit Bool) b = _
    rw [ht]
    rfl
  rcases hw.open_or_closed hw.current with ho | hc
  · exact ⟨b, bind_of_ok (hterminated ho) _, hw⟩
  · have h : ensureOpen b = .ok ((), (b.addBlock false).goTo ⟨b.func.blocks.size⟩) :=
      bind_of_ok (hterminated hc) _
    exact ⟨_, h, (ensureOpen_emits hw h).1.after⟩

theorem define_succeeds (hw : b.WellFormed) (ty : Ty) (inst : Inst) :
    ∃ r b', define ty inst b = .ok (r, b') ∧ b'.func.types[r.index]? = some ty := by
  obtain ⟨b₁, h₁, hw₁⟩ := ensureOpen_succeeds hw
  have hpush := modifyBlock_of_lt (b := b₁.addReg ty) hw₁.current fun block =>
    { block with insts := block.insts.push ⟨inst, some ⟨b₁.func.types.size⟩⟩ }
  refine ⟨⟨b₁.func.types.size⟩, (b₁.addReg ty).addInst ⟨inst, some ⟨b₁.func.types.size⟩⟩, ?_,
    by simp [Builder.addInst, Builder.addReg]⟩
  exact (bind_of_ok h₁ _).trans (bind_of_ok hpush fun _ => pure _)

theorem define_defines {inst : Inst} : (define ty inst).Defines b ty :=
  fun _ _ hw => define_succeeds hw ty inst

theorem Defines.bind {f : Reg → Emit Reg} [hx : x.Tidy] (h : x.Defines b ty)
    (hf : ∀ {r b'}, b.Extends b' → b'.func.types[r.index]? = some ty → (f r).Defines b' ty') :
    (x >>= f).Defines b ty' := by
  intro b₁ e hw
  obtain ⟨r, b₂, h₁, hr⟩ := h e hw
  have e₁ := hx.emits b₁ r b₂ hw h₁
  obtain ⟨r', b₃, h₂, hr'⟩ := hf (e.trans e₁.toExtends) hr (.refl b₂) e₁.after
  exact ⟨r', b₃, (bind_of_ok h₁ f).trans h₂, hr'⟩

/-- A rule for a step that first looks up the type of a register. -/
theorem Defines.ofType {f : Ty → Emit Reg} (hl : b.func.types[lhs.index]? = some ty)
    (h : (f ty).Defines b ty') :
    (do f (← typeOf lhs)).Defines b ty' := by
  intro b₁ e hw
  have htype : typeOf lhs b₁ = .ok (ty, b₁) := by
    change (liftM (Fault.ofOption b₁.func.types[lhs.index]?) : Emit Ty) b₁ = _
    rw [e.types _ _ hl]
    rfl
  obtain ⟨r, b₂, h₂, hr⟩ := h e hw
  exact ⟨r, b₂, (bind_of_ok htype f).trans h₂, hr⟩

theorem binary_defines {op : BinaryOp} (hl : b.func.types[lhs.index]? = some ty) :
    (binary op lhs rhs).Defines b ty :=
  .ofType hl define_defines

theorem binaryImm_defines {op : BinaryOp} {n : Int} (hl : b.func.types[lhs.index]? = some ty) :
    (binaryImm op lhs n).Defines b ty :=
  .ofType hl (.bind define_defines fun e _ => binary_defines (e.types _ _ hl))

theorem icmpImm_defines {cc : IntCC} {n : Int} (hl : b.func.types[lhs.index]? = some ty) :
    (icmpImm cc lhs n).Defines b .i32 :=
  .ofType hl (.bind define_defines fun _ _ => define_defines)

theorem select_defines {cond : Reg} (hl : b.func.types[lhs.index]? = some ty) :
    (select cond lhs rhs).Defines b ty :=
  .ofType hl define_defines

theorem doubleToInt_yields {σ : Type} {m : Machine σ} {c : Config σ} {w : Word} {ty₀ : Ty}
    (ha : c.Has b arg ty₀ w) :
    (Emit.doubleToInt ty arg).Yields m b c ty (ty.normalize (Lir.doubleToInt ty ⟨w⟩)) :=
  define_yields rfl fun hf _ => by
    simp [Machine.value, (ha.later hf).read, bind, Except.bind, pure, Except.pure]

/-- The code can be built behind any register of type `ty`, and turns each word `arg i` in it into
`result i`. -/
def Computes {ι : Type} (x : Reg → Emit Reg) (ty : Ty) (arg : ι → Word) (ty' : Ty)
    (result : ι → Word) : Prop :=
  ∀ ⦃b : Builder⦄ ⦃value : Reg⦄, b.WellFormed → b.func.types[value.index]? = some ty →
    ∃ r b', x value b = .ok (r, b') ∧ ∀ ⦃σ : Type⦄ ⦃m : Machine σ⦄ ⦃c : Config σ⦄ (i : ι),
    b'.Completes m.func → m.At b c →
      c.Has b value ty (arg i) → m.Runs b c b' fun c' => c'.Has b' r ty' (result i)

theorem Computes.intro {ι : Type} {x : Reg → Emit Reg} {arg result : ι → Word}
    (hd : ∀ {b value}, b.func.types[value.index]? = some ty → (x value).Defines b ty')
    (hy : ∀ {σ : Type} {m : Machine σ} {b : Builder} {c : Config σ} {value : Reg} (i : ι),
      c.Has b value ty (arg i) →
      (x value).Yields m b c ty' (result i)) : Computes x ty arg ty' result := by
  intro b value hw hty
  obtain ⟨r, b', h, -⟩ := hd hty (.refl b) hw
  exact ⟨r, b', h, fun _ m c i hm hc hv => hy i hv (.refl c b) hc h hm⟩

end Emit

end SpecJit.Lir
