import SpecJit.Proofs.Lir.Growth
import SpecJit.Proofs.Lir.Scope

/-!
# Building code that keeps to a scoping

While a function is under construction its scoping is, too: a new block gets what is defined at the
place where it is made (`Builder.Here`). `Builder.Sound strict S b` says that the code so far keeps
to the scoping `S`; a block that nothing leads to may assume anything.

Code is judged in two ways. If `strict`, types count (`Function.Sound.wellTyped`); otherwise the
values that edges bring are counted, as a run asks for (`Function.Sound.scoped`). Types alone are
judged by a scoping in which everything is in scope everywhere.
-/

/-!
## Typed code

The machine does not notice an operand of the wrong type: it reinterprets the bits.
`Function.WellTyped` says that this does not happen. Operations on doubles read doubles, both sides
of an integer operation are integers of its type, addresses and the arguments of calls are words,
conditions have 32 bits, a register gets values of its type, and so do the parameters of blocks.
-/

namespace SpecJit.Lir

/-- A type of integers. -/
def Ty.isInt : Ty → Bool
  | .i32 | .i64 => true
  | .f64 => false

/-- The type of the register that a value of this form is loaded into or stored from. -/
def MemWidth.registerType : MemWidth → Ty
  | .w8 | .w16 | .w32 => .i32
  | .w64 => .i64
  | .f32 | .f64 => .f64

/-- What an instruction asks of the types of its operands, given by `T`, and of its result. -/
def Inst.WellTyped (T : Reg → Ty → Prop) (result : Option Ty) : Inst → Prop
  | .iconst ty _ => ty.isInt = true ∧ result = some ty
  | .fconst _ => result = some .f64
  | .context | .frame => result = some .i64
  | .binary _ ty lhs rhs => ty.isInt = true ∧ T lhs ty ∧ T rhs ty ∧ result = some ty
  | .overflows _ ty lhs rhs => ty.isInt = true ∧ T lhs ty ∧ T rhs ty ∧ result = some .i32
  | .unary _ ty arg => ty.isInt = true ∧ T arg ty ∧ result = some ty
  | .fbinary _ lhs rhs => T lhs .f64 ∧ T rhs .f64 ∧ result = some .f64
  | .funary _ arg => T arg .f64 ∧ result = some .f64
  | .icmp _ lhs rhs => (∃ ty, ty.isInt = true ∧ T lhs ty ∧ T rhs ty) ∧ result = some .i32
  | .fcmp _ lhs rhs => T lhs .f64 ∧ T rhs .f64 ∧ result = some .i32
  | .select cond ifTrue ifFalse => T cond .i32 ∧ ∃ ty, T ifTrue ty ∧ T ifFalse ty ∧ result = some ty
  | .extend _ arg => T arg .i32 ∧ result = some .i64
  | .truncate arg => T arg .i64 ∧ result = some .i32
  | .intToDouble _ arg => (∃ ty, ty.isInt = true ∧ T arg ty) ∧ result = some .f64
  | .doubleToInt ty arg => ty.isInt = true ∧ T arg .f64 ∧ result = some ty
  | .bitcastToInt arg => T arg .f64 ∧ result = some .i64
  | .bitcastToDouble arg => T arg .i64 ∧ result = some .f64
  | .load ty width _ addr _ => ty = width.registerType ∧ T addr .i64 ∧ result = some ty
  | .store width value addr _ => T value width.registerType ∧ T addr .i64 ∧ result = none
  | .call _ args | .patchpoint _ args => (∀ a ∈ args, T a .i64) ∧ result = some .i64

/-- What a terminator asks of the types of its operands. -/
def Terminator.WellTyped (T : Reg → Ty → Prop) : Terminator → Prop
  | .branch cond _ _ _ _ _ => T cond .i32
  | .switch value _ _ => T value .i32
  | .ret value => T value .i64
  | .jump _ _ | .exit _ _ | .unreachable => True

namespace Function

variable (f : Function)

/-- The register has the type. -/
def HasType (r : Reg) (ty : Ty) : Prop := f.types[r.index]? = some ty

/-- Values are handed to parameters of their types. -/
def EdgeTyped (target : BlockId) (args : List Reg) : Prop :=
  ∃ blk, f.blocks[target.index]? = some blk ∧
    ∀ p ∈ blk.params.zip args, ∃ ty, f.HasType p.1 ty ∧ f.HasType p.2 ty

/-- Every operand has the type that is asked of it. -/
structure WellTyped : Prop where
  insts : ∀ (i : Nat) blk, f.blocks[i]? = some blk → ∀ (k : Nat) d, blk.insts[k]? = some d →
    d.inst.WellTyped f.HasType (d.result.bind fun r => f.types[r.index]?)
  ends : ∀ (i : Nat) blk, f.blocks[i]? = some blk → blk.terminator.WellTyped f.HasType
  edges : ∀ (i : Nat) blk, f.blocks[i]? = some blk → ∀ e ∈ blk.terminator.edges, f.EdgeTyped e.1 e.2

end Function

/-! ### More registers -/

theorem Inst.WellTyped.mono {T T' : Reg → Ty → Prop} {inst : Inst} {result : Option Ty}
    (h : inst.WellTyped T result) (hT : ∀ r ty, T r ty → T' r ty) : inst.WellTyped T' result := by
  cases inst <;> simp only [Inst.WellTyped] at h ⊢ <;> grind

theorem Terminator.WellTyped.mono {T T' : Reg → Ty → Prop} {t : Terminator} (h : t.WellTyped T)
    (hT : ∀ r ty, T r ty → T' r ty) : t.WellTyped T' := by
  cases t <;> simp only [Terminator.WellTyped] at h ⊢ <;> grind

end SpecJit.Lir

namespace SpecJit.Lir

variable {strict : Bool} {S S' S'' : Scoping} {f f' f'' : Function} {b b' b'' : Builder} {r : Reg}

/-! ## Sound functions -/

/-- A block at whose head `V` is defined keeps to the scoping `S` (module doc). -/
structure Function.BlockSound (f : Function) (strict : Bool) (S : Scoping) (V : Reg → Prop)
    (blk : Block) : Prop where
  params : ∀ r ∈ blk.params, r.index < f.types.size
  insts : ∀ (k : Nat) d, blk.insts[k]? = some d → d.Scoped f.types.size (blk.Defined V k)
  ends : blk.terminator.Scoped f (!strict) S (blk.Defined V blk.insts.size)
  instsTyped : strict = true → ∀ (k : Nat) d, blk.insts[k]? = some d →
    d.inst.WellTyped f.HasType (d.result.bind fun r => f.types[r.index]?)
  endTyped : strict = true → blk.terminator.WellTyped f.HasType
  edgesTyped : strict = true → ∀ e ∈ blk.terminator.edges, f.EdgeTyped e.1 e.2

/-- The function keeps to a scoping, by types or by definedness. -/
def Function.Sound (f : Function) (strict : Bool) (S : Scoping) : Prop :=
  ∀ (i : Nat) blk, f.blocks[i]? = some blk → f.BlockSound strict S (S i) blk

theorem Function.Sound.scoped (h : f.Sound false S) : f.Scoped S :=
  ⟨fun i blk hb => (h i blk hb).params, fun i blk hb => (h i blk hb).insts,
    fun i blk hb => (h i blk hb).ends⟩

theorem Function.Sound.wellTyped (h : f.Sound true S) : f.WellTyped :=
  ⟨fun i blk hb => (h i blk hb).instsTyped rfl, fun i blk hb => (h i blk hb).endTyped rfl,
    fun i blk hb => (h i blk hb).edgesTyped rfl⟩

/-- `f'` has the registers of `f`, and its blocks with their parameters. -/
structure Function.Grows (f f' : Function) : Prop where
  types : ∀ (i : Nat) ty, f.types[i]? = some ty → f'.types[i]? = some ty
  params : ∀ (i : Nat) blk, f.blocks[i]? = some blk → ∃ blk', f'.blocks[i]? = some blk' ∧
    blk'.params = blk.params

theorem Function.Grows.refl (f : Function) : f.Grows f :=
  ⟨fun _ _ h => h, fun _ blk h => ⟨blk, h, rfl⟩⟩

theorem Function.Grows.trans (h₁ : f.Grows f') (h₂ : f'.Grows f'') : f.Grows f'' := by
  refine ⟨fun i ty h => h₂.types i ty (h₁.types i ty h), fun i blk h => ?_⟩
  obtain ⟨blk', hb', hp'⟩ := h₁.params i blk h
  obtain ⟨blk'', hb'', hp''⟩ := h₂.params i blk' hb'
  exact ⟨blk'', hb'', hp''.trans hp'⟩

theorem Function.Grows.size_le (h : f.Grows f') : f.blocks.size ≤ f'.blocks.size := by
  refine Nat.le_of_not_lt fun hlt => ?_
  obtain ⟨_, hb', -⟩ := h.params f'.blocks.size _ (Array.getElem?_eq_getElem hlt)
  simp at hb'

theorem Function.Grows.types_size_le (h : f.Grows f') : f.types.size ≤ f'.types.size := by
  refine Nat.le_of_not_lt fun hlt => ?_
  have := h.types f'.types.size _ (Array.getElem?_eq_getElem hlt)
  simp at this

theorem Function.EdgeScoped.grow {counted : Bool} {V V' : Reg → Prop} {target : BlockId}
    {args : List Reg} (h : f.EdgeScoped counted S V target args) (hf : f.Grows f')
    (hS : ∀ i < f.blocks.size, S' i = S i) (hV : ∀ r, V r → V' r) :
    f'.EdgeScoped counted S' V' target args := by
  obtain ⟨blk, hblk, hlen⟩ := h.arity
  obtain ⟨blk', hblk', hp⟩ := hf.params _ _ hblk
  refine ⟨⟨blk', hblk', by rw [hp]; exact hlen⟩, fun r hr => ?_⟩
  rw [hS _ (Array.getElem?_eq_some_iff.1 hblk).1] at hr
  exact hV r (h.scope r hr)

theorem Terminator.Scoped.grow {counted : Bool} {V V' : Reg → Prop} {t : Terminator}
    (h : t.Scoped f counted S V) (hf : f.Grows f') (hS : ∀ i < f.blocks.size, S' i = S i)
    (hV : ∀ r, V r → V' r) : t.Scoped f' counted S' V' :=
  ⟨fun r hr => hV r (h.reads r hr), fun e he => (h.edges e he).grow hf hS hV⟩

theorem Function.EdgeTyped.grow {target : BlockId} {args : List Reg} (h : f.EdgeTyped target args)
    (hf : f.Grows f') :
    f'.EdgeTyped target args := by
  obtain ⟨blk, hblk, htyped⟩ := h
  obtain ⟨blk', hblk', hp⟩ := hf.params _ _ hblk
  refine ⟨blk', hblk', fun p hp' => ?_⟩
  rw [hp] at hp'
  obtain ⟨ty, h₁, h₂⟩ := htyped p hp'
  exact ⟨ty, hf.types _ _ h₁, hf.types _ _ h₂⟩

/-- A block stays sound when the function grows around it. -/
theorem Function.BlockSound.grow {V : Reg → Prop} {blk : Block} (h : f.BlockSound strict S V blk)
    (hf : f.Grows f') (hS : ∀ i < f.blocks.size, S' i = S i) : f'.BlockSound strict S' V blk where
  params r hr := Nat.lt_of_lt_of_le (h.params r hr) hf.types_size_le
  insts k d hd := ⟨(h.insts k d hd).reads, fun r hr =>
    ⟨Nat.lt_of_lt_of_le ((h.insts k d hd).result r hr).1 hf.types_size_le,
      ((h.insts k d hd).result r hr).2⟩⟩
  ends := h.ends.grow hf hS fun _ h => h
  instsTyped hs k d hd := by
    have hsame : d.result.bind (fun r => f'.types[r.index]?) = d.result.bind fun r =>
      f.types[r.index]? := by
      cases hr : d.result with
      | none => rfl
      | some r =>
        have hlt := ((h.insts k d hd).result r hr).1
        simp only [Option.bind_some]
        rw [Array.getElem?_eq_getElem hlt]
        exact hf.types _ _ (Array.getElem?_eq_getElem hlt)
    rw [hsame]
    exact (h.instsTyped hs k d hd).mono fun r ty => hf.types _ _
  endTyped hs := (h.endTyped hs).mono fun r ty => hf.types _ _
  edgesTyped hs e he := (h.edgesTyped hs e he).grow hf

/-- An empty block is sound. -/
theorem Function.BlockSound.empty {V : Reg → Prop} {params : List Reg} (cold : Bool)
    (h : ∀ r ∈ params, r.index < f.types.size) : f.BlockSound strict S V { params, cold } where
  params := h
  insts k d hd := by simp at hd
  ends := ⟨nofun, nofun⟩
  instsTyped _ k d hd := by simp at hd
  endTyped _ := trivial
  edgesTyped _ := nofun

/-! ## Sound builders -/

/-- The builder is well formed and its function sound. -/
structure Builder.Sound (b : Builder) (strict : Bool) (S : Scoping) : Prop where
  wf : b.WellFormed
  func : b.func.Sound strict S

/-- The register is defined where code is added. Behind a terminator nothing is executed. -/
def Builder.Here (b : Builder) (S : Scoping) (r : Reg) : Prop :=
  b.IsClosed b.current.index ∨
    ∃ blk, b.func.blocks[b.current.index]? = some blk ∧ blk.Defined (S b.current.index)
      blk.insts.size r

/-- The builder grew, is sound again, and the scopes of the blocks that were there are as before. -/
structure Builder.Grown (strict : Bool) (S : Scoping) (b : Builder) (S' : Scoping) (b' : Builder) :
    Prop where
  after : b'.Sound strict S'
  func : b.func.Grows b'.func
  scope : ∀ i < b.func.blocks.size, S' i = S i

theorem Builder.Grown.refl (h : b.Sound strict S) : b.Grown strict S S b :=
  ⟨h, .refl _, fun _ _ => rfl⟩

theorem Builder.Grown.trans (h₁ : b.Grown strict S S' b') (h₂ : b'.Grown strict S' S'' b'') :
    b.Grown strict S S'' b'' :=
  ⟨h₂.after, h₁.func.trans h₂.func, fun i hi =>
    (h₂.scope i (Nat.lt_of_lt_of_le hi h₁.func.size_le)).trans (h₁.scope i hi)⟩

/-- A scoping with one more block. -/
def Scoping.add (S : Scoping) (size : Nat) (V : Reg → Prop) : Scoping :=
  fun i => if i = size then V else S i

theorem Scoping.add_self (S : Scoping) (size : Nat) (V : Reg → Prop) : S.add size V size = V := by
  simp [Scoping.add]

theorem Scoping.add_of_ne {i size : Nat} {V : Reg → Prop} (h : i ≠ size) :
    S.add size V i = S i := by
  simp [Scoping.add, h]

/-- Changes that leave every block but one as it is. -/
theorem Builder.Sound.change (h : b.Sound strict S) (hw : b'.WellFormed) (hf : b.func.Grows b'.func)
    (hS : ∀ i < b.func.blocks.size, S' i = S i)
    (hblocks : ∀ (i : Nat) blk, b'.func.blocks[i]? = some blk → b.func.blocks[i]? = some blk ∨
      b'.func.BlockSound strict S' (S' i) blk) : b.Grown strict S S' b' := by
  refine ⟨⟨hw, fun i blk hb => ?_⟩, hf, hS⟩
  rcases hblocks i blk hb with hold | hnew
  · have hlt := (Array.getElem?_eq_some_iff.1 hold).1
    rw [hS i hlt]
    exact (h.func i blk hold).grow hf hS
  · exact hnew

theorem Builder.addReg_grown (h : b.Sound strict S) (ty : Ty) : b.Grown strict S S (b.addReg ty) :=
  have e := (b.addReg_emits h.wf ty).toExtends
  h.change ⟨h.wf.flags, h.wf.current⟩ ⟨e.types, fun _ blk h => ⟨blk, h, rfl⟩⟩ (fun _ _ => rfl)
    fun _ _ hb => .inl hb

theorem Builder.goTo_grown (h : b.Sound strict S) {p : BlockId} (hp : p.index < b.func.blocks.size)
    :
    b.Grown strict S S (b.goTo p) :=
  h.change ⟨h.wf.flags, hp⟩ (.refl _) (fun _ _ => rfl) fun _ _ hb => .inl hb

/-- A new block in whose scope `V` is. -/
theorem Builder.addBlock_grown (h : b.Sound strict S) (cold : Bool) (V : Reg → Prop) :
    b.Grown strict S (S.add b.func.blocks.size V) (b.addBlock cold) := by
  have e := b.addBlock_extends h.wf cold
  refine h.change ⟨by simp [addBlock, h.wf.flags], ?_⟩ ⟨e.types, fun i blk hb => ?_⟩
    (fun i hi => Scoping.add_of_ne (by omega)) fun i blk hb => ?_
  · have := h.wf.current
    simp only [addBlock, Array.size_push]
    omega
  · obtain ⟨blk', hb', hp, -⟩ := e.grown i blk hb
    exact ⟨blk', hb', hp⟩
  · simp only [addBlock] at hb
    rw [Array.getElem?_push] at hb
    split at hb
    · cases hb
      exact .inr (.empty cold (by simp))
    · exact .inl hb

/-- A new block with a parameter. -/
theorem Builder.addJoin_grown (h : b.Sound strict S) (cold : Bool) (ty : Ty) (V : Reg → Prop) :
    b.Grown strict S (S.add b.func.blocks.size V)
      (((b.addBlock cold).addReg ty).addParam ⟨b.func.blocks.size⟩ ⟨b.func.types.size⟩) := by
  have hblocks (i : Nat) :
      (((b.addBlock cold).addReg ty).addParam ⟨b.func.blocks.size⟩
        ⟨b.func.types.size⟩).func.blocks[i]? =
        if i = b.func.blocks.size then some { params := [⟨b.func.types.size⟩], cold }
          else b.func.blocks[i]? := by
    simp only [addParam, addReg, addBlock, Array.getElem?_modify, Array.getElem?_push]
    by_cases hi : i = b.func.blocks.size
    · simp [hi]
    · simp [hi, Ne.symm hi]
  have hg := (b.addReg_emits h.wf ty).types
  refine h.change ⟨by simp [addParam, addReg, addBlock, h.wf.flags], ?_⟩ ⟨hg, fun i blk hb => ?_⟩
    (fun i hi => Scoping.add_of_ne (by omega)) fun i blk hb => ?_
  · have := h.wf.current
    simp only [addParam, addReg, addBlock, Array.size_modify, Array.size_push]
    omega
  · have hlt := (Array.getElem?_eq_some_iff.1 hb).1
    exact ⟨blk, by rw [hblocks, if_neg (by omega)]; exact hb, rfl⟩
  · rw [hblocks] at hb
    split at hb
    · cases hb
      exact .inr (.empty cold (by simp [addParam, addReg, addBlock]))
    · exact .inl hb

theorem Block.Defined.push {blk : Block} {V : Reg → Prop} {k : Nat} (h : blk.Defined V k r)
    (d : InstData) :
    Block.Defined { blk with insts := blk.insts.push d } V k r := by
  rcases h with h | h | ⟨j, hj, d', hd', hr⟩
  · exact .inl h
  · exact .inr (.inl h)
  · refine .inr (.inr ⟨j, hj, d', ?_, hr⟩)
    obtain ⟨hlt, -⟩ := Array.getElem?_eq_some_iff.1 hd'
    rw [Array.getElem?_push_lt hlt, ← hd', Array.getElem?_eq_getElem hlt]

/-- An instruction that reads what is defined. -/
theorem Builder.addInst_grown {blk : Block} {d : InstData} (h : b.Sound strict S)
    (hblk : b.func.blocks[b.current.index]? = some blk)
    (hd : d.Scoped b.func.types.size (blk.Defined (S b.current.index) blk.insts.size))
    (htyped : strict = true → d.inst.WellTyped b.func.HasType
      (d.result.bind fun r => b.func.types[r.index]?)) :
    b.Grown strict S S (b.addInst d) := by
  have hold := h.func _ _ hblk
  have hf : b.func.Grows (b.addInst d).func := by
    refine ⟨fun _ _ h => h, fun i blk hb => ?_⟩
    by_cases hi : b.current.index = i
    · exact ⟨{ blk with insts := blk.insts.push d },
        by simp [addInst, Array.getElem?_modify, hi, hb], rfl⟩
    · exact ⟨blk, by simp [addInst, Array.getElem?_modify, hi, hb], rfl⟩
  refine h.change ⟨by simp [addInst, h.wf.flags], by simpa [addInst] using h.wf.current⟩ hf
    (fun _ _ => rfl) ?_
  intro i blk' hb'
  simp only [addInst, Array.getElem?_modify] at hb'
  split at hb'
  · rename_i hi
    subst hi
    rw [hblk] at hb'
    cases hb'
    -- the instructions of the block: those that were there, and the new one
    have hinst (k : Nat) (d' : InstData) (hd' : (blk.insts.push d)[k]? = some d') :
        blk.insts[k]? = some d' ∨ (k = blk.insts.size ∧ d' = d) := by
      rw [Array.getElem?_push] at hd'
      split at hd'
      · cases hd'
        exact .inr ⟨‹_›, rfl⟩
      · exact .inl hd'
    right
    refine ⟨hold.params, fun k d' hd' => ?_, ?_, fun hs k d' hd' => ?_, hold.endTyped,
      fun hs e he => ?_⟩
    · rcases hinst k d' hd' with hk | ⟨rfl, rfl⟩
      · exact ⟨fun r hr => ((hold.insts k d' hk).reads r hr).push d, (hold.insts k d' hk).result⟩
      · exact ⟨fun r hr => (hd.reads r hr).push d', hd.result⟩
    · exact hold.ends.grow hf (fun _ _ => rfl) fun r hr => (hr.later (by simp)).push d
    · rcases hinst k d' hd' with hk | ⟨rfl, rfl⟩
      · exact hold.instsTyped hs k d' hk
      · exact htyped hs
    · exact (hold.edgesTyped hs e he).grow hf
  · exact .inl hb'

/-- A terminator that reads what is defined and leads where all that is asked for is. -/
theorem Builder.close_grown {blk : Block} {t : Terminator} (h : b.Sound strict S)
    (hblk : b.func.blocks[b.current.index]? = some blk)
    (ht : t.Scoped b.func (!strict) S (blk.Defined (S b.current.index) blk.insts.size))
    (htyped : strict = true → t.WellTyped b.func.HasType ∧ ∀ e ∈ t.edges, b.func.EdgeTyped e.1 e.2)
    :
    b.Grown strict S S (b.close t) := by
  have hold := h.func _ _ hblk
  have hf : b.func.Grows (b.close t).func := by
    refine ⟨fun _ _ h => h, fun i blk hb => ?_⟩
    by_cases hi : b.current.index = i
    · exact ⟨{ blk with terminator := t }, by simp [close, Array.getElem?_modify, hi, hb], rfl⟩
    · exact ⟨blk, by simp [close, Array.getElem?_modify, hi, hb], rfl⟩
  refine h.change ⟨by simp [close, h.wf.flags], by simpa [close] using h.wf.current⟩ hf
    (fun _ _ => rfl) ?_
  intro i blk' hb'
  simp only [close, Array.getElem?_modify] at hb'
  split at hb'
  · rename_i hi
    subst hi
    rw [hblk] at hb'
    cases hb'
    exact .inr ⟨hold.params, hold.insts, ht.grow hf (fun _ _ => rfl) fun _ h => h, hold.instsTyped,
      fun hs => (htyped hs).1, fun hs e he => ((htyped hs).2 e he).grow hf⟩
  · exact .inl hb'

/-! ## What is defined -/

theorem Builder.WellFormed.block (h : b.WellFormed) :
    ∃ blk, b.func.blocks[b.current.index]? = some blk :=
  ⟨_, Array.getElem?_eq_getElem h.current⟩

theorem Builder.here_of_closed (h : b.IsClosed b.current.index) (r : Reg) : b.Here S r := .inl h

theorem Builder.here_goTo {p : BlockId} (hp : p.index < b.func.blocks.size) (hr : S p.index r) :
    (b.goTo p).Here S r :=
  .inr ⟨b.func.blocks[p.index], Array.getElem?_eq_getElem hp, .inl hr⟩

/-- A parameter of a block is defined in it. -/
theorem Builder.here_param {p : BlockId} {blk : Block} (hp : b.func.blocks[p.index]? = some blk)
    (hr : r ∈ blk.params) :
    (b.goTo p).Here S r :=
  .inr ⟨blk, hp, .inr (.inl hr)⟩

theorem Builder.Here.addBlock (h : b.Here S r) (hw : b.WellFormed) (cold : Bool) (V : Reg → Prop) :
    (b.addBlock cold).Here (S.add b.func.blocks.size V) r := by
  have hlt := hw.current
  rcases h with hc | ⟨blk, hblk, hd⟩
  · exact .inl ((addBlock_isClosed cold).2 hc)
  · refine .inr ⟨blk, (addBlock_getElem? cold hlt).trans hblk, ?_⟩
    change blk.Defined (S.add b.func.blocks.size V b.current.index) _ _
    rw [Scoping.add_of_ne (by omega)]
    exact hd

theorem Builder.Here.addJoin (h : b.Here S r) (hw : b.WellFormed) (cold : Bool) (ty : Ty)
    (V : Reg → Prop) :
    (((b.addBlock cold).addReg ty).addParam ⟨b.func.blocks.size⟩ ⟨b.func.types.size⟩).Here
      (S.add b.func.blocks.size V) r := by
  have hlt := hw.current
  rcases h.addBlock hw cold V with hc | ⟨blk, hblk, hd⟩
  · exact .inl hc
  · refine .inr ⟨blk, ?_, hd⟩
    have hne : b.func.blocks.size ≠ b.current.index := by omega
    simpa [addParam, addReg, Array.getElem?_modify, Builder.addBlock, hne] using hblk

theorem Builder.Here.addInst (h : b.Here S r) (d : InstData) : (b.addInst d).Here S r := by
  rcases h with hc | ⟨blk, hblk, hd⟩
  · exact .inl hc
  · exact .inr ⟨{ blk with insts := blk.insts.push d },
      by simp [Builder.addInst, Array.getElem?_modify, hblk], (hd.later (by simp)).push d⟩

/-- The result of an instruction is defined behind it. -/
theorem Builder.addInst_here {d : InstData} (hw : b.WellFormed) (hr : d.result = some r) :
    (b.addInst d).Here S r := by
  obtain ⟨blk, hblk⟩ := hw.block
  exact .inr ⟨{ blk with insts := blk.insts.push d },
    by simp [addInst, Array.getElem?_modify, hblk],
    .inr (.inr ⟨blk.insts.size, by simp, d, by simp, hr⟩)⟩

/-- A block made on the side that leads where all that is asked for is. -/
theorem Builder.addClosed_grown {t : Terminator} (h : b.Sound strict S)
    (ht : t.Scoped b.func (!strict) S (b.Here S))
    (htyped : strict = true → t.WellTyped b.func.HasType ∧ ∀ e ∈ t.edges, b.func.EdgeTyped e.1 e.2)
    :
    b.Grown strict S (S.add b.func.blocks.size (b.Here S)) (b.addClosed t) := by
  have e₁ := addBlock_grown h false (b.Here S)
  have hin : b.func.blocks.size < (b.addBlock false).func.blocks.size := by simp [addBlock]
  have e₂ := e₁.trans (goTo_grown (p := ⟨b.func.blocks.size⟩) e₁.after hin)
  have hempty : ((b.addBlock false).goTo ⟨b.func.blocks.size⟩).func.blocks[b.func.blocks.size]?
    = some {} := by simp [addBlock, goTo]
  have e₃ := close_grown (t := t) e₂.after hempty
    (ht.grow e₂.func e₂.scope fun r hr =>
      .inl (by simp only [goTo]; rw [Scoping.add_self]; exact hr))
    fun hs => ⟨(htyped hs).1.mono fun r ty => e₂.func.types _ _,
      fun e he => ((htyped hs).2 e he).grow e₂.func⟩
  refine (e₂.trans e₃).trans (goTo_grown e₃.after ?_)
  have := h.wf.current
  simp only [close, goTo, addBlock, Array.size_modify, Array.size_push]
  omega

theorem Builder.addClosed_last (b : Builder) (t : Terminator) :
    (b.addClosed t).func.blocks[b.func.blocks.size]? = some { terminator := t } := by
  simp only [addClosed, goTo, close, addBlock, Array.getElem?_modify, Array.getElem?_push_size]
  rfl

theorem Builder.Here.addClosed (h : b.Here S r) (hw : b.WellFormed) (t : Terminator)
    (V : Reg → Prop) :
    (b.addClosed t).Here (S.add b.func.blocks.size V) r := by
  have hlt := hw.current
  rcases h with hc | ⟨blk, hblk, hd⟩
  · exact .inl ((addClosed_terminated (i := b.current.index) hw t (by omega)).trans hc)
  · refine .inr ⟨blk, (addClosed_getElem? t hlt).trans hblk, ?_⟩
    change blk.Defined (S.add b.func.blocks.size V b.current.index) _ _
    rw [Scoping.add_of_ne (by omega)]
    exact hd

namespace Emit

/-- Before something is added there is an open block, with the same registers defined. -/
theorem ensureOpen_grown {u : Unit} (h : b.Sound strict S) (hx : ensureOpen b = .ok (u, b')) :
    ∃ S' blk, b.Grown strict S S' b' ∧ b'.func.blocks[b'.current.index]? = some blk ∧
    b'.func.types = b.func.types ∧
      ∀ r, b.Here S r → blk.Defined (S' b'.current.index) blk.insts.size r := by
  rcases ensureOpen_ok hx with ⟨ho, rfl⟩ | ⟨hc, rfl⟩
  · obtain ⟨blk, hblk⟩ := h.wf.block
    refine ⟨S, blk, .refl h, hblk, rfl, fun r hr => ?_⟩
    rcases hr with hc | ⟨blk', hblk', hd⟩
    · exact absurd hc ho.not_closed
    · rw [hblk] at hblk'
      cases hblk'
      exact hd
  · -- nothing leads to the new block
    have hadd := Builder.addBlock_grown h false fun _ => True
    have hin : b.func.blocks.size < (b.addBlock false).func.blocks.size := by
      simp [Builder.addBlock]
    refine ⟨S.add b.func.blocks.size fun _ => True, {},
      hadd.trans (Builder.goTo_grown hadd.after hin),
      by simp [Builder.addBlock, Builder.goTo], rfl, fun r _ => .inl ?_⟩
    simp only [Builder.goTo]
    rw [Scoping.add_self]
    trivial

/-- What adding an instruction gives. -/
theorem define_grown {ty : Ty} {inst : Inst} (h : b.Sound strict S) (hstore : inst.isStore = false)
    (hreads : ∀ r ∈ inst.reads, b.Here S r)
    (htyped : strict = true → inst.WellTyped b.func.HasType (some ty))
    (hx : define ty inst b = .ok (r, b')) :
    ∃ S', b.Grown strict S S' b' ∧ (∀ r, b.Here S r → b'.Here S' r) ∧ b'.Here S' r ∧
      b'.func.types[r.index]? = some ty := by
  obtain ⟨b₁, h₁, rfl, rfl⟩ := define_ok hx
  obtain ⟨S₁, blk, e₁, hblk, htypes, hdef⟩ := ensureOpen_grown h h₁
  have e₂ := Builder.addReg_grown e₁.after ty
  have hnew : (b₁.addReg ty).func.types[b₁.func.types.size]? = some ty := by simp [Builder.addReg]
  have e₃ := Builder.addInst_grown (d := ⟨inst, some ⟨b₁.func.types.size⟩⟩) e₂.after hblk
    ⟨fun r hr => hdef r (hreads r hr), fun r hr => by
      cases hr
      exact ⟨by simp [Builder.addReg], hstore⟩⟩
    fun hs => by
      simp only [Option.bind_some, hnew]
      exact (htyped hs).mono fun r ty hr => (e₁.trans e₂).func.types _ _ hr
  refine ⟨S₁, (e₁.trans e₂).trans e₃, fun r hr => ?_, Builder.addInst_here e₂.after.wf rfl, hnew⟩
  have hr₂ : (b₁.addReg ty).Here S₁ r := .inr ⟨blk, hblk, hdef r hr⟩
  exact hr₂.addInst _

theorem terminate_grown {t : Terminator} {u : Unit} (h : b.Sound strict S)
    (hreads : ∀ r ∈ t.reads, b.Here S r)
    (hedges : ∀ e ∈ t.edges, b.func.EdgeScoped (!strict) S (b.Here S) e.1 e.2)
    (htyped : strict = true → t.WellTyped b.func.HasType ∧ ∀ e ∈ t.edges, b.func.EdgeTyped e.1 e.2)
    (hx : terminate t b = .ok (u, b')) :
    ∃ S', b.Grown strict S S' b' ∧ b'.IsClosed b'.current.index := by
  obtain ⟨b₁, h₁, rfl⟩ := terminate_ok hx
  obtain ⟨S₁, blk, e₁, hblk, htypes, hdef⟩ := ensureOpen_grown h h₁
  have e₂ := Builder.close_grown (t := t) e₁.after hblk
    ⟨fun r hr => hdef r (hreads r hr), fun e he => (hedges e he).grow e₁.func e₁.scope hdef⟩
    fun hs => ⟨(htyped hs).1.mono fun r ty => e₁.func.types _ _,
      fun e he => ((htyped hs).2 e he).grow e₁.func⟩
  exact ⟨S₁, e₁.trans e₂, Builder.close_isClosed e₁.after.wf t⟩

end Emit

end SpecJit.Lir
