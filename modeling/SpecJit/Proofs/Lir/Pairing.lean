import Mathlib.Data.List.Forall2
import SpecJit.Proofs.Lir.Growth
import SpecJit.Proofs.Lir.Run

/-!
# Functions that go together

A `Pairing` says which registers and blocks of two functions go together. `Builder.Pairs π b b'`
says that the code of the paired blocks is the same but for the names of registers and blocks, and
that either builder may have put constants aside: instructions that define a register which the
other one does not have. Exits are paired by their number only, whatever they capture.

Every change of a builder that is made on both sides keeps the builders paired, under a pairing that
has grown, and so does a constant put aside on one of them.
-/

namespace SpecJit.Lir

theorem BlockId.eq_of_index {p q : BlockId} (h : p.index = q.index) : p = q := by
  cases p
  cases q
  cases h
  rfl

/-- Registers and blocks of two functions that go together, and the registers on either side that
hold a constant which was put aside. -/
structure Pairing where
  regs : Reg → Reg → Prop
  blocks : BlockId → BlockId → Prop
  left : Reg → Int64 → Prop
  right : Reg → Int64 → Prop

namespace Pairing

/-- What goes together in one pairing does so in the other one. -/
structure Le (π π' : Pairing) : Prop where
  regs : ∀ {r r'}, π.regs r r' → π'.regs r r'
  blocks : ∀ {p p'}, π.blocks p p' → π'.blocks p p'
  left : ∀ {r n}, π.left r n → π'.left r n
  right : ∀ {r n}, π.right r n → π'.right r n

variable {π π' π'' : Pairing}

theorem Le.refl (π : Pairing) : π.Le π := ⟨id, id, id, id⟩

theorem Le.trans (h₁ : π.Le π') (h₂ : π'.Le π'') : π.Le π'' :=
  ⟨fun h => h₂.regs (h₁.regs h), fun h => h₂.blocks (h₁.blocks h), fun h => h₂.left (h₁.left h),
    fun h => h₂.right (h₁.right h)⟩

/-- The pairing seen from the other side. -/
def flip (π : Pairing) : Pairing where
  regs r r' := π.regs r' r
  blocks p p' := π.blocks p' p
  left := π.right
  right := π.left

theorem Le.flip (h : π.Le π') : π.flip.Le π'.flip := ⟨h.regs, h.blocks, h.right, h.left⟩

/-- Two more registers that go together. -/
def addReg (π : Pairing) (r r' : Reg) : Pairing :=
  { π with regs := fun q q' => π.regs q q' ∨ q = r ∧ q' = r' }

/-- Two more blocks that go together. -/
def addBlock (π : Pairing) (p p' : BlockId) : Pairing :=
  { π with blocks := fun q q' => π.blocks q q' ∨ q = p ∧ q' = p' }

/-- One more constant put aside on the left. -/
def addLeft (π : Pairing) (r : Reg) (n : Int64) : Pairing :=
  { π with left := fun q m => π.left q m ∨ q = r ∧ m = n }

/-- The registers hold the same: they go together, or hold one constant, put aside on either side.
-/
def Same (π : Pairing) (r r' : Reg) : Prop := π.regs r r' ∨ ∃ n, π.left r n ∧ π.right r' n

/-- The captured values with these indices are the same. -/
def Captured (π : Pairing) (regs regs' : List Reg) (i i' : Nat) : Prop :=
  ∃ r r', regs[i]? = some r ∧ regs'[i']? = some r' ∧ π.Same r r'

theorem le_addReg (π : Pairing) (r r' : Reg) : π.Le (π.addReg r r') := ⟨.inl, id, id, id⟩

theorem le_addBlock (π : Pairing) (p p' : BlockId) : π.Le (π.addBlock p p') := ⟨id, .inl, id, id⟩

theorem le_addLeft (π : Pairing) (r : Reg) (n : Int64) : π.Le (π.addLeft r n) := ⟨id, id, .inl, id⟩

theorem Same.mono {r r' : Reg} (h : π.Same r r') (hπ : π.Le π') : π'.Same r r' :=
  h.imp hπ.regs fun ⟨n, hl, hr⟩ => ⟨n, hπ.left hl, hπ.right hr⟩

theorem Captured.mono {regs regs' : List Reg} {i i' : Nat} (h : π.Captured regs regs' i i')
    (hπ : π.Le π') : π'.Captured regs regs' i i' := by
  obtain ⟨r, r', hr, hr', hsame⟩ := h
  exact ⟨r, r', hr, hr', hsame.mono hπ⟩

theorem Same.flip {r r' : Reg} (h : π.Same r r') : π.flip.Same r' r :=
  h.imp_right fun ⟨n, hl, hr⟩ => ⟨n, hr, hl⟩

theorem Captured.flip {regs regs' : List Reg} {i i' : Nat} (h : π.Captured regs regs' i i') :
    π.flip.Captured regs' regs i' i := by
  obtain ⟨r, r', hr, hr', hsame⟩ := h
  exact ⟨r', r, hr', hr, hsame.flip⟩

end Pairing

/-! ## Code that goes together -/

/-- The same instruction on operands that go together. -/
inductive Inst.Pairs (R : Reg → Reg → Prop) : Inst → Inst → Prop
  | iconst (ty : Ty) (imm : Int64) : Pairs R (.iconst ty imm) (.iconst ty imm)
  | fconst (d : Double) : Pairs R (.fconst d) (.fconst d)
  | context : Pairs R .context .context
  | frame : Pairs R .frame .frame
  | binary (op : BinaryOp) (ty : Ty) {l l' r r' : Reg} : R l l' → R r r' →
    Pairs R (.binary op ty l r) (.binary op ty l' r')
  | overflows (op : OverflowOp) (ty : Ty) {l l' r r' : Reg} : R l l' → R r r' →
      Pairs R (.overflows op ty l r) (.overflows op ty l' r')
  | unary (op : UnaryOp) (ty : Ty) {r r' : Reg} : R r r' → Pairs R (.unary op ty r)
    (.unary op ty r')
  | fbinary (op : FBinaryOp) {l l' r r' : Reg} : R l l' → R r r' → Pairs R (.fbinary op l r)
    (.fbinary op l' r')
  | funary (op : FUnaryOp) {r r' : Reg} : R r r' → Pairs R (.funary op r) (.funary op r')
  | icmp (cc : IntCC) {l l' r r' : Reg} : R l l' → R r r' → Pairs R (.icmp cc l r) (.icmp cc l' r')
  | fcmp (cc : FloatCC) {l l' r r' : Reg} : R l l' → R r r' → Pairs R (.fcmp cc l r)
    (.fcmp cc l' r')
  | select {c c' l l' r r' : Reg} : R c c' → R l l' → R r r' → Pairs R (.select c l r)
    (.select c' l' r')
  | extend (signed : Bool) {r r' : Reg} : R r r' → Pairs R (.extend signed r) (.extend signed r')
  | truncate {r r' : Reg} : R r r' → Pairs R (.truncate r) (.truncate r')
  | intToDouble (signed : Bool) {r r' : Reg} : R r r' → Pairs R (.intToDouble signed r)
    (.intToDouble signed r')
  | doubleToInt (ty : Ty) {r r' : Reg} : R r r' → Pairs R (.doubleToInt ty r) (.doubleToInt ty r')
  | bitcastToInt {r r' : Reg} : R r r' → Pairs R (.bitcastToInt r) (.bitcastToInt r')
  | bitcastToDouble {r r' : Reg} : R r r' → Pairs R (.bitcastToDouble r) (.bitcastToDouble r')
  | load (ty : Ty) (width : MemWidth) (signed : Bool) {r r' : Reg} (offset : Int32) : R r r' →
      Pairs R (.load ty width signed r offset) (.load ty width signed r' offset)
  | store (width : MemWidth) {v v' r r' : Reg} (offset : Int32) : R v v' → R r r' →
      Pairs R (.store width v r offset) (.store width v' r' offset)
  | call (helper : Helper) {args args' : List Reg} : List.Forall₂ R args args' →
    Pairs R (.call helper args) (.call helper args')
  | patchpoint (site : SiteId) {args args' : List Reg} : List.Forall₂ R args args' →
      Pairs R (.patchpoint site args) (.patchpoint site args')

/-- The same terminator on operands and blocks that go together; of an exit, only the number counts.
-/
inductive Terminator.Pairs (π : Pairing) : Terminator → Terminator → Prop
  | jump {p p' : BlockId} {args args' : List Reg} : π.blocks p p' → List.Forall₂ π.regs args args' →
      Pairs π (.jump p args) (.jump p' args')
  | branch {c c' : Reg} {p p' q q' : BlockId} {args args' brgs brgs' : List Reg}
    (weight : BranchWeight) : π.regs c c' →
      π.blocks p p' → List.Forall₂ π.regs args args' → π.blocks q q' → List.Forall₂ π.regs brgs
        brgs' →
      Pairs π (.branch c p args q brgs weight) (.branch c' p' args' q' brgs' weight)
  | switch {v v' : Reg} {cases cases' : List (Int32 × BlockId)} {p p' : BlockId} : π.regs v v' →
      List.Forall₂ (fun c c' => c.1 = c'.1 ∧ π.blocks c.2 c'.2) cases cases' → π.blocks p p' →
      Pairs π (.switch v cases p) (.switch v' cases' p')
  | ret {v v' : Reg} : π.regs v v' → Pairs π (.ret v) (.ret v')
  | exit (id : ExitId) (regs regs' : List Reg) : Pairs π (.exit id regs) (.exit id regs')
  | unreachable : Pairs π .unreachable .unreachable

/-- The same instructions, but for constants put aside. -/
inductive InstsPair (π : Pairing) : List InstData → List InstData → Prop
  | nil : InstsPair π [] []
  | both {i i' : InstData} {l l' : List InstData} : i.inst.Pairs π.regs i'.inst →
    Option.Rel π.regs i.result i'.result →
      InstsPair π l l' → InstsPair π (i :: l) (i' :: l')
  | left {r : Reg} {n : Int64} {l l' : List InstData} : π.left r n → InstsPair π l l' →
      InstsPair π (⟨.iconst .i32 n, some r⟩ :: l) l'
  | right {r : Reg} {n : Int64} {l l' : List InstData} : π.right r n → InstsPair π l l' →
      InstsPair π l (⟨.iconst .i32 n, some r⟩ :: l')

/-- The same block, but for constants put aside. -/
structure Block.Pairs (π : Pairing) (blk blk' : Block) : Prop where
  params : List.Forall₂ π.regs blk.params blk'.params
  insts : InstsPair π blk.insts.toList blk'.insts.toList
  terminator : blk.terminator.Pairs π blk'.terminator

section Mono

variable {π π' : Pairing} {R R' : Reg → Reg → Prop}

theorem Inst.Pairs.mono {i i' : Inst} (h : i.Pairs R i') (hR : ∀ {r r'}, R r r' → R' r r') :
    i.Pairs R' i' := by
  have hall : ∀ {l l' : List Reg}, List.Forall₂ R l l' → List.Forall₂ R' l l' :=
    fun h => h.imp fun _ _ => hR
  cases h <;> constructor <;> first | exact hR ‹_› | exact hall ‹_›

theorem Inst.Pairs.flip {i i' : Inst} (h : i.Pairs R i') : i'.Pairs (fun r r' => R r' r) i := by
  cases h <;> constructor <;> first | assumption | exact List.Forall₂.flip ‹_›

theorem Terminator.Pairs.mono {t t' : Terminator} (h : t.Pairs π t') (hπ : π.Le π') :
    t.Pairs π' t' := by
  have hall : ∀ {l l' : List Reg}, List.Forall₂ π.regs l l' → List.Forall₂ π'.regs l l' :=
    fun h => h.imp fun _ _ => hπ.regs
  cases h with
  | jump hp hargs => exact .jump (hπ.blocks hp) (hall hargs)
  | branch weight hc hp hargs hq hbrgs =>
    exact .branch weight (hπ.regs hc) (hπ.blocks hp) (hall hargs) (hπ.blocks hq) (hall hbrgs)
  | switch hv hcases hp =>
    exact .switch (hπ.regs hv) (hcases.imp fun _ _ h => ⟨h.1, hπ.blocks h.2⟩) (hπ.blocks hp)
  | ret hv => exact .ret (hπ.regs hv)
  | exit id regs regs' => exact .exit id regs regs'
  | unreachable => exact .unreachable

theorem Terminator.Pairs.flip {t t' : Terminator} (h : t.Pairs π t') : t'.Pairs π.flip t := by
  cases h with
  | jump hp hargs => exact .jump hp hargs.flip
  | branch weight hc hp hargs hq hbrgs => exact .branch weight hc hp hargs.flip hq hbrgs.flip
  | switch hv hcases hp => exact .switch hv (hcases.flip.imp fun _ _ h => ⟨h.1.symm, h.2⟩) hp
  | ret hv => exact .ret hv
  | exit id regs regs' => exact .exit id regs' regs
  | unreachable => exact .unreachable

theorem optionRel_mono {α β : Type} {R R' : α → β → Prop} {o : Option α} {o' : Option β}
    (h : Option.Rel R o o') (hR : ∀ {a b}, R a b → R' a b) : Option.Rel R' o o' := by
  cases h with
  | some h => exact .some (hR h)
  | none => exact .none

theorem optionRel_flip {α β : Type} {R : α → β → Prop} {o : Option α} {o' : Option β}
    (h : Option.Rel R o o') :
    Option.Rel (fun b a => R a b) o' o := by
  cases h with
  | some h => exact .some h
  | none => exact .none

theorem InstsPair.mono {l l' : List InstData} (h : InstsPair π l l') (hπ : π.Le π') :
    InstsPair π' l l' := by
  induction h with
  | nil => exact .nil
  | both hi hr _ ih => exact .both (hi.mono hπ.regs) (optionRel_mono hr hπ.regs) ih
  | left hr _ ih => exact .left (hπ.left hr) ih
  | right hr _ ih => exact .right (hπ.right hr) ih

theorem InstsPair.flip {l l' : List InstData} (h : InstsPair π l l') : InstsPair π.flip l' l := by
  induction h with
  | nil => exact .nil
  | both hi hr _ ih =>
    exact .both hi.flip (optionRel_flip hr) ih
  | left hr _ ih => exact .right hr ih
  | right hr _ ih => exact .left hr ih

theorem InstsPair.append {l l' k k' : List InstData} (h : InstsPair π l l') (hk : InstsPair π k k')
    :
    InstsPair π (l ++ k) (l' ++ k') := by
  induction h with
  | nil => exact hk
  | both hi hr _ ih => exact .both hi hr ih
  | left hr _ ih => exact .left hr ih
  | right hr _ ih => exact .right hr ih

theorem Block.Pairs.mono {blk blk' : Block} (h : blk.Pairs π blk') (hπ : π.Le π') :
    blk.Pairs π' blk' :=
  ⟨h.params.imp fun _ _ => hπ.regs, h.insts.mono hπ, h.terminator.mono hπ⟩

theorem Block.Pairs.flip {blk blk' : Block} (h : blk.Pairs π blk') : blk'.Pairs π.flip blk :=
  ⟨h.params.flip, h.insts.flip, h.terminator.flip⟩

theorem Block.Pairs.empty (cold cold' : Bool) : Block.Pairs π { cold := cold } { cold := cold' } :=
  ⟨.nil, .nil, .unreachable⟩

end Mono

/-! ## Builders that go together -/

namespace Builder

variable {π π' : Pairing} {b b₁ b' b₁' : Builder} {p p' : BlockId} {r r' : Reg}

/-- A builder whose open blocks have no terminator yet. -/
structure Proper (b : Builder) : Prop extends b.WellFormed where
  unended : ∀ (i : Nat) blk, b.IsOpen i → b.func.blocks[i]? = some blk →
    blk.terminator = .unreachable

/-- Two blocks with the same code, both of which have their terminator or neither. -/
def BlocksPair (π : Pairing) (b : Builder) (p : BlockId) (b' : Builder) (p' : BlockId) : Prop :=
  ∃ blk blk', b.func.blocks[p.index]? = some blk ∧ b'.func.blocks[p'.index]? = some blk' ∧
    blk.Pairs π blk' ∧
    b.terminated[p.index]? = b'.terminated[p'.index]?

/-- The builders have the same code where they go together. -/
structure Agree (π : Pairing) (b b' : Builder) : Prop where
  proper : b.Proper
  proper' : b'.Proper
  reg : ∀ {r r'}, π.regs r r' → ∃ ty, b.func.types[r.index]? = some ty ∧
    b'.func.types[r'.index]? = some ty
  regUnique : ∀ {r r' q q'}, π.regs r r' → π.regs q q' → (r = q ↔ r' = q')
  block : ∀ {p p'}, π.blocks p p' → BlocksPair π b p b' p'
  blockUnique : ∀ {p p' q q'}, π.blocks p p' → π.blocks q q' → (p = q ↔ p' = q')
  left : ∀ {r n}, π.left r n → b.func.types[r.index]? = some .i32 ∧ (∀ r', ¬ π.regs r r') ∧ ∀ m,
    π.left r m → m = n
  right : ∀ {r n}, π.right r n → b'.func.types[r.index]? = some .i32 ∧ (∀ r', ¬ π.regs r' r) ∧ ∀ m,
    π.right r m → m = n

/-- The builders agree and are in blocks that go together. -/
structure Pairs (π : Pairing) (b b' : Builder) : Prop extends Agree π b b' where
  current : π.blocks b.current b'.current

theorem BlocksPair.flip (h : BlocksPair π b p b' p') : BlocksPair π.flip b' p' b p := by
  obtain ⟨blk, blk', hp, hp', hpairs, hflags⟩ := h
  exact ⟨blk', blk, hp', hp, hpairs.flip, hflags.symm⟩

theorem BlocksPair.mono (h : BlocksPair π b p b' p') (hπ : π.Le π') : BlocksPair π' b p b' p' := by
  obtain ⟨blk, blk', hp, hp', hpairs, hflags⟩ := h
  exact ⟨blk, blk', hp, hp', hpairs.mono hπ, hflags⟩

/-- The same blocks in other builders. -/
theorem BlocksPair.keep (h : BlocksPair π b p b' p')
    (hb : b₁.func.blocks[p.index]? = b.func.blocks[p.index]?)
    (ht : b₁.terminated[p.index]? = b.terminated[p.index]?)
    (hb' : b₁'.func.blocks[p'.index]? = b'.func.blocks[p'.index]?)
    (ht' : b₁'.terminated[p'.index]? = b'.terminated[p'.index]?) : BlocksPair π b₁ p b₁' p' := by
  obtain ⟨blk, blk', hp, hp', hpairs, hflags⟩ := h
  exact ⟨blk, blk', hb.trans hp, hb'.trans hp', hpairs, by rw [ht, ht', hflags]⟩

namespace Agree

theorem flip (h : Agree π b b') : Agree π.flip b' b where
  proper := h.proper'
  proper' := h.proper
  reg hr := by
    obtain ⟨ty, hty, hty'⟩ := h.reg hr
    exact ⟨ty, hty', hty⟩
  regUnique hr hq := (h.regUnique hr hq).symm
  block hp := (h.block hp).flip
  blockUnique hp hq := (h.blockUnique hp hq).symm
  left := h.right
  right := h.left

theorem lt (h : Agree π b b') (hp : π.blocks p p') : p.index < b.func.blocks.size := by
  obtain ⟨_, _, hp, -⟩ := h.block hp
  exact (Array.getElem?_eq_some_iff.1 hp).1

theorem reg_lt (h : Agree π b b') (hr : π.regs r r') : r.index < b.func.types.size := by
  obtain ⟨_, hr, -⟩ := h.reg hr
  exact (Array.getElem?_eq_some_iff.1 hr).1

/-- The builders go on elsewhere. -/
theorem goTo (h : Agree π b b') (hp : p.index < b.func.blocks.size)
    (hp' : p'.index < b'.func.blocks.size) :
    Agree π (b.goTo p) (b'.goTo p') :=
  ⟨⟨⟨h.proper.flags, hp⟩, h.proper.unended⟩, ⟨⟨h.proper'.flags, hp'⟩, h.proper'.unended⟩, h.reg,
    h.regUnique, h.block,
    h.blockUnique, h.left, h.right⟩

end Agree

/-- Both builders go on in blocks that go together. -/
theorem Pairs.goTo (h : Pairs π b b') (hp : π.blocks p p') : Pairs π (b.goTo p) (b'.goTo p') :=
  ⟨h.toAgree.goTo (h.lt hp) (h.toAgree.flip.lt hp), hp⟩

theorem Proper.addBlock (h : b.Proper) (cold : Bool) : (b.addBlock cold).Proper where
  flags := by simp [Builder.addBlock, h.flags]
  current := by
    have := h.current
    simp only [Builder.addBlock, Array.size_push]
    omega
  unended i blk ho hb := by
    by_cases hi : i = b.func.blocks.size
    · simp only [Builder.addBlock, hi, Array.getElem?_push_size, Option.some.injEq] at hb
      rw [← hb]
    · simp only [Builder.addBlock, Array.getElem?_push, hi, if_false] at hb
      exact h.unended i blk ((addBlock_isOpen_of_ne cold h.toWellFormed hi).1 ho) hb

theorem addBlock_terminated {cold : Bool} {i : Nat} (hi : i < b.func.blocks.size)
    (hw : b.WellFormed) :
    (b.addBlock cold).terminated[i]? = b.terminated[i]? := by
  have hi' : i < b.terminated.size := by rw [hw.flags]; exact hi
  simp [Builder.addBlock, Array.getElem?_push, Nat.ne_of_lt hi']

/-- A block that does not go together with another is added on the left. -/
theorem Agree.newBlock (h : Agree π b b') (cold : Bool) : Agree π (b.addBlock cold) b' :=
  ⟨h.proper.addBlock cold, h.proper', h.reg, h.regUnique, fun hp => (h.block hp).keep
    (addBlock_getElem? cold (h.lt hp))
    (addBlock_terminated (h.lt hp) h.proper.toWellFormed) rfl rfl, h.blockUnique, h.left, h.right⟩

/-- Two blocks go together from now on. -/
theorem Agree.joinBlocks (h : Agree π b b') (hnew : ∀ q, ¬ π.blocks p q)
    (hnew' : ∀ q, ¬ π.blocks q p') (hpair : BlocksPair π b p b' p') :
    Agree (π.addBlock p p') b b' where
  proper := h.proper
  proper' := h.proper'
  reg := h.reg
  regUnique := h.regUnique
  block := by
    rintro q q' (hq | ⟨rfl, rfl⟩)
    · exact (h.block hq).mono (π.le_addBlock _ _)
    · exact hpair.mono (π.le_addBlock _ _)
  blockUnique := by
    rintro q q' o o' (hq | ⟨rfl, rfl⟩) (ho | ⟨rfl, rfl⟩)
    · exact h.blockUnique hq ho
    · exact iff_of_false (fun he => hnew _ (he ▸ hq)) fun he => hnew' _ (he ▸ hq)
    · exact iff_of_false (fun he => hnew _ (he ▸ ho)) fun he => hnew' _ (he ▸ ho)
    · simp
  left := h.left
  right := h.right

/-- Both builders get a block. -/
theorem Agree.addBlock (h : Agree π b b') (cold cold' : Bool) :
    Agree (π.addBlock ⟨b.func.blocks.size⟩ ⟨b'.func.blocks.size⟩) (b.addBlock cold)
      (b'.addBlock cold') := by
  have h' : Agree π (b.addBlock cold) (b'.addBlock cold') :=
    ((h.newBlock cold).flip.newBlock cold').flip
  refine h'.joinBlocks (fun q hq => Nat.lt_irrefl _ (h.lt hq))
    (fun q hq => Nat.lt_irrefl _ (h.flip.lt hq))
    ⟨{ cold := cold }, { cold := cold' }, ?_, ?_, .empty _ _, ?_⟩
  · simp [Builder.addBlock]
  · simp [Builder.addBlock]
  · simp [Builder.addBlock, ← h.proper.flags, ← h.proper'.flags]

theorem Pairs.addBlock (h : Pairs π b b') (cold cold' : Bool) :
    Pairs (π.addBlock ⟨b.func.blocks.size⟩ ⟨b'.func.blocks.size⟩) (b.addBlock cold)
      (b'.addBlock cold') :=
  ⟨h.toAgree.addBlock cold cold', .inl h.current⟩

/-- Both builders get a register. -/
theorem Agree.addReg (h : Agree π b b') (ty : Ty) :
    Agree (π.addReg ⟨b.func.types.size⟩ ⟨b'.func.types.size⟩) (b.addReg ty) (b'.addReg ty) where
  proper := ⟨⟨h.proper.flags, h.proper.current⟩, h.proper.unended⟩
  proper' := ⟨⟨h.proper'.flags, h.proper'.current⟩, h.proper'.unended⟩
  reg := by
    rintro r r' (hr | ⟨rfl, rfl⟩)
    · obtain ⟨ty', hty, hty'⟩ := h.reg hr
      refine ⟨ty', ?_, ?_⟩
      · rw [Builder.addReg, Array.getElem?_push_lt (h.reg_lt hr),
          ← Array.getElem?_eq_getElem (h.reg_lt hr)]
        exact hty
      · rw [Builder.addReg, Array.getElem?_push_lt (h.flip.reg_lt hr),
          ← Array.getElem?_eq_getElem (h.flip.reg_lt hr)]
        exact hty'
    · exact ⟨ty, by simp [Builder.addReg], by simp [Builder.addReg]⟩
  regUnique := by
    rintro r r' q q' (hr | ⟨rfl, rfl⟩) (hq | ⟨rfl, rfl⟩)
    · exact h.regUnique hr hq
    · exact iff_of_false (fun he => Nat.lt_irrefl _ (he ▸ h.reg_lt hr)) fun he =>
        Nat.lt_irrefl _ (he ▸ h.flip.reg_lt hr)
    · exact iff_of_false (fun he => Nat.lt_irrefl _ (he ▸ h.reg_lt hq)) fun he =>
        Nat.lt_irrefl _ (he ▸ h.flip.reg_lt hq)
    · simp
  block hp := (h.block hp).mono (π.le_addReg _ _)
  blockUnique := h.blockUnique
  left := by
    intro r n hr
    obtain ⟨hty, hnot, hunique⟩ := h.left hr
    have hlt := (Array.getElem?_eq_some_iff.1 hty).1
    refine ⟨?_, ?_, hunique⟩
    · rw [Builder.addReg, Array.getElem?_push_lt hlt, ← Array.getElem?_eq_getElem hlt]
      exact hty
    · rintro r' (hr' | ⟨rfl, -⟩)
      · exact hnot r' hr'
      · exact Nat.lt_irrefl _ hlt
  right := by
    intro r n hr
    obtain ⟨hty, hnot, hunique⟩ := h.right hr
    have hlt := (Array.getElem?_eq_some_iff.1 hty).1
    refine ⟨?_, ?_, hunique⟩
    · rw [Builder.addReg, Array.getElem?_push_lt hlt, ← Array.getElem?_eq_getElem hlt]
      exact hty
    · rintro r' (hr' | ⟨-, rfl⟩)
      · exact hnot r' hr'
      · exact Nat.lt_irrefl _ hlt

theorem Pairs.addReg (h : Pairs π b b') (ty : Ty) :
    Pairs (π.addReg ⟨b.func.types.size⟩ ⟨b'.func.types.size⟩) (b.addReg ty) (b'.addReg ty) :=
  ⟨h.toAgree.addReg ty, h.current⟩

/-- Two blocks that go together change, and nothing else does. -/
theorem Agree.update (h : Agree π b b') (hp : π.blocks p p') (hproper : b₁.Proper)
    (hproper' : b₁'.Proper)
    (htypes : b₁.func.types = b.func.types) (htypes' : b₁'.func.types = b'.func.types)
    (hrest : ∀ i, p.index ≠ i → b₁.func.blocks[i]? = b.func.blocks[i]? ∧
      b₁.terminated[i]? = b.terminated[i]?)
    (hrest' : ∀ i, p'.index ≠ i → b₁'.func.blocks[i]? = b'.func.blocks[i]? ∧
      b₁'.terminated[i]? = b'.terminated[i]?)
    (hpairs : BlocksPair π b₁ p b₁' p') : Agree π b₁ b₁' where
  proper := hproper
  proper' := hproper'
  reg hr := by
    rw [htypes, htypes']
    exact h.reg hr
  regUnique := h.regUnique
  block := by
    intro q q' hq
    by_cases hpq : p = q
    · obtain rfl := hpq
      obtain rfl := (h.blockUnique hp hq).1 rfl
      exact hpairs
    · have hpq' : p' ≠ q' := fun he => hpq ((h.blockUnique hp hq).2 he)
      obtain ⟨hb, ht⟩ := hrest q.index fun he => hpq (BlockId.eq_of_index he)
      obtain ⟨hb', ht'⟩ := hrest' q'.index fun he => hpq' (BlockId.eq_of_index he)
      exact (h.block hq).keep hb ht hb' ht'
  blockUnique := h.blockUnique
  left hr := by
    rw [htypes]
    exact h.left hr
  right hr := by
    rw [htypes']
    exact h.right hr

/-- The builder with one block changed. -/
def change (b : Builder) (p : BlockId) (f : Block → Block) : Builder :=
  { b with func.blocks := b.func.blocks.modify p.index f }

theorem change_getElem? {f : Block → Block} {i : Nat} (hi : p.index ≠ i) :
    (b.change p f).func.blocks[i]? = b.func.blocks[i]? := by
  simp [change, Array.getElem?_modify, hi]

theorem change_getElem?_self {f : Block → Block} {blk : Block}
    (h : b.func.blocks[p.index]? = some blk) :
    (b.change p f).func.blocks[p.index]? = some (f blk) := by
  simp [change, Array.getElem?_modify, h]

theorem Proper.change (h : b.Proper) {f : Block → Block}
    (hf : ∀ blk, (f blk).terminator = blk.terminator) :
    (b.change p f).Proper where
  flags := by simp [Builder.change, h.flags]
  current := by simpa [Builder.change] using h.current
  unended i blk ho hb := by
    by_cases hi : p.index = i
    · subst hi
      simp only [Builder.change, Array.getElem?_modify, if_true, Option.map_eq_some_iff] at hb
      obtain ⟨blk', hb, rfl⟩ := hb
      rw [hf]
      exact h.unended _ blk' ho hb
    · rw [change_getElem? hi] at hb
      exact h.unended i blk ho hb

/-- Blocks that go together change in the same way, but keep their terminators. -/
theorem Pairs.change (h : Pairs π b b') (hp : π.blocks p p') {f f' : Block → Block}
    (hf : ∀ blk, (f blk).terminator = blk.terminator)
    (hf' : ∀ blk, (f' blk).terminator = blk.terminator)
    (hpairs : ∀ blk blk', blk.Pairs π blk' → (f blk).Pairs π (f' blk')) :
    Pairs π (b.change p f) (b'.change p' f') := by
  refine ⟨h.toAgree.update hp (h.proper.change hf) (h.proper'.change hf') rfl rfl
    (fun i hi => ⟨change_getElem? hi, rfl⟩)
    (fun i hi => ⟨change_getElem? hi, rfl⟩) ?_, h.current⟩
  obtain ⟨blk, blk', hb, hb', hblk, hflags⟩ := h.block hp
  exact ⟨f blk, f' blk', change_getElem?_self hb, change_getElem?_self hb', hpairs _ _ hblk, hflags⟩

theorem Pairs.addParam (h : Pairs π b b') (hp : π.blocks p p') (hr : π.regs r r') :
    Pairs π (b.addParam p r) (b'.addParam p' r') :=
  h.change hp (fun _ => rfl) (fun _ => rfl) fun _ _ hblk =>
    ⟨List.rel_append hblk.params (.cons hr .nil), hblk.insts, hblk.terminator⟩

/-- Both builders get instructions in the current block. -/
theorem Pairs.addInst (h : Pairs π b b') {i i' : InstData} (hi : i.inst.Pairs π.regs i'.inst)
    (hr : Option.Rel π.regs i.result i'.result) : Pairs π (b.addInst i) (b'.addInst i') :=
  h.change h.current (fun _ => rfl) (fun _ => rfl) fun _ _ hblk =>
    ⟨hblk.params, by simpa using hblk.insts.append (.both hi hr .nil), hblk.terminator⟩

theorem Proper.close (h : b.Proper) (t : Terminator) : (b.close t).Proper where
  flags := by simp [Builder.close, h.flags]
  current := by simpa [Builder.close] using h.current
  unended i blk ho hb := by
    by_cases hi : b.current.index = i
    · subst hi
      exact absurd (close_isClosed h.toWellFormed t) ho.not_closed
    · simp only [IsOpen, Builder.close, Array.getElem?_setIfInBounds_ne hi] at ho
      simp only [Builder.close, Array.getElem?_modify, hi, if_false] at hb
      exact h.unended i blk ho hb

/-- The current blocks end. -/
theorem Pairs.close (h : Pairs π b b') {t t' : Terminator} (ht : t.Pairs π t') :
    Pairs π (b.close t) (b'.close t') := by
  refine ⟨h.toAgree.update h.current (h.proper.close t) (h.proper'.close t') rfl rfl
    (fun i hi => ?_) (fun i hi => ?_) ?_,
    h.current⟩
  · simp [Builder.close, Array.getElem?_modify, hi]
  · simp [Builder.close, Array.getElem?_modify, hi]
  · obtain ⟨blk, blk', hb, hb', hblk, -⟩ := h.block h.current
    refine ⟨{ blk with terminator := t }, { blk' with terminator := t' }, ?_, ?_,
      ⟨hblk.params, hblk.insts, ht⟩, ?_⟩
    · simp [Builder.close, Array.getElem?_modify, hb]
    · simp [Builder.close, Array.getElem?_modify, hb']
    · rw [close_isClosed h.proper.toWellFormed t, close_isClosed h.proper'.toWellFormed t']

/-! ## Constants put aside -/

/-- The builder with a constant put aside. -/
def putAside (b : Builder) (n : Int64) : Builder :=
  (b.addReg .i32).addInst ⟨.iconst .i32 n, some ⟨b.func.types.size⟩⟩

/-- The instructions put constants aside that are recorded in `K`. -/
def Asides (K : Reg → Int64 → Prop) (l : List InstData) : Prop :=
  ∀ i ∈ l, ∃ r n, i = ⟨.iconst .i32 n, some r⟩ ∧ K r n

/-- The builder is behind a block, or in a new block that has constants only and does not go
together with another. -/
def Idle (paired : BlockId → Prop) (K : Reg → Int64 → Prop) (b : Builder) : Prop :=
  b.IsClosed b.current.index ∨ b.IsOpen b.current.index ∧ ¬ paired b.current ∧
    ∃ blk, b.func.blocks[b.current.index]? = some blk ∧ blk.params = [] ∧ Asides K blk.insts.toList

/-- The builders agree, and are either in blocks that go together or both behind such blocks. -/
structure Loose (π : Pairing) (b b' : Builder) : Prop extends Agree π b b' where
  place : π.blocks b.current b'.current ∨
    Idle (fun p => ∃ q, π.blocks p q) π.left b ∧ Idle (fun p => ∃ q, π.blocks q p) π.right b'

theorem Pairs.loose (h : Pairs π b b') : Loose π b b' := ⟨h.toAgree, .inl h.current⟩

theorem Loose.flip (h : Loose π b b') : Loose π.flip b' b :=
  ⟨h.toAgree.flip, h.place.imp_right And.symm⟩

theorem Asides.pair {l l' : List InstData} (h : Asides π.left l) (h' : Asides π.right l') :
    InstsPair π l l' := by
  induction l with
  | nil =>
    induction l' with
    | nil => exact .nil
    | cons i l' ih =>
      obtain ⟨⟨r, n, rfl, hr⟩, hrest⟩ := List.forall_mem_cons.1 h'
      exact .right hr (ih hrest)
  | cons i l ih =>
    obtain ⟨⟨r, n, rfl, hr⟩, hrest⟩ := List.forall_mem_cons.1 h
    exact .left hr (ih hrest)

/-- A builder that is made ready for code, and what it was before. -/
inductive Opened (b : Builder) : Builder → Prop
  | same : b.IsOpen b.current.index → Opened b b
  | fresh : b.IsClosed b.current.index → Opened b ((b.addBlock false).goTo ⟨b.func.blocks.size⟩)

end Builder

theorem Emit.ensureOpen_opened {b b₁ : Builder} {u : Unit} (h : ensureOpen b = .ok (u, b₁)) :
    b.Opened b₁ := by
  rcases ensureOpen_ok h with ⟨ho, rfl⟩ | ⟨hc, rfl⟩
  · exact .same ho
  · exact .fresh hc

namespace Builder

variable {π π' : Pairing} {b b₁ b' b₁' : Builder} {p p' : BlockId} {r r' : Reg}

theorem Proper.opened (h : b.Proper) (ho : b.Opened b₁) :
    b₁.Proper ∧ b₁.IsOpen b₁.current.index := by
  cases ho with
  | same ho => exact ⟨h, ho⟩
  | fresh hc =>
    have hadd := h.addBlock false
    exact ⟨⟨⟨hadd.flags, by simp [Builder.goTo, Builder.addBlock]⟩, hadd.unended⟩,
      addBlock_open h.toWellFormed false⟩

theorem Agree.openLeft (h : Agree π b b') (ho : b.Opened b₁) : Agree π b₁ b' := by
  cases ho with
  | same => exact h
  | fresh hc => exact { h.newBlock false with proper := (h.proper.opened (.fresh hc)).1 }

theorem Idle.opened {paired : BlockId → Prop} {K : Reg → Int64 → Prop} (h : Idle paired K b)
    (ho : b.Opened b₁) (hlt : ∀ p, paired p → p.index < b.func.blocks.size) (hw : b.WellFormed) :
    b₁.IsOpen b₁.current.index ∧
      ¬ paired b₁.current ∧ ∃ blk, b₁.func.blocks[b₁.current.index]? = some blk ∧ blk.params = [] ∧
      Asides K blk.insts.toList := by
  cases ho with
  | same ho =>
    rcases h with hc | h
    · exact absurd hc ho.not_closed
    · exact h
  | fresh hc =>
    refine ⟨addBlock_open hw false, fun hp => Nat.lt_irrefl _ (hlt _ hp), {}, ?_, rfl,
      by simp [Asides]⟩
    simp [Builder.goTo, Builder.addBlock]

/-- The builder on the left is made ready for a constant. -/
theorem Loose.openLeft (h : Loose π b b') (ho : b.Opened b₁) : Loose π b₁ b' := by
  refine ⟨h.toAgree.openLeft ho, ?_⟩
  rcases h.place with hp | ⟨hidle, hidle'⟩
  · cases ho with
    | same => exact .inl hp
    | fresh hc =>
      -- the block on the right ended with the one on the left
      obtain ⟨-, -, -, -, -, hflags⟩ := h.block hp
      have hidle : Idle (fun p => ∃ q, π.blocks p q) π.left b := .inl hc
      have hc' : b'.IsClosed b'.current.index := hflags.symm.trans hc
      exact .inr ⟨.inr (hidle.opened (.fresh hc) (fun p ⟨q, hq⟩ => h.lt hq) h.proper.toWellFormed),
        .inl hc'⟩
  · exact .inr ⟨.inr (hidle.opened ho (fun p ⟨q, hq⟩ => h.lt hq) h.proper.toWellFormed), hidle'⟩

/-- A constant is put aside on the left. -/
theorem Loose.putAside (h : Loose π b b') (ho : b.IsOpen b.current.index) (n : Int64) :
    Loose (π.addLeft ⟨b.func.types.size⟩ n) (b.putAside n) b' := by
  have hle := π.le_addLeft ⟨b.func.types.size⟩ n
  have htypes {i : Nat} {ty : Ty} (hi : b.func.types[i]? = some ty) :
    (b.func.types.push .i32)[i]? = some ty := by
    have hlt := (Array.getElem?_eq_some_iff.1 hi).1
    rw [Array.getElem?_push_lt hlt, ← Array.getElem?_eq_getElem hlt]
    exact hi
  have hproper : (b.putAside n).Proper :=
    Proper.change (b := b.addReg .i32) ⟨⟨h.proper.flags, h.proper.current⟩, h.proper.unended⟩
      fun _ => rfl
  have hrest {i : Nat} (hi : b.current.index ≠ i) :
    (b.putAside n).func.blocks[i]? = b.func.blocks[i]? :=
    change_getElem? (b := b.addReg .i32) hi
  have hself {blk : Block} (hblk : b.func.blocks[b.current.index]? = some blk) :
      (b.putAside n).func.blocks[b.current.index]? =
        some { blk with insts := blk.insts.push ⟨.iconst .i32 n, some ⟨b.func.types.size⟩⟩ } :=
    change_getElem?_self (b := b.addReg .i32) hblk
  refine ⟨⟨hproper, h.proper', fun hr => ?_, h.regUnique, ?_, h.blockUnique, ?_, h.right⟩, ?_⟩
  · obtain ⟨ty, hty, hty'⟩ := h.reg hr
    exact ⟨ty, htypes hty, hty'⟩
  · intro p p' hp
    by_cases hcur : b.current = p
    · obtain rfl := hcur
      obtain ⟨blk, blk', hb, hb', hblk, hflags⟩ := h.block hp
      refine ⟨_, blk', hself hb, hb', ⟨(hblk.mono hle).params, ?_, (hblk.mono hle).terminator⟩,
        hflags⟩
      simpa using (hblk.mono hle).insts.append (.left (.inr ⟨rfl, rfl⟩) .nil)
    · exact ((h.block hp).mono hle).keep (hrest fun he => hcur (BlockId.eq_of_index he)) rfl rfl rfl
  · rintro r m (hr | ⟨rfl, rfl⟩)
    · obtain ⟨hty, hnot, hunique⟩ := h.left hr
      refine ⟨htypes hty, hnot, ?_⟩
      rintro k (hk | ⟨rfl, -⟩)
      · exact hunique k hk
      · exact absurd (Array.getElem?_eq_some_iff.1 hty).1 (Nat.lt_irrefl _)
    · refine ⟨Array.getElem?_push_size, fun r' hr' => Nat.lt_irrefl _ (h.reg_lt hr'), ?_⟩
      rintro k (hk | ⟨-, rfl⟩)
      · exact absurd (Array.getElem?_eq_some_iff.1 (h.left hk).1).1 (Nat.lt_irrefl _)
      · rfl
  · refine h.place.imp id fun ⟨hidle, hidle'⟩ => ⟨.inr ?_, hidle'⟩
    rcases hidle with hc | ⟨-, hnot, blk, hb, hparams, hasides⟩
    · exact absurd hc ho.not_closed
    · refine ⟨ho, hnot, _, hself hb, hparams, ?_⟩
      intro i hi
      simp only [Array.toList_push, List.mem_append, List.mem_singleton] at hi
      rcases hi with hi | rfl
      · obtain ⟨r, m, rfl, hr⟩ := hasides i hi
        exact ⟨r, m, rfl, .inl hr⟩
      · exact ⟨_, _, rfl, .inr ⟨rfl, rfl⟩⟩

/-- Both builders are made ready for code. -/
theorem Loose.opened (h : Loose π b b') (ho : b.Opened b₁) (ho' : b'.Opened b₁') :
    ∃ π', π.Le π' ∧ Pairs π' b₁ b₁' := by
  have h₁ := h.openLeft ho
  have h₂ := (h₁.flip.openLeft ho').flip
  rcases h₂.place with hp | ⟨hidle, hidle'⟩
  · exact ⟨π, .refl π, h₂.toAgree, hp⟩
  · -- two blocks that are open and have constants only
    have hopen := (h.proper.opened ho).2
    have hopen' := (h.proper'.opened ho').2
    obtain ⟨-, hnew, blk, hblk, hparams, hasides⟩ := hidle.resolve_left hopen.not_closed
    obtain ⟨-, hnew', blk', hblk', hparams', hasides'⟩ := hidle'.resolve_left hopen'.not_closed
    refine ⟨_, π.le_addBlock b₁.current b₁'.current,
      h₂.toAgree.joinBlocks (fun q hq => hnew ⟨q, hq⟩)
      (fun q hq => hnew' ⟨q, hq⟩) ⟨blk, blk', hblk, hblk', ⟨?_, hasides.pair hasides', ?_⟩,
        hopen.trans hopen'.symm⟩,
      .inr ⟨rfl, rfl⟩⟩
    · rw [hparams, hparams']
      exact .nil
    · rw [h₂.proper.unended _ _ hopen hblk, h₂.proper'.unended _ _ hopen' hblk']
      exact .unreachable

/-! ## Several constants -/

/-- The builder after constants were put aside, each when there was a block for it. -/
inductive SetsAside : Builder → List (Reg × Int64) → Builder → Prop
  | refl (b : Builder) : SetsAside b [] b
  | step {b b₁ b₂ : Builder} {n : Int64} {K : List (Reg × Int64)} : b.Opened b₁ →
    SetsAside (b₁.putAside n) K b₂ →
      SetsAside b ((⟨b₁.func.types.size⟩, n) :: K) b₂

theorem SetsAside.trans {b b₁ b₂ : Builder} {K L : List (Reg × Int64)} (h₁ : b.SetsAside K b₁)
    (h₂ : b₁.SetsAside L b₂) :
    b.SetsAside (K ++ L) b₂ := by
  induction h₁ with
  | refl => exact h₂
  | step ho _ ih => exact .step ho (ih h₂)

theorem Loose.setsAside {K : List (Reg × Int64)} (h : Loose π b b') (hK : b.SetsAside K b₁) :
    ∃ π', π.Le π' ∧ Loose π' b₁ b' ∧ ∀ q ∈ K, π'.left q.1 q.2 := by
  induction hK generalizing π with
  | refl => exact ⟨π, .refl π, h, nofun⟩
  | @step b b₁ b₂ n K ho _ ih =>
    obtain ⟨π', hle, h', hall⟩ := ih ((h.openLeft ho).putAside (h.proper.opened ho).2 n)
    refine ⟨π', (π.le_addLeft _ n).trans hle, h', fun q hq => ?_⟩
    rcases List.mem_cons.1 hq with rfl | hq
    · exact hle.left (.inr ⟨rfl, rfl⟩)
    · exact hall q hq

theorem Idle.addBlock {paired paired' : BlockId → Prop} {K : Reg → Int64 → Prop}
    (h : Idle paired K b) (hw : b.WellFormed) (cold : Bool)
    (hpaired : ∀ p, paired' p → paired p ∨ p = ⟨b.func.blocks.size⟩) :
    Idle paired' K (b.addBlock cold) := by
  have hlt : b.current.index < b.func.blocks.size := hw.current
  refine h.imp (addBlock_isClosed cold).2 fun ⟨ho, hnot, blk, hblk, hasides⟩ =>
    ⟨?_, fun hp => ?_, blk, ?_, hasides⟩
  · have hsame : (b.addBlock cold).terminated[b.current.index]? = b.terminated[b.current.index]? :=
      addBlock_terminated hlt hw
    exact hsame.trans ho
  · rcases hpaired _ hp with hp | hp
    · exact hnot hp
    · exact absurd (congrArg BlockId.index hp) (Nat.ne_of_lt hlt)
  · exact (addBlock_getElem? cold hlt).trans hblk

/-- Both builders get a block. -/
theorem Loose.addBlock (h : Loose π b b') (cold cold' : Bool) :
    Loose (π.addBlock ⟨b.func.blocks.size⟩ ⟨b'.func.blocks.size⟩) (b.addBlock cold)
      (b'.addBlock cold') := by
  refine ⟨h.toAgree.addBlock cold cold', h.place.imp .inl fun ⟨hidle, hidle'⟩ =>
    ⟨hidle.addBlock h.proper.toWellFormed cold ?_, hidle'.addBlock h.proper'.toWellFormed cold' ?_⟩⟩
  · rintro p ⟨q, hq | ⟨he, -⟩⟩
    · exact .inl ⟨q, hq⟩
    · exact .inr he
  · rintro p ⟨q, hq | ⟨-, he⟩⟩
    · exact .inl ⟨q, hq⟩
    · exact .inr he

/-! ## Exits -/

/-- Block `i` ends in an exit that captures `regs`. -/
def ExitsAt (b : Builder) (i : Nat) (id : ExitId) (regs : List Reg) : Prop :=
  b.func.ExitsAt i id regs

/-- The same blocks end in the same exits. -/
def SameExits (b b' : Builder) : Prop := ∀ i id regs, b'.ExitsAt i id regs ↔ b.ExitsAt i id regs

theorem SameExits.refl (b : Builder) : b.SameExits b := fun _ _ _ => .rfl

theorem SameExits.trans {b b₁ b₂ : Builder} (h₁ : b.SameExits b₁) (h₂ : b₁.SameExits b₂) :
    b.SameExits b₂ :=
  fun i id regs => (h₂ i id regs).trans (h₁ i id regs)

theorem sameExits_goTo (b : Builder) (p : BlockId) : b.SameExits (b.goTo p) := fun _ _ _ => .rfl

theorem sameExits_addReg (b : Builder) (ty : Ty) : b.SameExits (b.addReg ty) := fun _ _ _ => .rfl

theorem sameExits_addBlock (b : Builder) (cold : Bool) : b.SameExits (b.addBlock cold) := by
  intro i id regs
  by_cases hi : i = b.func.blocks.size
  · subst hi
    simp [ExitsAt, Function.ExitsAt, Builder.addBlock]
  · simp [ExitsAt, Function.ExitsAt, Builder.addBlock, Array.getElem?_push, hi]

theorem sameExits_change (b : Builder) (p : BlockId) {f : Block → Block}
    (hf : ∀ blk, (f blk).terminator = blk.terminator) :
    b.SameExits (b.change p f) := by
  intro i id regs
  by_cases hi : p.index = i
  · subst hi
    simp [ExitsAt, Function.ExitsAt, change, Array.getElem?_modify, hf]
  · simp only [ExitsAt, Function.ExitsAt, change_getElem? hi]

theorem sameExits_addInst (b : Builder) (d : InstData) : b.SameExits (b.addInst d) :=
  b.sameExits_change b.current fun _ => rfl

theorem SameExits.opened (h : b.Opened b₁) : b.SameExits b₁ := by
  cases h with
  | same => exact .refl b
  | fresh => exact (b.sameExits_addBlock false).trans (sameExits_goTo _ _)

theorem SameExits.setsAside {K : List (Reg × Int64)} (h : b.SetsAside K b₁) : b.SameExits b₁ := by
  induction h with
  | refl => exact .refl _
  | step ho _ ih =>
    exact ((SameExits.opened ho).trans ((sameExits_addReg _ _).trans (sameExits_addInst _ _))).trans
      ih

/-- The exits after the current block got its terminator. -/
theorem exitsAt_close {t : Terminator} {i : Nat} {id : ExitId} {regs : List Reg} (h : b.Proper)
    (ho : b.IsOpen b.current.index) : (b.close t).ExitsAt i id regs ↔
      b.ExitsAt i id regs ∨ i = b.current.index ∧ t = .exit id regs := by
  by_cases hi : b.current.index = i
  · subst hi
    have hblk := Array.getElem?_eq_getElem h.current
    have hnone := h.unended _ _ ho hblk
    simp [ExitsAt, Function.ExitsAt, Builder.close, Array.getElem?_modify, hblk, hnone]
  · simp [ExitsAt, Function.ExitsAt, Builder.close, Array.getElem?_modify, hi, Ne.symm hi]

theorem sameExits_close {t : Terminator} (h : b.Proper) (ho : b.IsOpen b.current.index)
    (ht : ∀ id regs, t ≠ .exit id regs) :
    b.SameExits (b.close t) := fun i id regs => by
  rw [exitsAt_close h ho]
  simp [ht id regs]

end Builder

end SpecJit.Lir
