import SpecJit.Proofs.Lir.Pairing

/-!
# Building steps that are the same but for names

`Emit.InStep Γ x y l r P`: from two builders that go together, and with the registers and blocks in
`Γ` going together, the steps `x` and `y` get to builders that go together again. Their results are
`l i` and `r i` for some `i`, of which the links `P i` hold: where the result is no register or
block, `i` is the result of both. Neither step adds an exit.

The class goes through sequences of steps, as `Emit.Scoped` does, with one program on either side.
-/

namespace SpecJit.Lir

/-- Names that go together. -/
inductive Link where
  | reg (r r' : Reg)
  | regs (rs rs' : List Reg)
  | block (p p' : BlockId)
  | cases (cs cs' : List (Int32 × BlockId))

def Link.Holds (π : Pairing) : Link → Prop
  | .reg r r' => π.regs r r'
  | .regs rs rs' => List.Forall₂ π.regs rs rs'
  | .block p p' => π.blocks p p'
  | .cases cs cs' => List.Forall₂ (fun c c' => c.1 = c'.1 ∧ π.blocks c.2 c'.2) cs cs'

variable {π π' π'' : Pairing} {Γ Δ : List Link} {α β ι κ : Type}

theorem Link.Holds.mono {L : Link} (h : L.Holds π) (hπ : π.Le π') : L.Holds π' := by
  cases L with
  | reg => exact hπ.regs h
  | regs => exact List.Forall₂.imp (fun _ _ => hπ.regs) h
  | block => exact hπ.blocks h
  | cases => exact List.Forall₂.imp (fun _ _ hc => ⟨hc.1, hπ.blocks hc.2⟩) h

/-- All links of a list hold. -/
def Pairing.Has (π : Pairing) (Γ : List Link) : Prop := ∀ L ∈ Γ, L.Holds π

namespace Pairing.Has

theorem mono (h : π.Has Γ) (hπ : π.Le π') : π'.Has Γ := fun L hL => (h L hL).mono hπ

theorem nil : π.Has [] := nofun

theorem cons {L : Link} (h : L.Holds π) (hs : π.Has Γ) : π.Has (L :: Γ) :=
  List.forall_mem_cons.2 ⟨h, hs⟩

theorem one {L : Link} (h : L.Holds π) : π.Has [L] := cons h nil

theorem append (h₁ : π.Has Γ) (h₂ : π.Has Δ) : π.Has (Γ ++ Δ) := List.forall_mem_append.2 ⟨h₁, h₂⟩

end Pairing.Has

/-- The links include this one. -/
class Gives (Γ : List Link) (L : Link) : Prop where
  holds : ∀ {π : Pairing}, π.Has Γ → L.Holds π

instance (priority := high) (L : Link) : Gives (L :: Γ) L := ⟨fun h => (List.forall_mem_cons.1 h).1⟩

instance (L M : Link) [h : Gives Γ L] : Gives (M :: Γ) L :=
  ⟨fun hΓ => h.holds (List.forall_mem_cons.1 hΓ).2⟩

instance (L : Link) [h : Gives Γ L] : Gives (Γ ++ Δ) L :=
  ⟨fun hΓ => h.holds (List.forall_mem_append.1 hΓ).1⟩

instance (L : Link) [h : Gives Δ L] : Gives (Γ ++ Δ) L :=
  ⟨fun hΓ => h.holds (List.forall_mem_append.1 hΓ).2⟩

instance : Gives Γ (.regs [] []) := ⟨fun _ => .nil⟩

instance (r r' : Reg) (rs rs' : List Reg) [h : Gives Γ (.reg r r')] [hs : Gives Γ (.regs rs rs')] :
    Gives Γ (.regs (r :: rs) (r' :: rs')) := ⟨fun hΓ => .cons (h.holds hΓ) (hs.holds hΓ)⟩

instance (n : Nat) (r r' : Reg) [h : Gives Γ (.reg r r')] :
    Gives Γ (.regs (List.replicate n r) (List.replicate n r')) where
  holds hΓ := by
    induction n with
    | zero => exact .nil
    | succ n ih => exact .cons (h.holds hΓ) ih

instance (p : Prop) [Decidable p] (r r' q q' : Reg) [hr : Gives Γ (.reg r r')]
    [hq : Gives Γ (.reg q q')] :
    Gives Γ (.reg (if p then r else q) (if p then r' else q')) where
  holds hΓ := by
    split
    · exact hr.holds hΓ
    · exact hq.holds hΓ

theorem Gives.head {r r' : Reg} {rs rs' : List Reg} (h : Gives Γ (.regs (r :: rs) (r' :: rs'))) :
    Gives Γ (.reg r r') :=
  ⟨fun hΓ => (List.forall₂_cons.1 (h.holds hΓ)).1⟩

theorem Gives.tail {r r' : Reg} {rs rs' : List Reg} (h : Gives Γ (.regs (r :: rs) (r' :: rs'))) :
    Gives Γ (.regs rs rs') :=
  ⟨fun hΓ => (List.forall₂_cons.1 (h.holds hΓ)).2⟩

theorem Gives.under {L : Link} (h : Gives Γ L) (hΓ : Γ ⊆ Δ) : Gives Δ L :=
  ⟨fun hΔ => h.holds fun M hM => hΔ M (hΓ hM)⟩

/-- The first links are among the others. -/
class Within (Γ Δ : List Link) : Prop where
  sub : Γ ⊆ Δ

instance (priority := high) : Within Γ Γ := ⟨List.Subset.refl Γ⟩

instance (L : Link) [h : Within Γ Δ] : Within Γ (L :: Δ) := ⟨List.subset_cons_of_subset L h.sub⟩

instance (Δ' : List Link) [h : Within Γ Δ] : Within Γ (Δ' ++ Δ) :=
  ⟨List.subset_append_of_subset_right Δ' h.sub⟩

/-- The builders go on together, without an exit. -/
structure Builder.Advance (π : Pairing) (b b' : Builder) (π' : Pairing) (b₁ b₁' : Builder) :
    Prop where
  le : π.Le π'
  pairs : Pairs π' b₁ b₁'
  exits : b.SameExits b₁
  exits' : b'.SameExits b₁'

namespace Builder.Advance

variable {b b₁ b₂ b' b₁' b₂' : Builder}

theorem refl (h : Pairs π b b') : Advance π b b' π b b' := ⟨.refl π, h, .refl b, .refl b'⟩

theorem trans (h₁ : Advance π b b' π' b₁ b₁') (h₂ : Advance π' b₁ b₁' π'' b₂ b₂') :
    Advance π b b' π'' b₂ b₂' :=
  ⟨h₁.le.trans h₂.le, h₂.pairs, h₁.exits.trans h₂.exits, h₁.exits'.trans h₂.exits'⟩

end Builder.Advance

namespace Emit

/-- Building steps that are the same but for names (module doc). -/
class InStep (Γ : List Link) (x y : Emit α) {ι : outParam Type} (l r : outParam (ι → α))
    (P : outParam (ι → List Link)) : Prop where
  steps : ∀ π b b' a a' b₁ b₁', Builder.Pairs π b b' → π.Has Γ → x b = .ok (a, b₁) →
    y b' = .ok (a', b₁') →
    ∃ π' i, Builder.Advance π b b' π' b₁ b₁' ∧ a = l i ∧ a' = r i ∧ π'.Has (P i)

/-- Steps with the same result. -/
abbrev Alike (Γ : List Link) (x y : Emit α) : Prop :=
  InStep Γ x y (fun a => a) (fun a => a) fun _ => []

/-- Steps that give registers which go together. -/
abbrev Twins (Γ : List Link) (x y : Emit Reg) : Prop :=
  InStep Γ x y Prod.fst Prod.snd fun i => [.reg i.1 i.2]

variable {b b₁ b' b₁' : Builder}

instance (priority := low) (a : α) : Alike Γ (pure a) (pure a) where
  steps π b b' a a' b₁ b₁' hb _ hx hy := by
    obtain ⟨rfl, rfl⟩ := pure_ok hx
    obtain ⟨rfl, rfl⟩ := pure_ok hy
    exact ⟨π, _, .refl hb, rfl, rfl, .nil⟩

instance (r r' : Reg) [h : Gives Γ (.reg r r')] : Twins Γ (pure r) (pure r') where
  steps π b b' a a' b₁ b₁' hb hΓ hx hy := by
    obtain ⟨rfl, rfl⟩ := pure_ok hx
    obtain ⟨rfl, rfl⟩ := pure_ok hy
    exact ⟨π, (_, _), .refl hb, rfl, rfl, .one (h.holds hΓ)⟩

instance {l r : ι → α} {P : ι → List Link} {l₂ r₂ : κ → β} {Q : κ → List Link} (x y : Emit α)
    (f g : α → Emit β) [hx : InStep Γ x y l r P]
    [hf : ∀ i, InStep (P i ++ Γ) (f (l i)) (g (r i)) l₂ r₂ Q] :
    InStep Γ (x >>= f) (y >>= g) l₂ r₂ Q where
  steps π b b' c c' b₂ b₂' hb hΓ h h' := by
    obtain ⟨a, b₁, h₁, h₂⟩ := bind_ok h
    obtain ⟨a', b₁', h₁', h₂'⟩ := bind_ok h'
    obtain ⟨π₁, i, had₁, rfl, rfl, hP⟩ := hx.steps π b b' a a' b₁ b₁' hb hΓ h₁ h₁'
    obtain ⟨π₂, k, had₂, hc, hc', hQ⟩ :=
      (hf i).steps π₁ b₁ b₁' c c' b₂ b₂' had₁.pairs (hP.append (hΓ.mono had₁.le)) h₂ h₂'
    exact ⟨π₂, k, had₁.trans had₂, hc, hc', hQ⟩

instance {l r : ι → α} {P : ι → List Link} (p : Prop) [Decidable p] (x y x' y' : Emit α)
    [hx : InStep Γ x x' l r P] [hy : InStep Γ y y' l r P] :
    InStep Γ (if p then x else y) (if p then x' else y') l r P := by
  split
  · exact hx
  · exact hy

instance (r r' : Reg) [h : Gives Γ (.reg r r')] : Alike Γ (typeOf r) (typeOf r') where
  steps π b b' ty ty' b₁ b₁' hb hΓ hx hy := by
    obtain ⟨rfl, hty⟩ := typeOf_ok hx
    obtain ⟨rfl, hty'⟩ := typeOf_ok hy
    obtain ⟨t, ht, ht'⟩ := hb.reg (h.holds hΓ)
    rw [ht] at hty
    rw [ht'] at hty'
    cases hty
    cases hty'
    exact ⟨π, _, .refl hb, rfl, rfl, .nil⟩

/-- Both builders are made ready for code. -/
theorem ensureOpen_advance {u u' : Unit} (hb : Builder.Pairs π b b')
    (hx : ensureOpen b = .ok (u, b₁)) (hy : ensureOpen b' = .ok (u', b₁')) :
    ∃ π', Builder.Advance π b b' π' b₁ b₁' := by
  have ho := ensureOpen_opened hx
  have ho' := ensureOpen_opened hy
  obtain ⟨π', hle, hpairs⟩ := hb.loose.opened ho ho'
  exact ⟨π', hle, hpairs, .opened ho, .opened ho'⟩

/-! ## Instructions -/

/-- The same instruction on both sides. -/
theorem inStep_define {ty : Ty} {inst inst' : Inst}
    (h : ∀ {π : Pairing}, π.Has Γ → inst.Pairs π.regs inst') :
    Twins Γ (define ty inst) (define ty inst') where
  steps π b b' r r' b₂ b₂' hb hΓ hx hy := by
    obtain ⟨b₁, h₁, rfl, rfl⟩ := define_ok hx
    obtain ⟨b₁', h₁', rfl, rfl⟩ := define_ok hy
    obtain ⟨π', had⟩ := ensureOpen_advance hb h₁ h₁'
    have hle := π'.le_addReg ⟨b₁.func.types.size⟩ ⟨b₁'.func.types.size⟩
    refine ⟨_, (_, _),
      ⟨had.le.trans hle, (had.pairs.addReg ty).addInst ((h (hΓ.mono had.le)).mono hle.regs)
      (.some (.inr ⟨rfl, rfl⟩)), ?_, ?_⟩, rfl, rfl, .one (.inr ⟨rfl, rfl⟩)⟩
    · exact had.exits.trans ((b₁.sameExits_addReg ty).trans (Builder.sameExits_addInst _ _))
    · exact had.exits'.trans ((b₁'.sameExits_addReg ty).trans (Builder.sameExits_addInst _ _))

section Instructions

variable (r r' q q' c c' : Reg)

instance (ty : Ty) (imm : Int64) : Twins Γ (iconst ty imm) (iconst ty imm) :=
  inStep_define fun _ => .iconst ty imm
instance (n : Int) : Twins Γ (int32 n) (int32 n) := inStep_define fun _ => .iconst _ _
instance (n : Int) : Twins Γ (int64 n) (int64 n) := inStep_define fun _ => .iconst _ _
instance (w : UInt64) : Twins Γ (word w) (word w) := inStep_define fun _ => .iconst _ _
instance (d : Double) : Twins Γ (fconst d) (fconst d) := inStep_define fun _ => .fconst d
instance : Twins Γ context context := inStep_define fun _ => .context
instance : Twins Γ frame frame := inStep_define fun _ => .frame

section

variable [hr : Gives Γ (.reg r r')]

instance (op : UnaryOp) : Twins Γ (unary op r) (unary op r') := by
  have (ty : Ty) : Twins ([] ++ Γ) (define ty (.unary op ty r)) (define ty (.unary op ty r')) :=
    inStep_define fun h => .unary op ty (hr.holds h)
  unfold unary
  infer_instance

instance (op : FUnaryOp) : Twins Γ (funary op r) (funary op r') :=
  inStep_define fun h => .funary op (hr.holds h)
instance : Twins Γ (signExtend r) (signExtend r') :=
  inStep_define fun h => .extend true (hr.holds h)
instance : Twins Γ (zeroExtend r) (zeroExtend r') :=
  inStep_define fun h => .extend false (hr.holds h)
instance : Twins Γ (truncate r) (truncate r') := inStep_define fun h => .truncate (hr.holds h)

instance (signed : Bool) : Twins Γ (intToDouble signed r) (intToDouble signed r') :=
  inStep_define fun h => .intToDouble signed (hr.holds h)

instance (ty : Ty) : Twins Γ (doubleToInt ty r) (doubleToInt ty r') :=
  inStep_define fun h => .doubleToInt ty (hr.holds h)
instance : Twins Γ (bitcastToInt r) (bitcastToInt r') :=
  inStep_define fun h => .bitcastToInt (hr.holds h)
instance : Twins Γ (bitcastToDouble r) (bitcastToDouble r') :=
  inStep_define fun h => .bitcastToDouble (hr.holds h)

instance (ty : Ty) (width : MemWidth) (signed : Bool) (offset : Int) :
    Twins Γ (load ty width signed r offset) (load ty width signed r' offset) :=
  inStep_define fun h => .load ty width signed _ (hr.holds h)

instance (offset : Int) : Twins Γ (load64 r offset) (load64 r' offset) := by
  unfold load64
  infer_instance
instance (offset : Int) : Twins Γ (load32 r offset) (load32 r' offset) := by
  unfold load32
  infer_instance
instance (offset : Int) : Twins Γ (load8 r offset) (load8 r' offset) := by
  unfold load8
  infer_instance

variable [hq : Gives Γ (.reg q q')]

instance (op : BinaryOp) : Twins Γ (binary op r q) (binary op r' q') := by
  have (ty : Ty) : Twins ([] ++ Γ) (define ty (.binary op ty r q))
    (define ty (.binary op ty r' q')) :=
    inStep_define fun h => .binary op ty (hr.holds h) (hq.holds h)
  unfold binary
  infer_instance

instance (op : OverflowOp) : Twins Γ (overflows op r q) (overflows op r' q') := by
  have (ty : Ty) : Twins ([] ++ Γ) (define .i32 (.overflows op ty r q))
    (define .i32 (.overflows op ty r' q')) :=
    inStep_define fun h => .overflows op ty (hr.holds h) (hq.holds h)
  unfold overflows
  infer_instance

instance (op : FBinaryOp) : Twins Γ (fbinary op r q) (fbinary op r' q') :=
  inStep_define fun h => .fbinary op (hr.holds h) (hq.holds h)

instance (cc : IntCC) : Twins Γ (icmp cc r q) (icmp cc r' q') :=
  inStep_define fun h => .icmp cc (hr.holds h) (hq.holds h)
instance (cc : FloatCC) : Twins Γ (fcmp cc r q) (fcmp cc r' q') :=
  inStep_define fun h => .fcmp cc (hr.holds h) (hq.holds h)

instance [hc : Gives Γ (.reg c c')] : Twins Γ (select c r q) (select c' r' q') := by
  have (ty : Ty) : Twins ([] ++ Γ) (define ty (.select c r q)) (define ty (.select c' r' q')) :=
    inStep_define fun h => .select (hc.holds h) (hr.holds h) (hq.holds h)
  unfold select
  infer_instance

instance (width : MemWidth) (offset : Int) :
    Alike Γ (store width r q offset) (store width r' q' offset) where
  steps π b b' u u' b₂ b₂' hb hΓ hx hy := by
    obtain ⟨_, b₁, h₁, h₂⟩ := bind_ok hx
    obtain ⟨_, b₁', h₁', h₂'⟩ := bind_ok hy
    obtain rfl := push_ok h₂
    obtain rfl := push_ok h₂'
    obtain ⟨π', had⟩ := ensureOpen_advance hb h₁ h₁'
    have hΓ' := hΓ.mono had.le
    exact ⟨π', (), ⟨had.le, had.pairs.addInst (.store width _ (hr.holds hΓ') (hq.holds hΓ')) .none,
      had.exits.trans (Builder.sameExits_addInst _ _),
      had.exits'.trans (Builder.sameExits_addInst _ _)⟩, rfl, rfl, .nil⟩

instance (offset : Int) : Alike Γ (store64 r q offset) (store64 r' q' offset) := by
  unfold store64
  infer_instance

end

section

variable [Gives Γ (.reg r r')]

instance (op : BinaryOp) (n : Int) : Twins Γ (binaryImm op r n) (binaryImm op r' n) := by
  unfold binaryImm
  infer_instance
instance (cc : IntCC) (n : Int) : Twins Γ (icmpImm cc r n) (icmpImm cc r' n) := by
  unfold icmpImm
  infer_instance

end

variable (args args' : List Reg) [hargs : Gives Γ (.regs args args')]

instance (helper : Helper) : Twins Γ (call helper args) (call helper args') :=
  inStep_define fun h => .call helper (hargs.holds h)

instance (site : SiteId) : Twins Γ (patchpoint site args) (patchpoint site args') :=
  inStep_define fun h => .patchpoint site (hargs.holds h)

end Instructions

/-! ## Blocks -/

instance : InStep Γ currentBlock currentBlock Prod.fst Prod.snd fun i => [.block i.1 i.2] where
  steps π b b' p p' b₁ b₁' hb _ hx hy := by
    cases hx
    cases hy
    exact ⟨π, (_, _), .refl hb, rfl, rfl, .one hb.current⟩

instance : Alike Γ isTerminated isTerminated where
  steps π b b' t t' b₁ b₁' hb _ hx hy := by
    obtain ⟨rfl, ht⟩ := isTerminated_ok hx
    obtain ⟨rfl, ht'⟩ := isTerminated_ok hy
    obtain ⟨-, -, -, -, -, hflags⟩ := hb.block hb.current
    rw [hflags, ht'] at ht
    cases ht
    exact ⟨π, _, .refl hb, rfl, rfl, .nil⟩

instance (cold : Bool) :
    InStep Γ (createBlock cold) (createBlock cold) Prod.fst Prod.snd fun i => [.block i.1 i.2] where
  steps π b b' p p' b₁ b₁' hb _ hx hy := by
    obtain ⟨rfl, rfl⟩ := createBlock_ok hx
    obtain ⟨rfl, rfl⟩ := createBlock_ok hy
    exact ⟨_, (_, _), ⟨π.le_addBlock _ _, hb.addBlock cold cold, b.sameExits_addBlock cold,
      b'.sameExits_addBlock cold⟩,
      rfl, rfl, .one (.inr ⟨rfl, rfl⟩)⟩

instance (p p' : BlockId) (ty : Ty) [hp : Gives Γ (.block p p')] :
    Twins Γ (blockParam p ty) (blockParam p' ty) where
  steps π b b' r r' b₁ b₁' hb hΓ hx hy := by
    obtain ⟨rfl, rfl⟩ := blockParam_ok hx
    obtain ⟨rfl, rfl⟩ := blockParam_ok hy
    have hle := π.le_addReg ⟨b.func.types.size⟩ ⟨b'.func.types.size⟩
    refine ⟨_, (_, _), ⟨hle, (hb.addReg ty).addParam (hle.blocks (hp.holds hΓ)) (.inr ⟨rfl, rfl⟩),
      ?_, ?_⟩, rfl, rfl,
      .one (.inr ⟨rfl, rfl⟩)⟩
    · exact (b.sameExits_addReg ty).trans (Builder.sameExits_change _ p fun _ => rfl)
    · exact (b'.sameExits_addReg ty).trans (Builder.sameExits_change _ p' fun _ => rfl)

instance (p p' : BlockId) [hp : Gives Γ (.block p p')] : Alike Γ (switchTo p) (switchTo p') where
  steps π b b' u u' b₁ b₁' hb hΓ hx hy := by
    obtain rfl := switchTo_ok hx
    obtain rfl := switchTo_ok hy
    exact ⟨π, (), ⟨.refl π, hb.goTo (hp.holds hΓ), b.sameExits_goTo p, b'.sameExits_goTo p'⟩, rfl,
      rfl, .nil⟩

/-! ## Terminators -/

/-- The same terminator on both sides. -/
theorem inStep_terminate {t t' : Terminator} (h : ∀ {π : Pairing}, π.Has Γ → t.Pairs π t')
    (ht : ∀ id regs, t ≠ .exit id regs) (ht' : ∀ id regs, t' ≠ .exit id regs) :
    Alike Γ (terminate t) (terminate t') where
  steps π b b' u u' b₂ b₂' hb hΓ hx hy := by
    obtain ⟨b₁, h₁, rfl⟩ := terminate_ok hx
    obtain ⟨b₁', h₁', rfl⟩ := terminate_ok hy
    obtain ⟨π', had⟩ := ensureOpen_advance hb h₁ h₁'
    have ho := hb.proper.opened (ensureOpen_opened h₁)
    have ho' := hb.proper'.opened (ensureOpen_opened h₁')
    exact ⟨π', (), ⟨had.le, had.pairs.close (h (hΓ.mono had.le)),
      had.exits.trans (Builder.sameExits_close ho.1 ho.2 ht),
      had.exits'.trans (Builder.sameExits_close ho'.1 ho'.2 ht')⟩, rfl, rfl, .nil⟩

section Terminators

variable (v v' : Reg) (p p' q q' : BlockId) (args args' : List Reg)

instance : Alike Γ unreachable unreachable := inStep_terminate (fun _ => .unreachable) nofun nofun

instance [hv : Gives Γ (.reg v v')] : Alike Γ (ret v) (ret v') :=
  inStep_terminate (fun h => .ret (hv.holds h)) nofun nofun

instance [hp : Gives Γ (.block p p')] [hargs : Gives Γ (.regs args args')] :
    Alike Γ (jump p args) (jump p' args') :=
  inStep_terminate (fun h => .jump (hp.holds h) (hargs.holds h)) nofun nofun

instance (weight : BranchWeight) (brgs brgs' : List Reg) [hv : Gives Γ (.reg v v')]
    [hp : Gives Γ (.block p p')] [hargs : Gives Γ (.regs args args')] [hq : Gives Γ (.block q q')]
    [hbrgs : Gives Γ (.regs brgs brgs')] :
    Alike Γ (terminate (.branch v p args q brgs weight))
      (terminate (.branch v' p' args' q' brgs' weight)) :=
  inStep_terminate (fun h => .branch weight (hv.holds h) (hp.holds h) (hargs.holds h) (hq.holds h)
    (hbrgs.holds h)) nofun nofun

instance (weight : BranchWeight) [Gives Γ (.reg v v')] [Gives Γ (.block p p')]
    [Gives Γ (.block q q')] :
    Alike Γ (branch v p q weight) (branch v' p' q' weight) := by
  unfold branch
  infer_instance

instance (cs cs' : List (Int32 × BlockId)) [hv : Gives Γ (.reg v v')]
    [hcs : Gives Γ (.cases cs cs')] [hp : Gives Γ (.block p p')] :
    Alike Γ (switch v cs p) (switch v' cs' p') :=
  inStep_terminate (fun h => .switch (hv.holds h) (hcs.holds h) (hp.holds h)) nofun nofun

end Terminators

end Emit

end SpecJit.Lir
