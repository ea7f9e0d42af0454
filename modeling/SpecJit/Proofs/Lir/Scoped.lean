import SpecJit.Proofs.Lir.Building

/-!
# Building steps that keep to a scoping

`Emit.Scoped strict Γ x P`: at a place where the facts `Γ` about registers and blocks hold, the step
`x` keeps the builder sound, everything that was defined before it is defined after it, and the
facts `P a` hold of its result `a`. The class goes through sequences of steps, so that a routine is
judged by the instructions it consists of; what is known of a register is looked up among the facts
(`Known`).
-/

namespace SpecJit.Lir

/-! ## Facts -/

/-- What is known at a place of the code. -/
inductive Fact where
  /-- the register is defined and has the type -/
  | reg (r : Reg) (ty : Ty)
  /-- the registers are defined and have the type -/
  | all (rs : List Reg) (ty : Ty)
  /-- the registers are defined -/
  | here (rs : List Reg)
  /-- the registers are defined and have the types, one each -/
  | list (rs : List Reg) (tys : List Ty)
  /-- control may go to the blocks, whose parameters have the types -/
  | leads (ps : List BlockId) (tys : List Ty)

variable {strict : Bool} {S S' S'' : Scoping} {b b' b'' : Builder} {V V' : Reg → Prop}
  {Γ Δ : List Fact} {α β : Type}

/-- A block whose parameters have the types may be entered from where the registers in `V` are
defined. -/
structure Builder.Enters (strict : Bool) (S : Scoping) (b : Builder) (V : Reg → Prop)
    (tys : List Ty) (p : BlockId) :
    Prop where
  block : ∃ blk, b.func.blocks[p.index]? = some blk ∧ blk.params.length = tys.length ∧
    (strict = true → ∀ q ∈ blk.params.zip tys, b.func.HasType q.1 q.2)
  scope : ∀ r, S p.index r → V r

/-- A fact holds where the registers in `V` are defined. Types count if `strict`. -/
def Fact.Holds (strict : Bool) (S : Scoping) (b : Builder) (V : Reg → Prop) : Fact → Prop
  | .reg r ty => V r ∧ (strict = true → b.func.HasType r ty)
  | .all rs ty => ∀ r ∈ rs, V r ∧ (strict = true → b.func.HasType r ty)
  | .here rs => ∀ r ∈ rs, V r
  | .list rs tys =>
    rs.length = tys.length ∧ ∀ p ∈ rs.zip tys, V p.1 ∧ (strict = true → b.func.HasType p.1 p.2)
  | .leads ps tys => ∀ p ∈ ps, Builder.Enters strict S b V tys p

/-- All facts of a list hold. -/
def Hold (strict : Bool) (S : Scoping) (b : Builder) (V : Reg → Prop) (Γ : List Fact) : Prop :=
  ∀ F ∈ Γ, F.Holds strict S b V

theorem Builder.Enters.grow {tys : List Ty} {p : BlockId} (h : Builder.Enters strict S b V tys p)
    (e : b.Grown strict S S' b') (hV : ∀ r, V r → V' r) : Builder.Enters strict S' b' V' tys p := by
  obtain ⟨blk, hblk, hlen, htyped⟩ := h.block
  obtain ⟨blk', hblk', hp⟩ := e.func.params _ _ hblk
  refine ⟨⟨blk', hblk', by rw [hp]; exact hlen, fun hs q hq => ?_⟩, fun r hr => ?_⟩
  · rw [hp] at hq
    exact e.func.types _ _ (htyped hs q hq)
  · rw [e.scope _ (Array.getElem?_eq_some_iff.1 hblk).1] at hr
    exact hV r (h.scope r hr)

theorem Fact.Holds.grow {F : Fact} (h : F.Holds strict S b V) (e : b.Grown strict S S' b')
    (hV : ∀ r, V r → V' r) :
    F.Holds strict S' b' V' := by
  cases F with
  | reg r ty => exact ⟨hV r h.1, fun hs => e.func.types _ _ (h.2 hs)⟩
  | all rs ty => exact fun r hr => ⟨hV r (h r hr).1, fun hs => e.func.types _ _ ((h r hr).2 hs)⟩
  | here rs => exact fun r hr => hV r (h r hr)
  | list rs tys =>
    exact ⟨h.1, fun p hp => ⟨hV p.1 (h.2 p hp).1, fun hs => e.func.types _ _ ((h.2 p hp).2 hs)⟩⟩
  | leads ps tys => exact fun p hp => (h p hp).grow e hV

theorem Hold.grow (h : Hold strict S b V Γ) (e : b.Grown strict S S' b') (hV : ∀ r, V r → V' r) :
    Hold strict S' b' V' Γ := fun F hF => (h F hF).grow e hV

theorem Hold.append (h₁ : Hold strict S b V Γ) (h₂ : Hold strict S b V Δ) :
    Hold strict S b V (Γ ++ Δ) := by
  intro F hF
  rcases List.mem_append.1 hF with hF | hF
  · exact h₁ F hF
  · exact h₂ F hF

theorem Hold.nil : Hold strict S b V [] := nofun

theorem Hold.cons {F : Fact} (h : F.Holds strict S b V) (hs : Hold strict S b V Γ) :
    Hold strict S b V (F :: Γ) :=
  fun G hG => by
    rcases List.mem_cons.1 hG with rfl | hG
    · exact h
    · exact hs G hG

theorem Hold.left (h : Hold strict S b V (Γ ++ Δ)) : Hold strict S b V Γ :=
  fun F hF => h F (by simp [hF])

theorem Hold.right (h : Hold strict S b V (Γ ++ Δ)) : Hold strict S b V Δ :=
  fun F hF => h F (by simp [hF])

theorem Hold.tail {F : Fact} (h : Hold strict S b V (F :: Γ)) : Hold strict S b V Γ :=
  fun G hG => h G (by simp [hG])

/-- A register is defined and has a type according to the facts. -/
class Known (Γ : List Fact) (r : Reg) (ty : outParam Ty) : Prop where
  holds : ∀ {strict S b V}, Hold strict S b V Γ → (Fact.reg r ty).Holds strict S b V

instance (priority := high) (r : Reg) (ty : Ty) : Known (.reg r ty :: Γ) r ty :=
  ⟨fun h => h _ (by simp)⟩

instance (F : Fact) (r : Reg) (ty : Ty) [h : Known Γ r ty] : Known (F :: Γ) r ty :=
  ⟨fun hΓ => h.holds hΓ.tail⟩

instance (r : Reg) (ty : Ty) [h : Known Γ r ty] : Known (Γ ++ Δ) r ty := ⟨fun hΓ => h.holds hΓ.left⟩

instance (r : Reg) (ty : Ty) [h : Known Δ r ty] : Known (Γ ++ Δ) r ty :=
  ⟨fun hΓ => h.holds hΓ.right⟩

/-- Registers are defined and have a type according to the facts. -/
class KnownAll (Γ : List Fact) (rs : List Reg) (ty : Ty) : Prop where
  holds : ∀ {strict S b V}, Hold strict S b V Γ → (Fact.all rs ty).Holds strict S b V

instance (priority := high) (ty : Ty) : KnownAll Γ [] ty := ⟨fun _ => nofun⟩

instance (priority := high) (r : Reg) (rs : List Reg) (ty : Ty) [h : Known Γ r ty]
    [hs : KnownAll Γ rs ty] :
    KnownAll Γ (r :: rs) ty where
  holds hΓ r' hr' := by
    rcases List.mem_cons.1 hr' with rfl | hr'
    · exact h.holds hΓ
    · exact hs.holds hΓ r' hr'

instance (rs : List Reg) (ty : Ty) : KnownAll (.all rs ty :: Γ) rs ty := ⟨fun h => h _ (by simp)⟩

instance (F : Fact) (rs : List Reg) (ty : Ty) [h : KnownAll Γ rs ty] : KnownAll (F :: Γ) rs ty :=
  ⟨fun hΓ => h.holds hΓ.tail⟩

instance (rs : List Reg) (ty : Ty) [h : KnownAll Γ rs ty] : KnownAll (Γ ++ Δ) rs ty :=
  ⟨fun hΓ => h.holds hΓ.left⟩

instance (rs : List Reg) (ty : Ty) [h : KnownAll Δ rs ty] : KnownAll (Γ ++ Δ) rs ty :=
  ⟨fun hΓ => h.holds hΓ.right⟩

/-- Registers are defined according to the facts. -/
class KnownHere (Γ : List Fact) (rs : List Reg) : Prop where
  holds : ∀ {strict S b V}, Hold strict S b V Γ → (Fact.here rs).Holds strict S b V

instance (rs : List Reg) : KnownHere (.here rs :: Γ) rs := ⟨fun h => h _ (by simp)⟩

instance (F : Fact) (rs : List Reg) [h : KnownHere Γ rs] : KnownHere (F :: Γ) rs :=
  ⟨fun hΓ => h.holds hΓ.tail⟩

instance (rs : List Reg) [h : KnownHere Γ rs] : KnownHere (Γ ++ Δ) rs := ⟨fun hΓ => h.holds hΓ.left⟩

instance (rs : List Reg) [h : KnownHere Δ rs] : KnownHere (Γ ++ Δ) rs :=
  ⟨fun hΓ => h.holds hΓ.right⟩

/-- Registers are defined and have types, one each, according to the facts. -/
class KnownList (Γ : List Fact) (rs : List Reg) (tys : List Ty) : Prop where
  holds : ∀ {strict S b V}, Hold strict S b V Γ → (Fact.list rs tys).Holds strict S b V

instance (priority := high) : KnownList Γ [] [] := ⟨fun _ => ⟨rfl, nofun⟩⟩

instance (priority := high) (r : Reg) (rs : List Reg) (ty : Ty) (tys : List Ty) [h : Known Γ r ty]
    [hs : KnownList Γ rs tys] :
    KnownList Γ (r :: rs) (ty :: tys) where
  holds hΓ := by
    refine ⟨by simp [(hs.holds hΓ).1], fun p hp => ?_⟩
    rcases List.mem_cons.1 hp with rfl | hp
    · exact h.holds hΓ
    · exact (hs.holds hΓ).2 p hp

instance (rs : List Reg) (tys : List Ty) : KnownList (.list rs tys :: Γ) rs tys :=
  ⟨fun h => h _ (by simp)⟩

instance (F : Fact) (rs : List Reg) (tys : List Ty) [h : KnownList Γ rs tys] :
    KnownList (F :: Γ) rs tys :=
  ⟨fun hΓ => h.holds hΓ.tail⟩

instance (rs : List Reg) (tys : List Ty) [h : KnownList Γ rs tys] : KnownList (Γ ++ Δ) rs tys :=
  ⟨fun hΓ => h.holds hΓ.left⟩

instance (rs : List Reg) (tys : List Ty) [h : KnownList Δ rs tys] : KnownList (Γ ++ Δ) rs tys :=
  ⟨fun hΓ => h.holds hΓ.right⟩

/-- Control may go to blocks according to the facts. -/
class Leads (Γ : List Fact) (ps : List BlockId) (tys : outParam (List Ty)) : Prop where
  holds : ∀ {strict S b V}, Hold strict S b V Γ → (Fact.leads ps tys).Holds strict S b V

instance (ps : List BlockId) (tys : List Ty) : Leads (.leads ps tys :: Γ) ps tys :=
  ⟨fun h => h _ (by simp)⟩

instance (F : Fact) (ps : List BlockId) (tys : List Ty) [h : Leads Γ ps tys] :
    Leads (F :: Γ) ps tys :=
  ⟨fun hΓ => h.holds hΓ.tail⟩

instance (ps : List BlockId) (tys : List Ty) [h : Leads Γ ps tys] : Leads (Γ ++ Δ) ps tys :=
  ⟨fun hΓ => h.holds hΓ.left⟩

instance (ps : List BlockId) (tys : List Ty) [h : Leads Δ ps tys] : Leads (Γ ++ Δ) ps tys :=
  ⟨fun hΓ => h.holds hΓ.right⟩

theorem getElem_mem_zip {l : List α} {l' : List β} {i : Nat} (h : i < l.length) (h' : i < l'.length)
    :
    (l[i], l'[i]) ∈ l.zip l' :=
  List.mem_iff_getElem.2 ⟨i, by rw [List.length_zip]; omega, List.getElem_zip⟩

/-- An edge to a block that may be entered, with values of the types of its parameters. -/
theorem Builder.Enters.edge {tys : List Ty} {p : BlockId} {args : List Reg}
    (h : Builder.Enters strict S b V tys p) (hargs : (Fact.list args tys).Holds strict S b V) :
    b.func.EdgeScoped (!strict) S V p args ∧ (strict = true → b.func.EdgeTyped p args) := by
  obtain ⟨blk, hblk, hlen, htyped⟩ := h.block
  refine ⟨⟨⟨blk, hblk, fun _ => hlen.trans hargs.1.symm⟩, h.scope⟩,
    fun hs => ⟨blk, hblk, fun p hp => ?_⟩⟩
  -- the place of the parameter gives its type
  obtain ⟨i, hi, rfl⟩ := List.mem_iff_getElem.1 hp
  simp only [List.length_zip, Nat.lt_min] at hi
  have hty : i < tys.length := hlen ▸ hi.1
  simp only [List.getElem_zip]
  exact ⟨tys[i], htyped hs _ (getElem_mem_zip hi.1 hty), (hargs.2 _ (getElem_mem_zip hi.2 hty)).2
    hs⟩

theorem Builder.Enters.edge_nil {p : BlockId} (h : Builder.Enters strict S b V [] p) :
    b.func.EdgeScoped (!strict) S V p [] ∧ (strict = true → b.func.EdgeTyped p []) :=
      h.edge ⟨rfl, nofun⟩

theorem Fact.Holds.here {rs : List Reg} {tys : List Ty} (h : (Fact.list rs tys).Holds strict S b V)
    : ∀ r ∈ rs, V r := by
  intro r hr
  obtain ⟨i, hi, rfl⟩ := List.mem_iff_getElem.1 hr
  exact (h.2 _ (getElem_mem_zip hi (h.1 ▸ hi))).1

/-- A type of integers. -/
class IntTy (ty : Ty) : Prop where
  isInt : ty.isInt = true

instance : IntTy .i32 := ⟨rfl⟩

instance : IntTy .i64 := ⟨rfl⟩

/-! ## Steps -/

namespace Emit

/-- A building step that keeps to the scoping (module doc). -/
class Scoped (strict : Bool) (Γ : List Fact) (x : Emit α) (P : outParam (α → List Fact)) :
    Prop where
  grows : ∀ S b a b', b.Sound strict S → Hold strict S b (b.Here S) Γ → x b = .ok (a, b') →
    ∃ S', b.Grown strict S S' b' ∧ (∀ r, b.Here S r → b'.Here S' r) ∧ Hold strict S' b' (b'.Here S')
      (P a)

/-- A step that does not build tells nothing. -/
theorem scoped_of_same {x : Emit α} (h : ∀ b a b', x b = .ok (a, b') → b' = b) :
    Scoped strict Γ x fun _ => [] where
  grows S b a b' hb _ hx := by
    rw [h b a b' hx]
    exact ⟨S, .refl hb, fun _ h => h, .nil⟩

instance (priority := low) (a : α) : Scoped strict Γ (pure a : Emit α) fun _ => [] :=
  scoped_of_same fun _ _ _ h => (pure_ok h).2

instance (r : Reg) (ty : Ty) [h : Known Γ r ty] :
    Scoped strict Γ (pure r : Emit Reg) fun r => [.reg r ty] where
  grows S b a b' hb hΓ hx := by
    obtain ⟨rfl, rfl⟩ := pure_ok hx
    exact ⟨S, .refl hb, fun _ h => h, .cons (h.holds hΓ) .nil⟩

instance {P : α → List Fact} {Q : β → List Fact} (x : Emit α) (f : α → Emit β)
    [hx : Scoped strict Γ x P] [hf : ∀ a, Scoped strict (P a ++ Γ) (f a) Q] :
    Scoped strict Γ (x >>= f) Q where
  grows S b c b' hb hΓ h := by
    obtain ⟨a, b₁, h₁, h₂⟩ := bind_ok h
    obtain ⟨S₁, e₁, hmono₁, hP⟩ := hx.grows S b a b₁ hb hΓ h₁
    obtain ⟨S₂, e₂, hmono₂, hQ⟩ := (hf a).grows S₁ b₁ c b' e₁.after (hP.append (hΓ.grow e₁ hmono₁))
      h₂
    exact ⟨S₂, e₁.trans e₂, fun r hr => hmono₂ r (hmono₁ r hr), hQ⟩

instance {P : α → List Fact} (p : Prop) [Decidable p] (x y : Emit α) [hx : Scoped strict Γ x P]
    [hy : Scoped strict Γ y P] : Scoped strict Γ (if p then x else y) P := by
  split
  · exact hx
  · exact hy

instance (r : Reg) : Scoped strict Γ (typeOf r) fun _ => [] :=
  scoped_of_same fun _ _ _ h => (typeOf_ok h).1

instance : Scoped strict Γ isTerminated fun _ => [] :=
  scoped_of_same fun _ _ _ h => (isTerminated_ok h).1

instance : Scoped strict Γ currentBlock fun _ => [] := scoped_of_same fun _ _ _ h => by cases h; rfl

/-- An instruction whose operands are known. -/
theorem scoped_define {ty : Ty} {inst : Inst} (hstore : inst.isStore = false)
    (h : ∀ {S b V}, Hold strict S b V Γ →
      (∀ r ∈ inst.reads, V r) ∧ (strict = true → inst.WellTyped b.func.HasType (some ty))) :
    Scoped strict Γ (define ty inst) fun r => [.reg r ty] where
  grows S b r b' hb hΓ hx := by
    obtain ⟨hreads, htyped⟩ := h hΓ
    obtain ⟨S', e, hmono, hr, hty⟩ := define_grown hb hstore hreads htyped hx
    exact ⟨S', e, hmono, .cons ⟨hr, fun _ => hty⟩ .nil⟩

/-- An instruction of the type of an operand that is known. -/
theorem scoped_ofType {arg : Reg} {ty ty' : Ty} (inst : Ty → Inst) (result : Ty → Ty)
    [harg : Known Γ arg ty]
    (hstore : ∀ t, (inst t).isStore = false) (hty' : result ty = ty')
    (h : ∀ t {S b V}, Hold strict S b V Γ → (∀ r ∈ (inst t).reads, V r) ∧
      (strict = true → t = ty → (inst t).WellTyped b.func.HasType (some (result t)))) :
    Scoped strict Γ (typeOf arg >>= fun t => define (result t) (inst t)) fun r => [.reg r ty'] where
  grows S b r b' hb hΓ hx := by
    obtain ⟨t, b₁, h₁, hx₂⟩ := bind_ok hx
    obtain ⟨rfl, ht⟩ := typeOf_ok h₁
    -- if types count, the operand has the type that is known
    have hsame : strict = true → t = ty := fun hs => by
      have := (harg.holds hΓ).2 hs
      rw [Function.HasType, ht] at this
      exact Option.some.inj this
    obtain ⟨hreads, htyped⟩ := h t hΓ
    obtain ⟨S', e, hmono, hr, hdef⟩ :=
      define_grown hb (hstore t) hreads (fun hs => htyped hs (hsame hs)) hx₂
    refine ⟨S', e, hmono, .cons ⟨hr, fun hs => ?_⟩ .nil⟩
    rw [← hty', ← hsame hs]
    exact hdef

/-! ## Instructions -/

instance (ty : Ty) (imm : Int64) [h : IntTy ty] :
    Scoped strict Γ (iconst ty imm) fun r => [.reg r ty] :=
  scoped_define rfl fun _ => ⟨nofun, fun _ => ⟨h.isInt, rfl⟩⟩

instance (n : Int) : Scoped strict Γ (int32 n) fun r => [.reg r .i32] :=
  inferInstanceAs (Scoped strict Γ (iconst _ _) _)

instance (n : Int) : Scoped strict Γ (int64 n) fun r => [.reg r .i64] :=
  inferInstanceAs (Scoped strict Γ (iconst _ _) _)

instance (w : UInt64) : Scoped strict Γ (word w) fun r => [.reg r .i64] :=
  inferInstanceAs (Scoped strict Γ (iconst _ _) _)

instance (d : Double) : Scoped strict Γ (fconst d) fun r => [.reg r .f64] :=
  scoped_define rfl fun _ => ⟨nofun, fun _ => rfl⟩

instance : Scoped strict Γ context fun r => [.reg r .i64] :=
  scoped_define rfl fun _ => ⟨nofun, fun _ => rfl⟩

instance : Scoped strict Γ frame fun r => [.reg r .i64] :=
  scoped_define rfl fun _ => ⟨nofun, fun _ => rfl⟩

instance (op : BinaryOp) (l r : Reg) {ty : Ty} [hl : Known Γ l ty] [hr : Known Γ r ty]
    [hty : IntTy ty] :
    Scoped strict Γ (binary op l r) fun r => [.reg r ty] :=
  scoped_ofType (fun t => .binary op t l r) id (fun _ => rfl) rfl fun t _ _ _ hΓ =>
    ⟨by simpa [Inst.reads] using ⟨(hl.holds hΓ).1, (hr.holds hΓ).1⟩,
      fun hs ht => ht ▸ ⟨hty.isInt, (hl.holds hΓ).2 hs, (hr.holds hΓ).2 hs, rfl⟩⟩

instance (op : OverflowOp) (l r : Reg) {ty : Ty} [hl : Known Γ l ty] [hr : Known Γ r ty]
    [hty : IntTy ty] :
    Scoped strict Γ (overflows op l r) fun r => [.reg r .i32] :=
  scoped_ofType (fun t => .overflows op t l r) (fun _ => .i32) (fun _ => rfl) rfl fun t _ _ _ hΓ =>
    ⟨by simpa [Inst.reads] using ⟨(hl.holds hΓ).1, (hr.holds hΓ).1⟩,
      fun hs ht => ht ▸ ⟨hty.isInt, (hl.holds hΓ).2 hs, (hr.holds hΓ).2 hs, rfl⟩⟩

instance (op : UnaryOp) (r : Reg) {ty : Ty} [hr : Known Γ r ty] [hty : IntTy ty] :
    Scoped strict Γ (unary op r) fun r => [.reg r ty] :=
  scoped_ofType (fun t => .unary op t r) id (fun _ => rfl) rfl fun t _ _ _ hΓ =>
    ⟨by
      simpa [Inst.reads] using (hr.holds hΓ).1, fun hs ht =>
        ht ▸ ⟨hty.isInt, (hr.holds hΓ).2 hs, rfl⟩⟩

instance (op : FBinaryOp) (l r : Reg) [hl : Known Γ l .f64] [hr : Known Γ r .f64] :
    Scoped strict Γ (fbinary op l r) fun r => [.reg r .f64] :=
  scoped_define rfl fun hΓ => ⟨by simpa [Inst.reads] using ⟨(hl.holds hΓ).1, (hr.holds hΓ).1⟩,
    fun hs => ⟨(hl.holds hΓ).2 hs, (hr.holds hΓ).2 hs, rfl⟩⟩

instance (op : FUnaryOp) (r : Reg) [hr : Known Γ r .f64] :
    Scoped strict Γ (funary op r) fun r => [.reg r .f64] :=
  scoped_define rfl fun hΓ =>
    ⟨by simpa [Inst.reads] using (hr.holds hΓ).1, fun hs => ⟨(hr.holds hΓ).2 hs, rfl⟩⟩

instance (cc : IntCC) (l r : Reg) {ty : Ty} [hl : Known Γ l ty] [hr : Known Γ r ty] [hty : IntTy ty]
    :
    Scoped strict Γ (icmp cc l r) fun r => [.reg r .i32] :=
  scoped_define rfl fun hΓ => ⟨by simpa [Inst.reads] using ⟨(hl.holds hΓ).1, (hr.holds hΓ).1⟩,
    fun hs => ⟨⟨ty, hty.isInt, (hl.holds hΓ).2 hs, (hr.holds hΓ).2 hs⟩, rfl⟩⟩

instance (cc : FloatCC) (l r : Reg) [hl : Known Γ l .f64] [hr : Known Γ r .f64] :
    Scoped strict Γ (fcmp cc l r) fun r => [.reg r .i32] :=
  scoped_define rfl fun hΓ => ⟨by simpa [Inst.reads] using ⟨(hl.holds hΓ).1, (hr.holds hΓ).1⟩,
    fun hs => ⟨(hl.holds hΓ).2 hs, (hr.holds hΓ).2 hs, rfl⟩⟩

instance (c t f : Reg) {ty : Ty} [hc : Known Γ c .i32] [ht : Known Γ t ty] [hf : Known Γ f ty] :
    Scoped strict Γ (select c t f) fun r => [.reg r ty] :=
  scoped_ofType (fun _ => .select c t f) id (fun _ => rfl) rfl fun t _ _ _ hΓ =>
    ⟨by simpa [Inst.reads] using ⟨(hc.holds hΓ).1, (ht.holds hΓ).1, (hf.holds hΓ).1⟩,
      fun hs heq => ⟨(hc.holds hΓ).2 hs, ty, (ht.holds hΓ).2 hs, (hf.holds hΓ).2 hs,
        by rw [heq]; rfl⟩⟩

instance (r : Reg) [hr : Known Γ r .i32] : Scoped strict Γ (signExtend r) fun r => [.reg r .i64] :=
  scoped_define rfl fun hΓ =>
    ⟨by simpa [Inst.reads] using (hr.holds hΓ).1, fun hs => ⟨(hr.holds hΓ).2 hs, rfl⟩⟩

instance (r : Reg) [hr : Known Γ r .i32] : Scoped strict Γ (zeroExtend r) fun r => [.reg r .i64] :=
  scoped_define rfl fun hΓ =>
    ⟨by simpa [Inst.reads] using (hr.holds hΓ).1, fun hs => ⟨(hr.holds hΓ).2 hs, rfl⟩⟩

instance (r : Reg) [hr : Known Γ r .i64] : Scoped strict Γ (truncate r) fun r => [.reg r .i32] :=
  scoped_define rfl fun hΓ =>
    ⟨by simpa [Inst.reads] using (hr.holds hΓ).1, fun hs => ⟨(hr.holds hΓ).2 hs, rfl⟩⟩

instance (signed : Bool) (r : Reg) {ty : Ty} [hr : Known Γ r ty] [hty : IntTy ty] :
    Scoped strict Γ (intToDouble signed r) fun r => [.reg r .f64] :=
  scoped_define rfl fun hΓ => ⟨by simpa [Inst.reads] using (hr.holds hΓ).1,
    fun hs => ⟨⟨ty, hty.isInt, (hr.holds hΓ).2 hs⟩, rfl⟩⟩

instance (ty : Ty) (r : Reg) [hr : Known Γ r .f64] [hty : IntTy ty] :
    Scoped strict Γ (doubleToInt ty r) fun r => [.reg r ty] :=
  scoped_define rfl fun hΓ => ⟨by simpa [Inst.reads] using (hr.holds hΓ).1,
    fun hs => ⟨hty.isInt, (hr.holds hΓ).2 hs, rfl⟩⟩

instance (r : Reg) [hr : Known Γ r .f64] :
    Scoped strict Γ (bitcastToInt r) fun r => [.reg r .i64] :=
  scoped_define rfl fun hΓ =>
    ⟨by simpa [Inst.reads] using (hr.holds hΓ).1, fun hs => ⟨(hr.holds hΓ).2 hs, rfl⟩⟩

instance (r : Reg) [hr : Known Γ r .i64] :
    Scoped strict Γ (bitcastToDouble r) fun r => [.reg r .f64] :=
  scoped_define rfl fun hΓ =>
    ⟨by simpa [Inst.reads] using (hr.holds hΓ).1, fun hs => ⟨(hr.holds hΓ).2 hs, rfl⟩⟩

theorem scoped_load {ty : Ty} {width : MemWidth} {signed : Bool} {addr : Reg} {offset : Int}
    [hr : Known Γ addr .i64] (h : ty = width.registerType) :
    Scoped strict Γ (load ty width signed addr offset) fun r => [.reg r ty] :=
  scoped_define rfl fun hΓ =>
    ⟨by simpa [Inst.reads] using (hr.holds hΓ).1, fun hs => ⟨h, (hr.holds hΓ).2 hs, rfl⟩⟩

instance (addr : Reg) (offset : Int) [Known Γ addr .i64] :
    Scoped strict Γ (load64 addr offset) fun r => [.reg r .i64] :=
  scoped_load rfl

instance (addr : Reg) (offset : Int) [Known Γ addr .i64] :
    Scoped strict Γ (load32 addr offset) fun r => [.reg r .i32] :=
  scoped_load rfl

instance (addr : Reg) (offset : Int) [Known Γ addr .i64] :
    Scoped strict Γ (load8 addr offset) fun r => [.reg r .i32] :=
  scoped_load rfl

instance (addr : Reg) (offset : Int) [Known Γ addr .i64] :
    Scoped strict Γ (load .i32 .w16 false addr offset) fun r => [.reg r .i32] := scoped_load rfl

instance (addr : Reg) (offset : Int) [Known Γ addr .i64] :
    Scoped strict Γ (load .f64 .f64 false addr offset) fun r => [.reg r .f64] := scoped_load rfl

instance (helper : Helper) (args : List Reg) [h : KnownAll Γ args .i64] :
    Scoped strict Γ (call helper args) fun r => [.reg r .i64] :=
  scoped_define rfl fun hΓ =>
    ⟨fun r hr => (h.holds hΓ r hr).1, fun hs => ⟨fun r hr => (h.holds hΓ r hr).2 hs, rfl⟩⟩

instance (site : SiteId) (args : List Reg) [h : KnownAll Γ args .i64] :
    Scoped strict Γ (patchpoint site args) fun r => [.reg r .i64] :=
  scoped_define rfl fun hΓ =>
    ⟨fun r hr => (h.holds hΓ r hr).1, fun hs => ⟨fun r hr => (h.holds hΓ r hr).2 hs, rfl⟩⟩

/-- A store of a register of the type that the width asks for. -/
theorem scoped_store {width : MemWidth} {value addr : Reg} {offset : Int} {ty : Ty}
    [hv : Known Γ value ty] [ha : Known Γ addr .i64] (h : ty = width.registerType) :
    Scoped strict Γ (store width value addr offset) fun _ => [] where
  grows S b u b' hb hΓ hx := by
    obtain ⟨_, b₁, h₁, h₂⟩ := bind_ok hx
    obtain ⟨S₁, blk, e₁, hblk, htypes, hdef⟩ := ensureOpen_grown hb h₁
    have hboth := And.intro (hv.holds hΓ) (ha.holds hΓ)
    have e₂ := Builder.addInst_grown (d := ⟨.store width value addr (Int32.ofInt offset), none⟩)
      e₁.after hblk
      ⟨by simpa [Inst.reads] using ⟨hdef _ hboth.1.1, hdef _ hboth.2.1⟩, nofun⟩
      fun hs => ⟨h ▸ e₁.func.types _ _ (hboth.1.2 hs), e₁.func.types _ _ (hboth.2.2 hs), rfl⟩
    rw [push_ok h₂]
    refine ⟨S₁, e₁.trans e₂, fun r hr => ?_, .nil⟩
    have hr₁ : b₁.Here S₁ r := .inr ⟨blk, hblk, hdef r hr⟩
    exact hr₁.addInst _

instance (priority := low) (width : MemWidth) (value addr : Reg) (offset : Int)
    [Known Γ value width.registerType] [Known Γ addr .i64] :
    Scoped strict Γ (store width value addr offset) fun _ => [] := scoped_store rfl

instance (value addr : Reg) (offset : Int) [Known Γ value .i64] [Known Γ addr .i64] :
    Scoped strict Γ (store64 value addr offset) fun _ => [] := scoped_store rfl

instance (value addr : Reg) (offset : Int) [Known Γ value .i64] [Known Γ addr .i64] :
    Scoped strict Γ (store .w64 value addr offset) fun _ => [] := scoped_store rfl

instance (value addr : Reg) (offset : Int) [Known Γ value .i32] [Known Γ addr .i64] :
    Scoped strict Γ (store .w32 value addr offset) fun _ => [] := scoped_store rfl

instance (value addr : Reg) (offset : Int) [Known Γ value .i32] [Known Γ addr .i64] :
    Scoped strict Γ (store .w8 value addr offset) fun _ => [] := scoped_store rfl

instance (value addr : Reg) (offset : Int) [Known Γ value .f64] [Known Γ addr .i64] :
    Scoped strict Γ (store .f64 value addr offset) fun _ => [] := scoped_store rfl

/-- An operation with a constant of the type of its operand. -/
theorem scoped_withConstant {γ : Type} {l : Reg} {ty : Ty} {imm : Int64} {f : Reg → Emit γ}
    {P : γ → List Fact} [hl : Known Γ l ty] [hty : IntTy ty]
    [hf : ∀ r, Scoped strict ([.reg r ty] ++ Γ) (f r) P] :
    Scoped strict Γ (typeOf l >>= fun t => iconst t imm >>= f) P where
  grows S b c b' hb hΓ hx := by
    obtain ⟨t, b₁, h₁, hx₂⟩ := bind_ok hx
    obtain ⟨rfl, ht⟩ := typeOf_ok h₁
    have hsame : strict = true → t = ty := fun hs => by
      have := (hl.holds hΓ).2 hs
      rw [Function.HasType, ht] at this
      exact Option.some.inj this
    obtain ⟨r, b₂, h₂, hx₃⟩ := bind_ok hx₂
    have hconst : define t (.iconst t imm) b₁ = .ok (r, b₂) := h₂
    have htyped : strict = true → (Inst.iconst t imm).WellTyped b₁.func.HasType (some t) :=
      fun hs =>
      ⟨by rw [hsame hs]; exact hty.isInt, rfl⟩
    obtain ⟨S₂, e₂, hmono₂, hr, hdef⟩ := define_grown hb rfl (by simp [Inst.reads]) htyped hconst
    have hfact : (Fact.reg r ty).Holds strict S₂ b₂ (b₂.Here S₂) :=
      ⟨hr, fun hs => by rw [← hsame hs]; exact hdef⟩
    obtain ⟨S₃, e₃, hmono₃, hP⟩ :=
      (hf r).grows S₂ b₂ c b' e₂.after (.cons hfact (hΓ.grow e₂ hmono₂)) hx₃
    exact ⟨S₃, e₂.trans e₃, fun r hr => hmono₃ r (hmono₂ r hr), hP⟩

instance (op : BinaryOp) (l : Reg) (n : Int) {ty : Ty} [Known Γ l ty] [IntTy ty] :
    Scoped strict Γ (binaryImm op l n) fun r => [.reg r ty] := scoped_withConstant

instance (cc : IntCC) (l : Reg) (n : Int) {ty : Ty} [Known Γ l ty] [IntTy ty] :
    Scoped strict Γ (icmpImm cc l n) fun r => [.reg r .i32] := scoped_withConstant

/-! ## Terminators -/

/-- A terminator whose operands are known. -/
theorem scoped_terminate {t : Terminator}
    (h : ∀ {S b V}, Hold strict S b V Γ → (∀ r ∈ t.reads, V r) ∧
      (∀ e ∈ t.edges, b.func.EdgeScoped (!strict) S V e.1 e.2) ∧
      (strict = true → t.WellTyped b.func.HasType ∧ ∀ e ∈ t.edges, b.func.EdgeTyped e.1 e.2)) :
    Scoped strict Γ (terminate t) fun _ => [] where
  grows S b u b' hb hΓ hx := by
    obtain ⟨hreads, hedges, htyped⟩ := h hΓ
    obtain ⟨S', e, hc⟩ := terminate_grown hb hreads hedges htyped hx
    exact ⟨S', e, fun r _ => Builder.here_of_closed hc r, .nil⟩

instance (value : Reg) [h : Known Γ value .i64] : Scoped strict Γ (ret value) fun _ => [] :=
  scoped_terminate fun hΓ => ⟨by simpa [Terminator.reads] using (h.holds hΓ).1, nofun,
    fun hs => ⟨(h.holds hΓ).2 hs, nofun⟩⟩

instance (id : ExitId) (values : List Reg) [h : KnownHere Γ values] :
    Scoped strict Γ (exit id values) fun _ => [] :=
  scoped_terminate fun hΓ => ⟨h.holds hΓ, nofun, fun _ => ⟨trivial, nofun⟩⟩

instance : Scoped strict Γ unreachable fun _ => [] :=
  scoped_terminate fun _ => ⟨nofun, nofun, fun _ => ⟨trivial, nofun⟩⟩

instance (target : BlockId) (args : List Reg) {tys : List Ty} [h : Leads Γ [target] tys]
    [hargs : KnownList Γ args tys] :
    Scoped strict Γ (jump target args) fun _ => [] :=
  scoped_terminate fun hΓ => by
    have hlist := hargs.holds hΓ
    obtain ⟨hscoped, htyped⟩ := (h.holds hΓ target (by simp)).edge hlist
    exact ⟨hlist.here, by simpa [Terminator.edges] using hscoped,
      fun hs => ⟨trivial, by simpa [Terminator.edges] using htyped hs⟩⟩

/-- What an edge without values needs. -/
theorem Leads.plain {p : BlockId} [h : Leads Γ [p] []] (hΓ : Hold strict S b V Γ) :
    b.func.EdgeScoped (!strict) S V p [] ∧ (strict = true → b.func.EdgeTyped p []) :=
  (h.holds hΓ p (by simp)).edge_nil

instance (cond : Reg) (taken notTaken : BlockId) (weight : BranchWeight) [hc : Known Γ cond .i32]
    [Leads Γ [taken] []] [Leads Γ [notTaken] []] :
    Scoped strict Γ (branch cond taken notTaken weight) fun _ => [] :=
  scoped_terminate fun hΓ => by
    obtain ⟨ht, ht'⟩ := Leads.plain (p := taken) hΓ
    obtain ⟨hn, hn'⟩ := Leads.plain (p := notTaken) hΓ
    exact ⟨by
      simpa [Terminator.reads] using (hc.holds hΓ).1, by simpa [Terminator.edges] using ⟨ht, hn⟩,
      fun hs => ⟨(hc.holds hΓ).2 hs, by simpa [Terminator.edges] using ⟨ht' hs, hn' hs⟩⟩⟩

/-- A branch that hands over values. -/
instance (cond : Reg) (taken notTaken : BlockId) (takenArgs notTakenArgs : List Reg)
    (weight : BranchWeight) {tys tys' : List Ty} [hc : Known Γ cond .i32] [h : Leads Γ [taken] tys]
    [hargs : KnownList Γ takenArgs tys] [h' : Leads Γ [notTaken] tys']
    [hargs' : KnownList Γ notTakenArgs tys'] :
    Scoped strict Γ (terminate (.branch cond taken takenArgs notTaken notTakenArgs weight))
      fun _ => [] :=
  scoped_terminate fun hΓ => by
    have hlist := hargs.holds hΓ
    have hlist' := hargs'.holds hΓ
    obtain ⟨ht, ht'⟩ := (h.holds hΓ taken (by simp)).edge hlist
    obtain ⟨hn, hn'⟩ := (h'.holds hΓ notTaken (by simp)).edge hlist'
    refine ⟨fun r hr => ?_, by simpa [Terminator.edges] using ⟨ht, hn⟩,
      fun hs => ⟨(hc.holds hΓ).2 hs, by simpa [Terminator.edges] using ⟨ht' hs, hn' hs⟩⟩⟩
    simp only [Terminator.reads, List.mem_cons, List.mem_append] at hr
    rcases hr with (rfl | hr) | hr
    · exact (hc.holds hΓ).1
    · exact hlist.here r hr
    · exact hlist'.here r hr

instance (value : Reg) (cases : List (Int32 × BlockId)) (fallback : BlockId)
    [hv : Known Γ value .i32] [hc : Leads Γ (cases.map (·.2)) []] [Leads Γ [fallback] []] :
    Scoped strict Γ (switch value cases fallback) fun _ => [] :=
  scoped_terminate fun hΓ => by
    obtain ⟨hf, hf'⟩ := Leads.plain (p := fallback) hΓ
    have hcases (c : Int32 × BlockId) (hmem : c ∈ cases) :=
      (hc.holds hΓ c.2 (List.mem_map_of_mem hmem)).edge_nil
    refine ⟨by
      simpa [Terminator.reads] using (hv.holds hΓ).1, fun e he => ?_, fun hs =>
        ⟨(hv.holds hΓ).2 hs, fun e he => ?_⟩⟩
    · rcases List.mem_append.1 he with he | he
      · obtain ⟨c, hmem, rfl⟩ := List.mem_map.1 he
        exact (hcases c hmem).1
      · cases List.mem_singleton.1 he
        exact hf
    · rcases List.mem_append.1 he with he | he
      · obtain ⟨c, hmem, rfl⟩ := List.mem_map.1 he
        exact (hcases c hmem).2 hs
      · cases List.mem_singleton.1 he
        exact hf' hs

end Emit

end SpecJit.Lir
