import SpecJit.Lir.Builder
import SpecJit.Proofs.Lir.Run

/-!
# How a builder grows

Building steps only add: registers and blocks are appended, an open block gets instructions at its
end, and a block with its terminator stays as it is (`Builder.Extends`). A function that a builder
grows into agrees with it in that sense (`Builder.Completes`).

`Builder.Grows P b b'` says more about the steps from `b` to `b'`: they touched no old block but the
current one, and of the blocks they made all have their terminator except the current one and the
pending ones in `P`. `Builder.Emits` adds that no block that they ended is a dead end.

A relation between builders that composes is a law (`Builder.Law`). A law that holds of the single
instructions and ends of blocks holds of all steps that are made of them: `Emit.Obeys R x` is
derived for every building step `x` once, for all laws `R` (`Emit.Computing`, `Emit.Building`).
`Emit.Tidy` is the instance for steps that leave nothing pending.
-/

namespace SpecJit.Lir

namespace Builder

/-- Every block has its flag, and the current block exists. -/
structure WellFormed (b : Builder) : Prop where
  flags : b.terminated.size = b.func.blocks.size
  current : b.current.index < b.func.blocks.size

/-- Block `i` waits for its terminator. -/
def IsOpen (b : Builder) (i : Nat) : Prop := b.terminated[i]? = some false

/-- Block `i` has its terminator. -/
def IsClosed (b : Builder) (i : Nat) : Prop := b.terminated[i]? = some true

instance (b : Builder) (i : Nat) : Decidable (b.IsOpen i) := inferInstanceAs (Decidable (_ = _))

instance (b : Builder) (i : Nat) : Decidable (b.IsClosed i) := inferInstanceAs (Decidable (_ = _))

/-- `b'` has everything that `b` has, and open blocks may have more instructions. -/
structure Extends (b b' : Builder) : Prop where
  types : ∀ (i : Nat) ty, b.func.types[i]? = some ty → b'.func.types[i]? = some ty
  grown : ∀ (i : Nat) blk, b.func.blocks[i]? = some blk → ∃ blk', b'.func.blocks[i]? = some blk' ∧
    blk'.params = blk.params ∧ ∀ (k : Nat) d, blk.insts[k]? = some d → blk'.insts[k]? = some d
  closed : ∀ i, b.IsClosed i → b'.IsClosed i ∧ b'.func.blocks[i]? = b.func.blocks[i]?

/-- The function `f` is what `b` grows into. -/
structure Completes (b : Builder) (f : Function) : Prop where
  types : ∀ (i : Nat) ty, b.func.types[i]? = some ty → f.types[i]? = some ty
  grown : ∀ (i : Nat) blk, b.func.blocks[i]? = some blk → ∃ blk', f.blocks[i]? = some blk' ∧
    blk'.params = blk.params ∧ ∀ (k : Nat) d, blk.insts[k]? = some d → blk'.insts[k]? = some d
  closed : ∀ i, b.IsClosed i → f.blocks[i]? = b.func.blocks[i]?

/-- The steps from `b` to `b'` leave the blocks `P` pending and nothing else (module doc). -/
structure Grows (P : List BlockId) (b b' : Builder) : Prop extends b.Extends b' where
  before : b.WellFormed
  after : b'.WellFormed
  aside : ∀ i, i ≠ b.current.index → b.IsOpen i → b'.IsOpen i ∧
    b'.func.blocks[i]? = b.func.blocks[i]?
  fresh : ∀ i, b.func.blocks.size ≤ i → b'.IsOpen i → i = b'.current.index ∨ ⟨i⟩ ∈ P
  pending : ∀ p ∈ P, b.func.blocks.size ≤ p.index ∧ b'.IsOpen p.index ∧ p ≠ b'.current
  distinct : P.Nodup
  moved : b'.current = b.current ∨ b.func.blocks.size ≤ b'.current.index
  left : b'.IsOpen b.current.index → b'.current = b.current

/-- The steps from `b` to `b'` leave the blocks `P` pending, and make no dead end. -/
structure Emits (P : List BlockId) (b b' : Builder) : Prop extends b.Grows P b' where
  ended : ∀ (i : Nat) blk, b'.IsClosed i → ¬ b.IsClosed i → b'.func.blocks[i]? = some blk →
    blk.terminator ≠ .unreachable

/-! ## Flags -/

variable {b b' b'' : Builder} {i : Nat}

theorem IsOpen.not_closed (h : b.IsOpen i) : ¬ b.IsClosed i := by
  unfold IsOpen IsClosed at *
  simp [h]

theorem IsOpen.lt (hw : b.WellFormed) (h : b.IsOpen i) : i < b.func.blocks.size := by
  obtain ⟨hlt, -⟩ := Array.getElem?_eq_some_iff.1 h
  rw [← hw.flags]
  exact hlt

theorem WellFormed.open_or_closed (hw : b.WellFormed) (h : i < b.func.blocks.size) :
    b.IsOpen i ∨ b.IsClosed i := by
  have hlt : i < b.terminated.size := by rw [hw.flags]; exact h
  unfold IsOpen IsClosed
  rw [Array.getElem?_eq_getElem hlt]
  cases b.terminated[i] <;> simp

/-- A block that is open later was open before, if it was there. -/
theorem Extends.open_of_open (h : b.Extends b') (hw : b.WellFormed) (hi : i < b.func.blocks.size)
    (ho : b'.IsOpen i) : b.IsOpen i := by
  rcases hw.open_or_closed hi with h' | h'
  · exact h'
  · exact absurd (h.closed i h').1 ho.not_closed

/-! ## Extension -/

theorem Extends.refl (b : Builder) : b.Extends b :=
  ⟨fun _ _ h => h, fun _ blk h => ⟨blk, h, rfl, fun _ _ h => h⟩, fun _ h => ⟨h, rfl⟩⟩

theorem Extends.trans (h₁ : b.Extends b') (h₂ : b'.Extends b'') : b.Extends b'' := by
  refine ⟨fun i ty h => h₂.types i ty (h₁.types i ty h), fun i blk h => ?_, fun i h => ?_⟩
  · obtain ⟨blk', hb', hp', hi'⟩ := h₁.grown i blk h
    obtain ⟨blk'', hb'', hp'', hi''⟩ := h₂.grown i blk' hb'
    exact ⟨blk'', hb'', hp''.trans hp', fun k d hd => hi'' k d (hi' k d hd)⟩
  · obtain ⟨hc', he'⟩ := h₁.closed i h
    obtain ⟨hc'', he''⟩ := h₂.closed i hc'
    exact ⟨hc'', he''.trans he'⟩

theorem Extends.completes {f : Function} (h₁ : b.Extends b') (h₂ : b'.Completes f) :
    b.Completes f := by
  refine ⟨fun i ty h => h₂.types i ty (h₁.types i ty h), fun i blk h => ?_, fun i h => ?_⟩
  · obtain ⟨blk', hb', hp', hi'⟩ := h₁.grown i blk h
    obtain ⟨blk'', hb'', hp'', hi''⟩ := h₂.grown i blk' hb'
    exact ⟨blk'', hb'', hp''.trans hp', fun k d hd => hi'' k d (hi' k d hd)⟩
  · obtain ⟨hc', he'⟩ := h₁.closed i h
    exact (h₂.closed i hc').trans he'

/-- A builder is complete when its function is taken as it is. -/
theorem completes_self (b : Builder) : b.Completes b.func :=
  ⟨fun _ _ h => h, fun _ blk h => ⟨blk, h, rfl, fun _ _ h => h⟩, fun _ _ => rfl⟩

theorem Extends.size_le (h : b.Extends b') : b.func.blocks.size ≤ b'.func.blocks.size := by
  refine Nat.le_of_not_lt fun hlt => ?_
  obtain ⟨_, hb', -⟩ := h.grown b'.func.blocks.size _ (Array.getElem?_eq_getElem hlt)
  simp at hb'

theorem Extends.types_size_le (h : b.Extends b') : b.func.types.size ≤ b'.func.types.size := by
  refine Nat.le_of_not_lt fun hlt => ?_
  have := h.types b'.func.types.size _ (Array.getElem?_eq_getElem hlt)
  simp at this

/-! ## Emission -/

theorem Emits.refl (hw : b.WellFormed) : b.Emits [] b where
  toExtends := .refl b
  before := hw
  after := hw
  aside _ _ h := ⟨h, rfl⟩
  fresh i hi ho := by have := ho.lt hw; omega
  pending _ h := by cases h
  distinct := .nil
  moved := .inl rfl
  left _ := rfl
  ended _ _ h hn := absurd h hn

/-- Steps that leave nothing pending themselves can follow any steps. -/
theorem Grows.trans {P : List BlockId} (h₁ : b.Grows P b') (h₂ : b'.Grows [] b'') :
    b.Grows P b'' where
  toExtends := h₁.toExtends.trans h₂.toExtends
  before := h₁.before
  after := h₂.after
  aside i hi ho := by
    obtain ⟨ho', he'⟩ := h₁.aside i hi ho
    have hlt := ho.lt h₁.before
    have hne : i ≠ b'.current.index := by
      rcases h₁.moved with hm | hm
      · rw [hm]; exact hi
      · omega
    obtain ⟨ho'', he''⟩ := h₂.aside i hne ho'
    exact ⟨ho'', he''.trans he'⟩
  fresh i hi ho := by
    by_cases hlt : i < b'.func.blocks.size
    · have ho' := h₂.toExtends.open_of_open h₁.after hlt ho
      rcases h₁.fresh i hi ho' with rfl | hp
      · rw [h₂.left ho]; exact .inl rfl
      · exact .inr hp
    · rcases h₂.fresh i (by omega) ho with rfl | hp
      · exact .inl rfl
      · cases hp
  pending p hp := by
    obtain ⟨hs, ho, hne⟩ := h₁.pending p hp
    have hidx : p.index ≠ b'.current.index := by
      intro he
      exact hne (by cases p; cases hc : b'.current; simp_all)
    obtain ⟨ho'', -⟩ := h₂.aside p.index hidx ho
    refine ⟨hs, ho'', ?_⟩
    rintro rfl
    rcases h₂.moved with hm | hm
    · exact hidx (by rw [hm])
    · have := ho.lt h₁.after; omega
  distinct := h₁.distinct
  moved := by
    rcases h₂.moved with hm | hm
    · rw [hm]; exact h₁.moved
    · exact .inr (Nat.le_trans h₁.toExtends.size_le hm)
  left ho := by
    have ho' := h₂.toExtends.open_of_open h₁.after
      (Nat.lt_of_lt_of_le h₁.before.current h₁.toExtends.size_le) ho
    have hc := h₁.left ho'
    rw [← hc] at ho
    rw [h₂.left ho, hc]

theorem Emits.trans {P : List BlockId} (h₁ : b.Emits P b') (h₂ : b'.Emits [] b'') :
    b.Emits P b'' where
  toGrows := h₁.toGrows.trans h₂.toGrows
  ended i blk hc hn hb := by
    by_cases hc' : b'.IsClosed i
    · rw [(h₂.closed i hc').2] at hb
      exact h₁.ended i blk hc' hn hb
    · exact h₂.ended i blk hc hc' hb

/-! ## Single changes -/

/-- A builder with one more block. -/
def addBlock (b : Builder) (cold : Bool) : Builder :=
  { b with func.blocks := b.func.blocks.push { cold }, terminated := b.terminated.push false }

/-- A builder that goes on in another block. -/
def goTo (b : Builder) (block : BlockId) : Builder := { b with current := block }

/-- A builder with one more register. -/
def addReg (b : Builder) (ty : Ty) : Builder := { b with func.types := b.func.types.push ty }

/-- A builder with a parameter added to a block. -/
def addParam (b : Builder) (block : BlockId) (r : Reg) : Builder :=
  { b with func.blocks := b.func.blocks.modify block.index fun blk => { blk with
    params := blk.params ++ [r] } }

/-- A builder with an instruction added to the current block. -/
def addInst (b : Builder) (d : InstData) : Builder :=
  { b with func.blocks := b.func.blocks.modify b.current.index fun blk => { blk with
    insts := blk.insts.push d } }

/-- A builder whose current block ends. -/
def close (b : Builder) (t : Terminator) : Builder :=
  { b with
    func.blocks := b.func.blocks.modify b.current.index fun blk => { blk with terminator := t }
    terminated := b.terminated.setIfInBounds b.current.index true }

theorem addReg_emits (hw : b.WellFormed) (ty : Ty) : b.Emits [] (b.addReg ty) where
  types i t h := by
    obtain ⟨hlt, -⟩ := Array.getElem?_eq_some_iff.1 h
    rw [addReg, Array.getElem?_push_lt hlt, ← h, Array.getElem?_eq_getElem hlt]
  grown _ blk h := ⟨blk, h, rfl, fun _ _ h => h⟩
  closed _ h := ⟨h, rfl⟩
  before := hw
  after := ⟨hw.flags, hw.current⟩
  aside _ _ h := ⟨h, rfl⟩
  fresh i hi ho := by have : i < b.func.blocks.size := ho.lt (b := b) hw; omega
  pending _ h := by cases h
  distinct := .nil
  moved := .inl rfl
  left _ := rfl
  ended _ _ h hn := absurd h hn

theorem addInst_emits (hw : b.WellFormed) (ho : b.IsOpen b.current.index) (d : InstData) :
    b.Emits [] (b.addInst d) where
  types _ _ h := h
  grown i blk h := by
    by_cases hi : b.current.index = i
    · refine ⟨{ blk with insts := blk.insts.push d },
        by simp [addInst, Array.getElem?_modify, hi, h], rfl,
        fun k d' hd => ?_⟩
      obtain ⟨hlt, -⟩ := Array.getElem?_eq_some_iff.1 hd
      simp only
      rw [Array.getElem?_push_lt hlt, ← hd, Array.getElem?_eq_getElem hlt]
    · exact ⟨blk, by simp [addInst, Array.getElem?_modify, hi, h], rfl, fun _ _ h => h⟩
  closed i h := by
    refine ⟨h, ?_⟩
    have hi : b.current.index ≠ i := by rintro rfl; exact ho.not_closed h
    simp [addInst, Array.getElem?_modify, hi]
  before := hw
  after := ⟨by simp [addInst, hw.flags], by simpa [addInst] using hw.current⟩
  aside i hi h := ⟨h, by simp [addInst, Array.getElem?_modify, Ne.symm hi]⟩
  fresh i hi h := by have : i < b.func.blocks.size := h.lt (b := b) hw; omega
  pending _ h := by cases h
  distinct := .nil
  moved := .inl rfl
  left _ := rfl
  ended _ _ h hn := absurd h hn

theorem close_isClosed (hw : b.WellFormed) (t : Terminator) :
    (b.close t).IsClosed b.current.index := by
  have hlt : b.current.index < b.terminated.size := by rw [hw.flags]; exact hw.current
  simp [IsClosed, close, hlt]

/-- Only the current block gets closed. -/
theorem close_isClosed_iff (hw : b.WellFormed) (t : Terminator) :
    (b.close t).IsClosed i ↔ i = b.current.index ∨ b.IsClosed i := by
  by_cases hi : b.current.index = i
  · subst hi
    simp [close_isClosed hw t]
  · unfold IsClosed close
    rw [Array.getElem?_setIfInBounds_ne hi]
    simp [Ne.symm hi]

theorem close_grows (hw : b.WellFormed) (ho : b.IsOpen b.current.index) (t : Terminator) :
    b.Grows [] (b.close t) where
  types _ _ h := h
  grown i blk h := by
    by_cases hi : b.current.index = i
    · exact ⟨{ blk with terminator := t },
        by simp [close, Array.getElem?_modify, hi, h], rfl, fun _ _ h => h⟩
    · exact ⟨blk, by simp [close, Array.getElem?_modify, hi, h], rfl, fun _ _ h => h⟩
  closed i h := by
    have hi : b.current.index ≠ i := by rintro rfl; exact ho.not_closed h
    refine ⟨?_, by simp [close, Array.getElem?_modify, hi]⟩
    unfold IsClosed close
    rw [Array.getElem?_setIfInBounds_ne hi]
    exact h
  before := hw
  after := ⟨by simp [close, hw.flags], by simpa [close] using hw.current⟩
  aside i hi h := by
    refine ⟨?_, by simp [close, Array.getElem?_modify, Ne.symm hi]⟩
    unfold IsOpen close
    rw [Array.getElem?_setIfInBounds_ne (Ne.symm hi)]
    exact h
  fresh i hi h := by
    obtain ⟨hlt, -⟩ := Array.getElem?_eq_some_iff.1 h
    have hf := hw.flags
    simp only [close, Array.size_setIfInBounds] at hlt
    omega
  pending _ h := by cases h
  distinct := .nil
  moved := .inl rfl
  left _ := rfl

theorem close_emits (hw : b.WellFormed) (ho : b.IsOpen b.current.index) {t : Terminator}
    (ht : t ≠ .unreachable) : b.Emits [] (b.close t) where
  toGrows := close_grows hw ho t
  ended i blk hc hn hb := by
    obtain rfl := ((close_isClosed_iff hw t).1 hc).resolve_right hn
    simp only [close, Array.getElem?_modify, ↓reduceIte, Option.map_eq_some_iff] at hb
    obtain ⟨_, -, rfl⟩ := hb
    exact ht

/-! ## Pending blocks -/

variable {P : List BlockId}

theorem addBlock_open (hw : b.WellFormed) (cold : Bool) :
    (b.addBlock cold).IsOpen b.func.blocks.size := by
  simp [IsOpen, addBlock, ← hw.flags]

theorem addBlock_isOpen_of_ne (cold : Bool) (hw : b.WellFormed) (hi : i ≠ b.func.blocks.size) :
    (b.addBlock cold).IsOpen i ↔ b.IsOpen i := by
  rw [← hw.flags] at hi
  simp [IsOpen, addBlock, Array.getElem?_push, hi]

theorem addBlock_isClosed (cold : Bool) : (b.addBlock cold).IsClosed i ↔ b.IsClosed i := by
  unfold IsClosed addBlock
  rw [Array.getElem?_push]
  split <;> simp_all

theorem addBlock_getElem? (cold : Bool) (h : i < b.func.blocks.size) :
    (b.addBlock cold).func.blocks[i]? = b.func.blocks[i]? := by
  simp only [addBlock]
  rw [Array.getElem?_push_lt h, Array.getElem?_eq_getElem h]

theorem addBlock_extends (hw : b.WellFormed) (cold : Bool) : b.Extends (b.addBlock cold) where
  types _ _ h := h
  grown i blk h := by
    obtain ⟨hlt, -⟩ := Array.getElem?_eq_some_iff.1 h
    exact ⟨blk, by rw [addBlock_getElem? cold hlt, h], rfl, fun _ _ h => h⟩
  closed i h := by
    obtain ⟨hlt, -⟩ := Array.getElem?_eq_some_iff.1 h
    rw [hw.flags] at hlt
    exact ⟨(addBlock_isClosed cold).2 h, addBlock_getElem? cold hlt⟩

/-- A new block is pending. -/
theorem Emits.addBlock (h : b.Emits P b') (cold : Bool) :
    b.Emits (P ++ [⟨b'.func.blocks.size⟩]) (b'.addBlock cold) where
  toExtends := h.toExtends.trans (addBlock_extends h.after cold)
  before := h.before
  after := by
    have hf := h.after.flags
    have hc := h.after.current
    exact ⟨by simp [Builder.addBlock, hf], by simp [Builder.addBlock]; omega⟩
  aside i hi ho := by
    obtain ⟨ho', he'⟩ := h.aside i hi ho
    have hlt := ho'.lt h.after
    exact ⟨(addBlock_isOpen_of_ne cold h.after (by omega)).2 ho', by
      rw [addBlock_getElem? cold hlt, he']⟩
  fresh i hi ho := by
    by_cases he : i = b'.func.blocks.size
    · subst he; simp
    · rcases h.fresh i hi ((addBlock_isOpen_of_ne cold h.after he).1 ho) with h' | h'
      · exact .inl h'
      · exact .inr (List.mem_append_left _ h')
  pending p hp := by
    rcases List.mem_append.1 hp with hp | hp
    · obtain ⟨hs, ho, hne⟩ := h.pending p hp
      have hlt := ho.lt h.after
      exact ⟨hs, (addBlock_isOpen_of_ne cold h.after (by omega)).2 ho, hne⟩
    · obtain rfl := List.mem_singleton.1 hp
      refine ⟨h.toExtends.size_le, addBlock_open h.after cold, fun he => ?_⟩
      have hc := h.after.current
      simp only [Builder.addBlock] at he
      rw [← he] at hc
      exact absurd hc (Nat.lt_irrefl _)
  distinct := by
    refine List.nodup_append.2 ⟨h.distinct, List.pairwise_singleton _ _, fun p hp q hq => ?_⟩
    obtain rfl := List.mem_singleton.1 hq
    have hlt := (h.pending p hp).2.1.lt h.after
    rintro rfl
    exact absurd hlt (Nat.lt_irrefl _)
  moved := h.moved
  left ho := by
    have hlt := Nat.lt_of_lt_of_le h.before.current h.toExtends.size_le
    exact h.left ((addBlock_isOpen_of_ne cold h.after (by omega)).1 ho)
  ended i blk hc hn hb := by
    have hc' := (addBlock_isClosed cold).1 hc
    obtain ⟨hlt, -⟩ := Array.getElem?_eq_some_iff.1 hc'
    rw [h.after.flags] at hlt
    rw [addBlock_getElem? cold hlt] at hb
    exact h.ended i blk hc' hn hb

/-- What follows goes to a pending block once the current one has its terminator. -/
theorem Emits.goTo (h : b.Emits P b') (hc : b'.IsClosed b'.current.index) {p : BlockId} (hp : p ∈ P)
    :
    b.Emits (P.erase p) (b'.goTo p) where
  types := h.types
  grown := h.grown
  closed := h.closed
  before := h.before
  after := ⟨h.after.flags, (h.pending p hp).2.1.lt (b := b') h.after⟩
  aside := h.aside
  fresh i hi ho := by
    rcases h.fresh i hi ho with rfl | h'
    · exact absurd hc ho.not_closed
    · by_cases he : (⟨i⟩ : BlockId) = p
      · subst he; exact .inl rfl
      · exact .inr ((List.mem_erase_of_ne he).2 h')
  pending q hq := by
    obtain ⟨hs, ho, -⟩ := h.pending q (List.mem_of_mem_erase hq)
    exact ⟨hs, ho, fun he => ((h.distinct.mem_erase_iff).1 hq).1 he⟩
  distinct := h.distinct.erase p
  moved := .inr (h.pending p hp).1
  left ho := by
    exact absurd (h.left ho ▸ hc) ho.not_closed
  ended := h.ended

/-- A pending block may get parameters: nothing leads to it yet. -/
theorem Emits.addParam (h : b.Emits P b') {p : BlockId} (hp : p ∈ P) (r : Reg) :
    b.Emits P (b'.addParam p r) where
  types := h.types
  grown i blk hb := by
    obtain ⟨blk', hb', hpar, hins⟩ := h.grown i blk hb
    have hlt : i < b.func.blocks.size := (Array.getElem?_eq_some_iff.1 hb).1
    have hne : p.index ≠ i := by have := (h.pending p hp).1; omega
    exact ⟨blk', by simp [Builder.addParam, Array.getElem?_modify, hne, hb'], hpar, hins⟩
  closed i hc := by
    obtain ⟨hc', he'⟩ := h.closed i hc
    have hne : p.index ≠ i := by
      rintro rfl
      exact (h.pending p hp).2.1.not_closed hc'
    exact ⟨hc', by simp [Builder.addParam, Array.getElem?_modify, hne, he']⟩
  before := h.before
  after :=
    ⟨by
      simpa [Builder.addParam] using h.after.flags, by
        simpa [Builder.addParam] using h.after.current⟩
  aside i hi ho := by
    obtain ⟨ho', he'⟩ := h.aside i hi ho
    have hlt := ho.lt h.before
    have hne : p.index ≠ i := by have := (h.pending p hp).1; omega
    exact ⟨ho', by simp [Builder.addParam, Array.getElem?_modify, hne, he']⟩
  fresh := h.fresh
  pending := h.pending
  distinct := h.distinct
  moved := h.moved
  left := h.left
  ended i blk hc hn hb := by
    have hne : p.index ≠ i := by
      rintro rfl
      exact (h.pending p hp).2.1.not_closed hc
    simp only [Builder.addParam, Array.getElem?_modify, hne, ↓reduceIte] at hb
    exact h.ended i blk hc hn hb

/-- A block made on the side: it gets its terminator at once, and the current block is taken up
again. -/
def addClosed (b : Builder) (t : Terminator) : Builder :=
  (((b.addBlock false).goTo ⟨b.func.blocks.size⟩).close t).goTo b.current

theorem addClosed_getElem? (t : Terminator) (h : i < b.func.blocks.size) :
    (b.addClosed t).func.blocks[i]? = b.func.blocks[i]? := by
  have hne : b.func.blocks.size ≠ i := by omega
  simp only [addClosed, goTo, close, Array.getElem?_modify, hne, ↓reduceIte]
  exact addBlock_getElem? false h

theorem addClosed_terminated (hw : b.WellFormed) (t : Terminator) (h : i ≠ b.func.blocks.size) :
    (b.addClosed t).terminated[i]? = b.terminated[i]? := by
  simp only [addClosed, goTo, close]
  rw [Array.getElem?_setIfInBounds_ne (Ne.symm h)]
  simp only [addBlock]
  rw [Array.getElem?_push, if_neg (by rw [hw.flags]; exact h)]

theorem addClosed_emits (hw : b.WellFormed) {t : Terminator} (ht : t ≠ .unreachable) :
    b.Emits [] (b.addClosed t) where
  types _ _ h := h
  grown i blk h := by
    obtain ⟨hlt, -⟩ := Array.getElem?_eq_some_iff.1 h
    exact ⟨blk, by rw [addClosed_getElem? t hlt, h], rfl, fun _ _ h => h⟩
  closed i h := by
    obtain ⟨hlt, -⟩ := Array.getElem?_eq_some_iff.1 h
    rw [hw.flags] at hlt
    exact ⟨by
      unfold IsClosed; rw [addClosed_terminated hw t (by omega)]; exact h, addClosed_getElem? t hlt⟩
  before := hw
  after := by
    refine ⟨by simp [addClosed, goTo, close, addBlock, hw.flags], ?_⟩
    have := hw.current
    simp only [addClosed, goTo, close, addBlock, Array.size_modify, Array.size_push]
    omega
  aside i _ ho := by
    have hlt := ho.lt hw
    exact ⟨by
      unfold IsOpen; rw [addClosed_terminated hw t (by omega)]; exact ho, addClosed_getElem? t hlt⟩
  fresh i hi ho := by
    have hne : i ≠ b.func.blocks.size := by
      rintro rfl
      simp [IsOpen, addClosed, goTo, close, addBlock, ← hw.flags] at ho
    unfold IsOpen at ho
    rw [addClosed_terminated hw t hne] at ho
    have := IsOpen.lt hw ho
    omega
  pending _ h := by cases h
  distinct := .nil
  moved := .inl rfl
  left _ := rfl
  ended i blk hc hn hb := by
    have hi : i = b.func.blocks.size := by
      refine Classical.byContradiction fun hne => hn ?_
      unfold IsClosed at hc ⊢
      rwa [addClosed_terminated hw t hne] at hc
    subst hi
    simp only [addClosed, goTo, close, addBlock, Array.getElem?_modify, ↓reduceIte,
      Option.map_eq_some_iff] at hb
    obtain ⟨_, -, rfl⟩ := hb
    exact ht

/-! ## Laws -/

/-- A relation between the builders before and after steps that holds of nothing at all, and of one
step after the other. -/
structure Law where
  rel : Builder → Builder → Prop
  refl : ∀ b, rel b b
  trans : ∀ {b b₁ b₂}, rel b b₁ → rel b₁ b₂ → rel b b₂

/-- A well-formed builder grows without anything left pending. -/
def settling : Law where
  rel b b' := b.WellFormed → b.Emits [] b'
  refl _ hw := .refl hw
  trans h₁ h₂ hw := (h₁ hw).trans (h₂ (h₁ hw).after)

end Builder

/-- The block goes on at one or two other blocks, or ends the run. -/
def Terminator.isSimple : Terminator → Bool
  | .switch _ _ _ | .unreachable => false
  | _ => true

/-! ## Building steps -/

namespace Emit

variable {α β : Type} {b b' : Builder} {u : Unit}

theorem bind_ok {x : Emit α} {f : α → Emit β} {r : β × Builder} (h : (x >>= f) b = .ok r) :
    ∃ a b₁, x b = .ok (a, b₁) ∧ f a b₁ = .ok r := by
  change (x b >>= fun p => f p.1 p.2) = .ok r at h
  cases hx : x b with
  | error e => rw [hx] at h; cases h
  | ok p => rw [hx] at h; exact ⟨p.1, p.2, rfl, h⟩

theorem pure_ok {a a' : α} (h : (pure a : Emit α) b = .ok (a', b')) : a' = a ∧ b' = b := by
  cases h
  exact ⟨rfl, rfl⟩

theorem lift_bind_ok {x : Except Fault α} {f : α → Emit β} {r : β × Builder}
    (h : ((liftM x : Emit α) >>= f) b = .ok r) : ∃ a, x = .ok a ∧ f a b = .ok r := by
  cases x with
  | error e => cases h
  | ok a => exact ⟨a, rfl, h⟩

theorem createBlock_ok {cold : Bool} {id : BlockId} (h : createBlock cold b = .ok (id, b')) :
    id = ⟨b.func.blocks.size⟩ ∧ b' = b.addBlock cold := by
  cases h
  exact ⟨rfl, rfl⟩

theorem switchTo_ok {block : BlockId} (h : switchTo block b = .ok (u, b')) : b' = b.goTo block := by
  cases h
  rfl

theorem newReg_ok {ty : Ty} {r : Reg} (h : newReg ty b = .ok (r, b')) :
    r = ⟨b.func.types.size⟩ ∧ b' = b.addReg ty := by
  cases h
  exact ⟨rfl, rfl⟩

theorem modifyBlock_ok {block : BlockId} {f : Block → Block}
    (h : modifyBlock block f b = .ok (u, b')) :
    block.index < b.func.blocks.size ∧
      b' = { b with func.blocks := b.func.blocks.modify block.index f } := by
  change (if block.index < b.func.blocks.size then (set _ : Emit Unit) else throw .outOfRange) b = _
    at h
  split at h
  · cases h
    exact ⟨‹_›, rfl⟩
  · cases h

theorem isTerminated_ok {t : Bool} (h : isTerminated b = .ok (t, b')) :
    b' = b ∧ b.terminated[b.current.index]? = some t := by
  change (liftM (Fault.ofOption b.terminated[b.current.index]?) : Emit Bool) b = _ at h
  cases hb : b.terminated[b.current.index]? with
  | none => rw [hb] at h; cases h
  | some t' => rw [hb] at h; cases h; exact ⟨rfl, rfl⟩

theorem typeOf_ok {r : Reg} {ty : Ty} (h : typeOf r b = .ok (ty, b')) :
    b' = b ∧ b.func.types[r.index]? = some ty := by
  change (liftM (Fault.ofOption b.func.types[r.index]?) : Emit Ty) b = _ at h
  cases hb : b.func.types[r.index]? with
  | none => rw [hb] at h; cases h
  | some t' => rw [hb] at h; cases h; exact ⟨rfl, rfl⟩

theorem typeOf_bind_ok {r : Reg} {ty : Ty} {f : Ty → Emit β} {x : β × Builder}
    (hty : b.func.types[r.index]? = some ty) (h : (typeOf r >>= f) b = .ok x) : f ty b = .ok x := by
  obtain ⟨ty', b₁, h₁, h₂⟩ := bind_ok h
  obtain ⟨hb, hty'⟩ := typeOf_ok h₁
  rw [hty] at hty'
  cases hty'
  rwa [hb] at h₂

theorem blockParam_ok {block : BlockId} {ty : Ty} {r : Reg}
    (h : blockParam block ty b = .ok (r, b')) :
    r = ⟨b.func.types.size⟩ ∧ b' = (b.addReg ty).addParam block r := by
  obtain ⟨r₁, b₁, h₁, h⟩ := bind_ok h
  obtain ⟨rfl, rfl⟩ := newReg_ok h₁
  obtain ⟨_, b₂, h₂, h⟩ := bind_ok h
  obtain ⟨-, rfl⟩ := modifyBlock_ok h₂
  obtain ⟨rfl, rfl⟩ := pure_ok h
  exact ⟨rfl, rfl⟩

/-- The current block if it is open, a new one otherwise. -/
theorem ensureOpen_ok (h : ensureOpen b = .ok (u, b')) :
    (b.IsOpen b.current.index ∧ b' = b) ∨
      (b.IsClosed b.current.index ∧ b' = (b.addBlock false).goTo ⟨b.func.blocks.size⟩) := by
  obtain ⟨t, b₁, h₁, h⟩ := bind_ok h
  obtain ⟨rfl, ht⟩ := isTerminated_ok h₁
  cases t with
  | false => cases h; exact .inl ⟨ht, rfl⟩
  | true => cases h; exact .inr ⟨ht, rfl⟩

theorem ensureOpen_of_open (h : ensureOpen b = .ok (u, b')) (ho : b.IsOpen b.current.index) :
    b' = b := by
  rcases ensureOpen_ok h with ⟨-, rfl⟩ | ⟨hc, -⟩
  · rfl
  · exact absurd hc ho.not_closed

theorem define_ok {ty : Ty} {inst : Inst} {r : Reg} (h : define ty inst b = .ok (r, b')) :
    ∃ b₁, ensureOpen b = .ok ((), b₁) ∧ r = ⟨b₁.func.types.size⟩ ∧
      b' = (b₁.addReg ty).addInst ⟨inst, some r⟩ := by
  obtain ⟨_, b₁, h₁, h⟩ := bind_ok h
  obtain ⟨r₁, b₂, h₂, h⟩ := bind_ok h
  obtain ⟨rfl, rfl⟩ := newReg_ok h₂
  obtain ⟨_, b₃, h₃, h⟩ := bind_ok h
  obtain ⟨-, rfl⟩ := modifyBlock_ok h₃
  obtain ⟨rfl, rfl⟩ := pure_ok h
  exact ⟨b₁, h₁, rfl, rfl⟩

theorem push_ok {inst : Inst} {r : Option Reg} (h : push inst r b = .ok (u, b')) :
    b' = b.addInst ⟨inst, r⟩ :=
  (modifyBlock_ok h).2

theorem terminate_ok {t : Terminator} (h : terminate t b = .ok (u, b')) :
    ∃ b₁, ensureOpen b = .ok ((), b₁) ∧ b' = b₁.close t := by
  obtain ⟨_, b₁, h₁, h⟩ := bind_ok h
  obtain ⟨_, _, hget, h⟩ := bind_ok h
  cases hget
  obtain ⟨_, b₂, h₂, h⟩ := bind_ok h
  obtain ⟨-, rfl⟩ := modifyBlock_ok h₂
  cases h
  exact ⟨b₁, h₁, rfl⟩

theorem ensureOpen_emits (hw : b.WellFormed) (h : ensureOpen b = .ok (u, b')) :
    b.Emits [] b' ∧ b'.IsOpen b'.current.index := by
  rcases ensureOpen_ok h with ⟨ho, rfl⟩ | ⟨hc, rfl⟩
  · exact ⟨.refl hw, ho⟩
  · have hadd := (Builder.Emits.refl hw).addBlock false
    have hgo := hadd.goTo (p := ⟨b.func.blocks.size⟩) ((Builder.addBlock_isClosed false).2 hc)
      (by simp)
    exact ⟨by simpa using hgo, Builder.addBlock_open hw false⟩

/-- Ending a block closes it. -/
theorem terminate_closed {t : Terminator} (hw : b.WellFormed) (h : terminate t b = .ok (u, b')) :
    b'.IsClosed b'.current.index := by
  obtain ⟨b₁, h₁, rfl⟩ := terminate_ok h
  exact Builder.close_isClosed (ensureOpen_emits hw h₁).1.after t

/-- A terminator put into a new block. -/
theorem terminate_addBlock {t : Terminator} (hw : b.WellFormed)
    (h : terminate t ((b.addBlock false).goTo ⟨b.func.blocks.size⟩) = .ok (u, b')) :
    b'.goTo b.current = b.addClosed t := by
  obtain ⟨b₁, h₁, rfl⟩ := terminate_ok h
  have ho := Builder.addBlock_open hw false
  rcases ensureOpen_ok h₁ with ⟨-, rfl⟩ | ⟨hc, -⟩
  · rfl
  · exact absurd hc ho.not_closed

/-! ## What holds of all steps -/

variable {R : Builder.Law}

/-- The law holds between the builders before and after the step. -/
class Obeys (R : Builder.Law) (x : Emit α) : Prop where
  obeys : ∀ b a b', x b = .ok (a, b') → R.rel b b'

/-- The law holds of instructions that only compute. -/
class Computing (R : Builder.Law) : Prop where
  compute : ∀ {ty inst r b b'}, inst.isPlain = true → define ty inst b = .ok (r, b') → R.rel b b'

/-- The law holds of all instructions, and of the ends of blocks that are no switch. -/
class Building (R : Builder.Law) : Prop where
  define : ∀ {ty inst r b b'}, define ty inst b = .ok (r, b') → R.rel b b'
  store : ∀ {width value addr offset u b b'}, store width value addr offset b = .ok (u, b') →
    R.rel b b'
  terminate : ∀ {t u b b'}, t.isSimple = true → terminate t b = .ok (u, b') → R.rel b b'

/-- The law holds of new blocks and parameters, and of going on in another block, too. -/
class Rebuilding (R : Builder.Law) : Prop extends Building R where
  createBlock : ∀ {cold id b b'}, createBlock cold b = .ok (id, b') → R.rel b b'
  switchTo : ∀ {p u b b'}, switchTo p b = .ok (u, b') → R.rel b b'
  blockParam : ∀ {p ty r b b'}, blockParam p ty b = .ok (r, b') → R.rel b b'

instance [hR : Building R] : Computing R where
  compute _ := hR.define

instance (a : α) : Obeys R (pure a : Emit α) where
  obeys b a' b' h := by
    obtain ⟨-, rfl⟩ := pure_ok h
    exact R.refl b'

theorem Obeys.bind {x : Emit α} {f : α → Emit β} (hx : Obeys R x) (hf : ∀ a, Obeys R (f a)) :
    Obeys R (x >>= f) where
  obeys b c b' h := by
    obtain ⟨a, b₁, h₁, h₂⟩ := bind_ok h
    exact R.trans (hx.obeys b a b₁ h₁) ((hf a).obeys b₁ c b' h₂)

instance (x : Emit α) (f : α → Emit β) [hx : Obeys R x] [hf : ∀ a, Obeys R (f a)] :
    Obeys R (x >>= f) := hx.bind hf

instance (c : Prop) [Decidable c] (x y : Emit α) [hx : Obeys R x] [hy : Obeys R y] :
    Obeys R (if c then x else y) := by
  split
  · exact hx
  · exact hy

instance (f : β → α → Emit β) (init : β) (l : List α) [∀ b a, Obeys R (f b a)] :
    Obeys R (l.foldlM f init) := by
  induction l generalizing init with
  | nil => exact inferInstanceAs (Obeys R (pure _))
  | cons a l ih => rw [List.foldlM_cons]; infer_instance

instance (r : Reg) : Obeys R (typeOf r) where
  obeys b ty b' h := by
    obtain ⟨rfl, -⟩ := typeOf_ok h
    exact R.refl b'

instance : Obeys R currentBlock where
  obeys b a b' h := by
    cases h
    exact R.refl b

instance : Obeys R isTerminated where
  obeys b a b' h := by
    obtain ⟨rfl, -⟩ := isTerminated_ok h
    exact R.refl b'

/-! Every instruction is one `define`, after looking at types. -/

section Computing

variable [hR : Computing R]

theorem obeys_define (ty : Ty) {inst : Inst} (h : inst.isPlain = true) :
    Obeys R (define ty inst) where
  obeys _ _ _ := hR.compute h

instance (ty : Ty) (imm : Int64) : Obeys R (iconst ty imm) := obeys_define _ rfl
instance (n : Int) : Obeys R (int32 n) := inferInstanceAs (Obeys R (iconst _ _))
instance (n : Int) : Obeys R (int64 n) := inferInstanceAs (Obeys R (iconst _ _))
instance (w : UInt64) : Obeys R (word w) := inferInstanceAs (Obeys R (iconst _ _))
instance (d : Double) : Obeys R (fconst d) := obeys_define _ rfl
instance : Obeys R context := obeys_define _ rfl
instance : Obeys R frame := obeys_define _ rfl
instance (op : FBinaryOp) (l r : Reg) : Obeys R (fbinary op l r) := obeys_define _ rfl
instance (op : FUnaryOp) (r : Reg) : Obeys R (funary op r) := obeys_define _ rfl
instance (cc : IntCC) (l r : Reg) : Obeys R (icmp cc l r) := obeys_define _ rfl
instance (cc : FloatCC) (l r : Reg) : Obeys R (fcmp cc l r) := obeys_define _ rfl
instance (r : Reg) : Obeys R (signExtend r) := obeys_define _ rfl
instance (r : Reg) : Obeys R (zeroExtend r) := obeys_define _ rfl
instance (r : Reg) : Obeys R (truncate r) := obeys_define _ rfl
instance (signed : Bool) (r : Reg) : Obeys R (intToDouble signed r) := obeys_define _ rfl
instance (ty : Ty) (r : Reg) : Obeys R (doubleToInt ty r) := obeys_define _ rfl
instance (r : Reg) : Obeys R (bitcastToInt r) := obeys_define _ rfl
instance (r : Reg) : Obeys R (bitcastToDouble r) := obeys_define _ rfl

instance (ty : Ty) (width : MemWidth) (signed : Bool) (addr : Reg) (offset : Int) :
    Obeys R (load ty width signed addr offset) := obeys_define _ rfl

instance (addr : Reg) (offset : Int) : Obeys R (load64 addr offset) :=
  inferInstanceAs (Obeys R (load _ _ _ _ _))

instance (addr : Reg) (offset : Int) : Obeys R (load32 addr offset) :=
  inferInstanceAs (Obeys R (load _ _ _ _ _))

instance (addr : Reg) (offset : Int) : Obeys R (load8 addr offset) :=
  inferInstanceAs (Obeys R (load _ _ _ _ _))

instance (op : BinaryOp) (l r : Reg) : Obeys R (binary op l r) :=
  .bind inferInstance fun _ => obeys_define _ rfl

instance (op : BinaryOp) (l : Reg) (n : Int) : Obeys R (binaryImm op l n) :=
  inferInstanceAs (Obeys R (_ >>= _))

instance (op : OverflowOp) (l r : Reg) : Obeys R (overflows op l r) :=
  .bind inferInstance fun _ => obeys_define _ rfl

instance (op : UnaryOp) (r : Reg) : Obeys R (unary op r) :=
  .bind inferInstance fun _ => obeys_define _ rfl

instance (cc : IntCC) (l : Reg) (n : Int) : Obeys R (icmpImm cc l n) :=
  inferInstanceAs (Obeys R (_ >>= _))

instance (c t f : Reg) : Obeys R (select c t f) :=
  .bind inferInstance fun _ => obeys_define _ rfl

end Computing

section Building

variable [hR : Building R]

instance (ty : Ty) (inst : Inst) : Obeys R (define ty inst) := ⟨fun _ _ _ => hR.define⟩

instance (h : Helper) (args : List Reg) : Obeys R (call h args) :=
  inferInstanceAs (Obeys R (define _ _))

instance (s : SiteId) (args : List Reg) : Obeys R (patchpoint s args) :=
  inferInstanceAs (Obeys R (define _ _))

instance (width : MemWidth) (value addr : Reg) (offset : Int) :
    Obeys R (store width value addr offset) := ⟨fun _ _ _ => hR.store⟩

instance (value addr : Reg) (offset : Int) : Obeys R (store64 value addr offset) :=
  inferInstanceAs (Obeys R (store _ _ _ _))

theorem obeys_terminate {t : Terminator} (ht : t.isSimple = true) : Obeys R (terminate t) where
  obeys _ _ _ := hR.terminate ht

instance (target : BlockId) (args : List Reg) : Obeys R (jump target args) := obeys_terminate rfl

instance (cond : Reg) (taken notTaken : BlockId) (weight : BranchWeight) :
    Obeys R (branch cond taken notTaken weight) := obeys_terminate rfl

instance (value : Reg) : Obeys R (ret value) := obeys_terminate rfl

instance (id : ExitId) (values : List Reg) : Obeys R (exit id values) := obeys_terminate rfl

end Building

section Rebuilding

variable [hR : Rebuilding R]

instance (cold : Bool) : Obeys R (createBlock cold) := ⟨fun _ _ _ => hR.createBlock⟩

instance (p : BlockId) : Obeys R (switchTo p) := ⟨fun _ _ _ => hR.switchTo⟩

instance (p : BlockId) (ty : Ty) : Obeys R (blockParam p ty) := ⟨fun _ _ _ => hR.blockParam⟩

end Rebuilding

/-! ## Steps that leave nothing pending -/

/-- A building step that leaves nothing pending. -/
abbrev Tidy (x : Emit α) : Prop := Obeys Builder.settling x

theorem Tidy.emits {x : Emit α} (hx : Tidy x) (b : Builder) (a : α) (b' : Builder)
    (hw : b.WellFormed) (h : x b = .ok (a, b')) : b.Emits [] b' := hx.obeys b a b' h hw

theorem tidy_terminate {t : Terminator} (ht : t ≠ .unreachable) : Tidy (terminate t) where
  obeys b _ b' h hw := by
    obtain ⟨b₁, h₁, rfl⟩ := terminate_ok h
    obtain ⟨e₁, ho⟩ := ensureOpen_emits hw h₁
    exact e₁.trans (Builder.close_emits e₁.after ho ht)

instance : Building Builder.settling where
  define {ty _ _ _ _} h hw := by
    obtain ⟨b₁, h₁, rfl, rfl⟩ := define_ok h
    obtain ⟨e₁, ho⟩ := ensureOpen_emits hw h₁
    have e₂ := Builder.addReg_emits e₁.after ty
    exact e₁.trans (e₂.trans (Builder.addInst_emits e₂.after ho _))
  store h hw := by
    obtain ⟨_, b₁, h₁, h₂⟩ := bind_ok h
    obtain ⟨e₁, ho⟩ := ensureOpen_emits hw h₁
    rw [push_ok h₂]
    exact e₁.trans (Builder.addInst_emits e₁.after ho _)
  terminate ht h := (tidy_terminate fun hu => by rw [hu] at ht; cases ht).obeys _ _ _ h

instance (value : Reg) (cases : List (Int32 × BlockId)) (fallback : BlockId) :
    Tidy (switch value cases fallback) := tidy_terminate nofun

end Emit

end SpecJit.Lir
