import SpecJit.Proofs.Lir.Growth
import SpecJit.Proofs.Lir.Run

/-!
# Running the code that a builder adds

While code is built, control can be thought of as standing at the open end of the builder
(`Machine.At b c`). `Machine.Runs b c b' Q`: the code between the ends of `b` and `b'` leads from
`c` to a configuration at the end of `b'` that satisfies `Q`; registers of `b` and memory are as
before. `Machine.Leaves b c`: it leads to an exit instead, so that the end of `b` is not reached
(`Leaves.not_at`). Both hold in every function that the builder grows into.

Only blocks with a terminator are gone through on the way, apart from the one that control ends in;
this is what `Goes` keeps track of.
-/

namespace SpecJit.Lir

variable {σ : Type} {m : Machine σ} {b b' b'' : Builder} {c c' c'' : Config σ}

/-! ## Where control is -/

/-- Register `r` of the builder has type `ty` and holds `w`. -/
structure Config.Has (c : Config σ) (b : Builder) (r : Reg) (ty : Ty) (w : Word) : Prop where
  type : b.func.types[r.index]? = some ty
  value : c.registers[r.index]? = some (some w)

/-- `c'` has the registers of `b` and the memory of `c`. -/
structure Config.Keeps (c : Config σ) (b : Builder) (c' : Config σ) : Prop where
  registers : ∀ i < b.func.types.size, c'.registers[i]? = c.registers[i]?
  memory : c'.memory = c.memory

/-- Control stands at the open end of the builder. -/
structure Machine.At (m : Machine σ) (b : Builder) (c : Config σ) : Prop where
  wf : b.WellFormed
  isOpen : b.IsOpen b.current.index
  block : c.block = b.current
  position : ∀ blk, b.func.blocks[b.current.index]? = some blk → c.position = blk.insts.size
  registers : c.registers.size = m.func.types.size

/-- Whether control stands at the end of a builder can be computed. -/
instance (m : Machine σ) (b : Builder) (c : Config σ) : Decidable (m.At b c) :=
  decidable_of_iff
    ((b.terminated.size = b.func.blocks.size ∧ b.current.index < b.func.blocks.size) ∧
      b.IsOpen b.current.index ∧
      c.block = b.current ∧ (∀ blk ∈ b.func.blocks[b.current.index]?, c.position = blk.insts.size) ∧
      c.registers.size = m.func.types.size)
    ⟨fun ⟨hw, ho, hb, hp, hr⟩ => ⟨⟨hw.1, hw.2⟩, ho, hb, hp, hr⟩,
      fun h => ⟨⟨h.wf.flags, h.wf.current⟩, h.isOpen, h.block, h.position, h.registers⟩⟩

/-- Steps through configurations that satisfy `P`, the last one apart. -/
inductive Machine.Goes (m : Machine σ) (P : Config σ → Prop) : Config σ → Config σ → Prop
  | refl (c : Config σ) : Goes m P c c
  | next {c c' c'' : Config σ} : P c → m.step c = .ok (.running c') → Goes m P c' c'' →
    Goes m P c c''

/-- The block has its terminator. -/
def Config.Passed (b : Builder) (c : Config σ) : Prop := b.IsClosed c.block.index

/-- The block has its terminator, or is the current one. -/
def Config.Inside (b : Builder) (c : Config σ) : Prop := c.block = b.current ∨ c.Passed b

/-- The code between two builders leads to the end of the second one. -/
def Machine.Runs (m : Machine σ) (b : Builder) (c : Config σ) (b' : Builder) (Q : Config σ → Prop) :
    Prop :=
  ∃ c', m.Goes (Config.Inside b') c c' ∧ m.At b' c' ∧ c.Keeps b c' ∧ Q c'

/-- The code leads to an exit before the end of the builder. -/
def Machine.Leaves (m : Machine σ) (b : Builder) (c : Config σ) : Prop :=
  ∃ c' exit values, m.Goes (Config.Passed b) c c' ∧ c'.Passed b ∧
    m.step c' = m.stepTerminator c' (.exit exit values)

/-- The code leads to a configuration that satisfies `P`, before the end of the builder. -/
def Machine.Reaches (m : Machine σ) (b : Builder) (c : Config σ) (P : Config σ → Prop) : Prop :=
  ∃ c', m.Goes (Config.Passed b) c c' ∧ c'.Passed b ∧ P c'

/-- Control stands at the end of a block that exits there. -/
def Machine.ExitsBy (m : Machine σ) (exit : ExitId) (c : Config σ) : Prop :=
  ∃ blk regs, m.AtEnd c.block blk c ∧ blk.terminator = .exit exit regs

/-- The code leads to that exit before the end of the builder. -/
def Machine.LeavesAt (m : Machine σ) (exit : ExitId) (b : Builder) (c : Config σ) : Prop :=
  m.Reaches b c (m.ExitsBy exit)

/-! ## Registers -/

theorem Config.Has.lt {r : Reg} {ty : Ty} {w : Word} (h : c.Has b r ty w) :
    r.index < b.func.types.size :=
  (Array.getElem?_eq_some_iff.1 h.type).1

theorem Config.Has.read {r : Reg} {ty : Ty} {w : Word} (h : c.Has b r ty w) : c.read r = .ok w := by
  simp [Config.read, h.value]

/-- What registers hold stays while code is added that keeps them. -/
theorem Config.Has.keep {r : Reg} {ty : Ty} {w : Word} (h : c.Has b r ty w) (e : b.Extends b')
    (hk : c.Keeps b c') : c'.Has b' r ty w where
  type := e.types _ _ h.type
  value := by rw [hk.registers _ h.lt, h.value]

theorem Config.Has.typeOf {r : Reg} {ty : Ty} {w : Word} (h : c.Has b r ty w)
    (hm : b.Completes m.func) :
    m.typeOf r = .ok ty := Machine.typeOf_eq_ok.2 (hm.types _ _ h.type)

theorem Config.Keeps.refl (b : Builder) (c : Config σ) : c.Keeps b c := ⟨fun _ _ => rfl, rfl⟩

theorem Config.Keeps.trans (h₁ : c.Keeps b c') (h₂ : c'.Keeps b' c'') (e : b.Extends b') :
    c.Keeps b c'' where
  registers i hi := (h₂.registers i (Nat.lt_of_lt_of_le hi e.types_size_le)).trans
    (h₁.registers i hi)
  memory := h₂.memory.trans h₁.memory

/-! ## Paths -/

theorem Machine.Goes.trans {P : Config σ → Prop} (h₁ : m.Goes P c c') (h₂ : m.Goes P c' c'') :
    m.Goes P c c'' := by
  induction h₁ with
  | refl => exact h₂
  | next hp hs _ ih => exact .next hp hs (ih h₂)

theorem Machine.Goes.mono {P P' : Config σ → Prop} (h : m.Goes P c c') (hP : ∀ c, P c → P' c) :
    m.Goes P' c c' := by
  induction h with
  | refl => exact .refl _
  | next hp hs _ ih => exact .next (hP _ hp) hs ih

theorem Machine.Goes.steps {P : Config σ → Prop} (h : m.Goes P c c') : ∃ n, m.Steps n c c' := by
  induction h with
  | refl => exact ⟨0, .refl _⟩
  | next _ hs _ ih =>
    obtain ⟨n, hn⟩ := ih
    exact ⟨n + 1, .next hs hn⟩

/-- The blocks gone through stay so when the builder grows. -/
theorem Config.Inside.grow (h : c.Inside b) (e : b.Grows [] b') : c.Inside b' := by
  rcases h with h | h
  · rcases e.after.open_or_closed (i := c.block.index)
      (by rw [h]; exact Nat.lt_of_lt_of_le e.before.current e.toExtends.size_le) with ho | hc
    · rw [h] at ho
      exact .inl (h.trans (e.left ho).symm)
    · exact .inr hc
  · exact .inr (e.closed _ h).1

theorem Config.Passed.grow (h : c.Passed b) (e : b.Extends b') : c.Passed b' := (e.closed _ h).1

/-- Control that is elsewhere has been at the end of a path through blocks that have their
terminators. -/
theorem Machine.Goes.rest {c₁ : Config σ} {n : Nat} (h : m.Goes (Config.Passed b) c c₁)
    (hs : m.Steps n c c') (hnot : ¬ c'.Passed b) : ∃ k, m.Steps k c₁ c' := by
  induction h generalizing n with
  | refl => exact ⟨n, hs⟩
  | next hp hstep _ ih =>
    cases hs with
    | refl => exact absurd hp hnot
    | next hstep' hs' =>
      rw [hstep] at hstep'
      cases hstep'
      exact ih hs'

/-- A run that leaves stays in blocks that have their terminators. -/
theorem Machine.Leaves.passed {n : Nat} (h : m.Leaves b c) (hs : m.Steps n c c') : c'.Passed b := by
  obtain ⟨cx, exit, values, hgoes, hpassed, hexit⟩ := h
  refine Classical.byContradiction fun hnot => ?_
  obtain ⟨k, hrest⟩ := hgoes.rest hs hnot
  cases hrest with
  | refl => exact hnot hpassed
  | next hstep _ =>
    rw [hexit, stepTerminator] at hstep
    cases hr : cx.readAll values <;> rw [hr] at hstep <;> cases hstep

/-- A run that leaves does not come to the end of the builder. -/
theorem Machine.Leaves.not_at {n : Nat} (h : m.Leaves b c) (hs : m.Steps n c c') : ¬ m.At b c' := by
  intro hat
  have hp := h.passed hs
  unfold Config.Passed at hp
  rw [hat.block] at hp
  exact hat.isOpen.not_closed hp

theorem Machine.leaves_iff :
    m.Leaves b c ↔ m.Reaches b c fun c' => ∃ exit values, m.step c' = m.stepTerminator c'
      (.exit exit values) := by
  simp only [Leaves, Reaches, exists_and_left]

theorem Machine.Reaches.grow {P : Config σ → Prop} (h : m.Reaches b c P) (e : b.Extends b') :
    m.Reaches b' c P := by
  obtain ⟨c', hgoes, hpassed, hp⟩ := h
  exact ⟨c', hgoes.mono fun _ hx => hx.grow e, hpassed.grow e, hp⟩

theorem Machine.Leaves.grow (h : m.Leaves b c) (e : b.Extends b') : m.Leaves b' c :=
  leaves_iff.2 ((leaves_iff.1 h).grow e)

theorem Machine.ExitsBy.step {exit : ExitId} (h : m.ExitsBy exit c) :
    ∃ regs, m.step c = m.stepTerminator c (.exit exit regs) := by
  obtain ⟨blk, regs, hend, ht⟩ := h
  exact ⟨regs, by rw [step_end hend.found hend.position, ht]⟩

theorem Machine.LeavesAt.leaves {exit : ExitId} (h : m.LeavesAt exit b c) : m.Leaves b c := by
  obtain ⟨c', hgoes, hpassed, hexit⟩ := h
  obtain ⟨regs, hstep⟩ := hexit.step
  exact ⟨c', exit, regs, hgoes, hpassed, hstep⟩

/-- A run stops at an exit. -/
theorem Machine.ExitsBy.not_running {exit : ExitId} (h : m.ExitsBy exit c) :
    m.step c ≠ .ok (.running c') := by
  obtain ⟨regs, hstep⟩ := h.step
  rw [hstep, stepTerminator]
  cases c.readAll regs <;> simp

/-- There is one exit that control can leave at. -/
theorem Machine.LeavesAt.unique {exit exit' : ExitId} (h : m.LeavesAt exit b c)
    (h' : m.LeavesAt exit' b' c) : exit = exit' := by
  obtain ⟨c₁, hgoes, -, hexit⟩ := h
  obtain ⟨c₂, hgoes', -, hexit'⟩ := h'
  induction hgoes with
  | refl c =>
    cases hgoes' with
    | refl =>
      obtain ⟨blk, regs, hend, ht⟩ := hexit
      obtain ⟨blk', regs', hend', ht'⟩ := hexit'
      obtain rfl : blk = blk' := Option.some.inj (hend.found.symm.trans hend'.found)
      cases ht.symm.trans ht'
      rfl
    | next _ hstep _ => exact absurd hstep hexit.not_running
  | next _ hstep _ ih =>
    cases hgoes' with
    | refl => exact absurd hstep hexit'.not_running
    | next _ hstep' hgoes' =>
      rw [hstep] at hstep'
      cases hstep'
      exact ih hexit hgoes'

/-! ## Sequencing -/

variable {Q Q' : Config σ → Prop}

theorem Machine.Runs.refl (hc : m.At b c) (hq : Q c) : m.Runs b c b Q :=
  ⟨c, .refl c, hc, .refl b c, hq⟩

theorem Machine.Runs.bind (h : m.Runs b c b' Q) (e₁ : b.Extends b') (e₂ : b'.Grows [] b'')
    (k : ∀ c', m.At b' c' → c.Keeps b c' → Q c' → m.Runs b' c' b'' Q') : m.Runs b c b'' Q' := by
  obtain ⟨c₁, hgoes, hat, hkeeps, hq⟩ := h
  obtain ⟨c₂, hgoes', hat', hkeeps', hq'⟩ := k c₁ hat hkeeps hq
  exact ⟨c₂, (hgoes.mono fun _ hp => hp.grow e₂).trans hgoes', hat', hkeeps.trans hkeeps' e₁, hq'⟩

/-- Code that is executed as a whole does not leave. -/
theorem Machine.Runs.not_leaves (h : m.Runs b c b' Q) : ¬ m.Leaves b' c := by
  obtain ⟨c', hgoes, hc', -⟩ := h
  obtain ⟨n, hsteps⟩ := hgoes.steps
  exact fun hleaves => hleaves.not_at hsteps hc'

theorem Machine.Runs.mono (h : m.Runs b c b' Q) (hq : ∀ c', c.Keeps b c' → Q c' → Q' c') :
    m.Runs b c b' Q' := by
  obtain ⟨c₁, hgoes, hat, hkeeps, h⟩ := h
  exact ⟨c₁, hgoes, hat, hkeeps, hq c₁ hkeeps h⟩

/-! ## Instructions -/

theorem normalize_ofBool (ty : Ty) (x : Bool) : ty.normalize (ofBool x) = ofBool x := by
  cases ty <;> cases x <;> rfl

/-- Where the instruction that was added last is in the finished function. -/
theorem Builder.Completes.addInst_found {d : InstData} (hm : (b.addInst d).Completes m.func)
    (hw : b.WellFormed) :
    ∃ blk blk', b.func.blocks[b.current.index]? = some blk ∧
      m.func.blocks[b.current.index]? = some blk' ∧
      blk'.insts[blk.insts.size]? = some d := by
  obtain ⟨blk, hblk⟩ : ∃ blk, b.func.blocks[b.current.index]? = some blk :=
    ⟨_, Array.getElem?_eq_getElem hw.current⟩
  have hadd : (b.addInst d).func.blocks[b.current.index]? = some { blk with
    insts := blk.insts.push d } := by
    simp [addInst, Array.getElem?_modify, hblk]
  obtain ⟨blk', hblk', -, hinsts⟩ := hm.grown _ _ hadd
  exact ⟨blk, blk', hblk, hblk', hinsts _ d (by simp)⟩

/-- An instruction that computes a value takes one step and defines its register. -/
theorem Machine.define_goes {ty : Ty} {inst : Inst} {r : Reg} {w : Word} {t : σ} {memory : Memory}
    (h : Emit.define ty inst b = .ok (r, b')) (hm : b'.Completes m.func) (hc : m.At b c)
    (hv : m.execute c inst = .ok (some w, { c with runtimeState := t, memory })) :
    ∃ c', m.step c = .ok (.running c') ∧ m.At b' c' ∧
      (∀ i < b.func.types.size, c'.registers[i]? = c.registers[i]?) ∧
      c'.memory = memory ∧ c'.runtimeState = t ∧ c'.Has b' r ty (ty.normalize w) := by
  obtain ⟨b₁, h₁, rfl, rfl⟩ := Emit.define_ok h
  obtain rfl := Emit.ensureOpen_of_open h₁ hc.isOpen
  have hw : (b₁.addReg ty).WellFormed := ⟨hc.wf.flags, hc.wf.current⟩
  obtain ⟨blk, blk', hblk, hblk', hinst⟩ := hm.addInst_found hw
  have hty : m.func.types[b₁.func.types.size]? = some ty :=
    hm.types _ _ (by simp [Builder.addInst, Builder.addReg])
  have hlt : b₁.func.types.size < c.registers.size := by
    rw [hc.registers]
    exact (Array.getElem?_eq_some_iff.1 hty).1
  have hpos := hc.position blk hblk
  -- the step
  have hstep : m.step c = .ok (.running { c with
      position := c.position + 1
      registers := c.registers.setIfInBounds b₁.func.types.size (some (ty.normalize w))
      runtimeState := t
      memory }) := by
    have hb : m.block c.block = .ok blk' := by rw [hc.block]; exact block_eq_ok.2 hblk'
    have hto : m.typeOf ⟨b₁.func.types.size⟩ = .ok ty := typeOf_eq_ok.2 hty
    simp only [step, hb, hpos, hinst, stepInst, hv, hto, Config.write, bind, Except.bind, pure,
      Except.pure, hlt, if_true]
  refine ⟨_, hstep, ?_, fun i hi => ?_, rfl, rfl, ?_⟩
  · refine ⟨(Builder.addInst_emits hw hc.isOpen _).after, hc.isOpen, hc.block, fun blk₂ hblk₂ => ?_,
      ?_⟩
    · simp only [Builder.addInst, Builder.addReg, Array.getElem?_modify, ↓reduceIte] at hblk₂
      rw [Array.getElem?_eq_getElem hc.wf.current] at hblk₂
      cases hblk₂
      have := hc.position _ (Array.getElem?_eq_getElem hc.wf.current)
      simp [this]
    · simpa using hc.registers
  · simp only []
    rw [Array.getElem?_setIfInBounds_ne (by omega)]
  · refine ⟨by simp [Builder.addInst, Builder.addReg], ?_⟩
    simp only []
    rw [Array.getElem?_setIfInBounds_self, if_pos hlt]

/-- An instruction that computes a value and leaves memory as it is takes one step and defines its
register. -/
theorem Machine.define_runs {ty : Ty} {inst : Inst} {r : Reg} {w : Word} {t : σ}
    (h : Emit.define ty inst b = .ok (r, b')) (hm : b'.Completes m.func) (hc : m.At b c)
    (hv : m.execute c inst = .ok (some w, { c with runtimeState := t })) :
    m.Runs b c b' fun c' => c'.Has b' r ty (ty.normalize w) := by
  obtain ⟨c', hstep, hc', hregs, hmem, -, hr⟩ := define_goes h hm hc hv
  obtain ⟨b₁, h₁, rfl, rfl⟩ := Emit.define_ok h
  obtain rfl := Emit.ensureOpen_of_open h₁ hc.isOpen
  exact ⟨c', .next (.inl hc.block) hstep (.refl _), hc', ⟨hregs, hmem⟩, hr⟩

/-- Building steps one after the other. -/
theorem Machine.Runs.andThen {α β : Type} {x : Emit α} {f : α → Emit β} [hx : x.Tidy]
    [hf : ∀ a, (f a).Tidy]
    {r : β} {R : α → Builder → Config σ → Prop} (h : (x >>= f) b = .ok (r, b'))
    (hm : b'.Completes m.func)
    (hc : m.At b c) (first : ∀ {a b₁}, x b = .ok (a, b₁) → b₁.Completes m.func →
      m.Runs b c b₁ (R a b₁))
    (next : ∀ {a b₁ c₁}, f a b₁ = .ok (r, b') → m.At b₁ c₁ → b.Extends b₁ → c.Keeps b c₁ →
      R a b₁ c₁ →
      m.Runs b₁ c₁ b' Q) : m.Runs b c b' Q := by
  obtain ⟨a, b₁, h₁, h₂⟩ := Emit.bind_ok h
  have e₁ := hx.emits b a b₁ hc.wf h₁
  have e₂ := (hf a).emits b₁ r b' e₁.after h₂
  exact (first h₁ (e₂.toExtends.completes hm)).bind e₁.toExtends e₂.toGrows fun c₁ hc₁ hk hr =>
    next h₂ hc₁ e₁.toExtends hk hr

/-! ## Terminators -/

/-- At the open end of a block the terminator that the block gets comes next. -/
theorem Machine.terminate_atEnd {t : Terminator} {u : Unit} (h : Emit.terminate t b = .ok (u, b'))
    (hm : b'.Completes m.func) (hc : m.At b c) :
    (∃ blk, m.AtEnd c.block blk c ∧ blk.terminator = t) ∧ c.Passed b' := by
  obtain ⟨b₁, h₁, rfl⟩ := Emit.terminate_ok h
  obtain rfl := Emit.ensureOpen_of_open h₁ hc.isOpen
  have hcl := Builder.close_isClosed hc.wf t
  obtain ⟨blk, hblk⟩ : ∃ blk, b₁.func.blocks[b₁.current.index]? = some blk :=
    ⟨_, Array.getElem?_eq_getElem hc.wf.current⟩
  have hfound : m.func.blocks[b₁.current.index]? = some { blk with terminator := t } := by
    rw [hm.closed _ hcl]
    simp [Builder.close, Array.getElem?_modify, hblk]
  refine ⟨⟨{ blk with terminator := t }, ⟨rfl, by rw [hc.block]; exact hfound, ?_⟩, rfl⟩, ?_⟩
  · rw [hc.position blk hblk]
    simp
  · unfold Config.Passed
    rw [hc.block]
    exact hcl

/-- The machine executes the terminator that the block gets. -/
theorem Machine.terminate_step {t : Terminator} {u : Unit} (h : Emit.terminate t b = .ok (u, b'))
    (hm : b'.Completes m.func) (hc : m.At b c) : m.step c = m.stepTerminator c t ∧ c.Passed b' := by
  obtain ⟨⟨blk, hend, ht⟩, hpassed⟩ := terminate_atEnd h hm hc
  exact ⟨by rw [step_end hend.found hend.position, ht], hpassed⟩

/-! ## Blocks to come -/

/-- Block `p` waits for its code; its parameters are `params`. -/
structure Builder.Waits (b : Builder) (p : BlockId) (params : List Reg) : Prop where
  isOpen : b.IsOpen p.index
  empty : b.func.blocks[p.index]?.map (fun blk => (blk.params, blk.insts)) = some (params, #[])

section Waits

variable {p q : BlockId} {params : List Reg}

theorem Builder.Waits.emits {P : List BlockId} (h : b.Waits p params) (e : b.Emits P b')
    (hne : p ≠ b.current) :
    b'.Waits p params := by
  have hidx : p.index ≠ b.current.index :=
    fun he => hne (by cases p; cases hc : b.current; simp_all)
  obtain ⟨ho, hsame⟩ := e.aside _ hidx h.isOpen
  exact ⟨ho, by rw [hsame]; exact h.empty⟩

theorem Builder.Waits.goTo (h : b.Waits p params) : (b.goTo q).Waits p params := ⟨h.isOpen, h.empty⟩

theorem Builder.Waits.addReg (h : b.Waits p params) (ty : Ty) : (b.addReg ty).Waits p params :=
  ⟨h.isOpen, h.empty⟩

/-- A new block waits. -/
theorem Builder.addBlock_waits (hw : b.WellFormed) (cold : Bool) :
    (b.addBlock cold).Waits ⟨b.func.blocks.size⟩ [] where
  isOpen := addBlock_open hw cold
  empty := by simp [addBlock]

/-- A block that waits gets a parameter. -/
theorem Builder.Waits.addParam (h : b.Waits p params) (r : Reg) :
    (b.addParam p r).Waits p (params ++ [r]) where
  isOpen := h.isOpen
  empty := by
    have he := h.empty
    simp only [Builder.addParam, Array.getElem?_modify, ↓reduceIte, Option.map_map]
    cases hb : b.func.blocks[p.index]? with
    | none => rw [hb] at he; cases he
    | some blk => rw [hb] at he; simp_all

theorem Builder.Waits.addParam_ne (h : b.Waits p params) (hne : p ≠ q) (r : Reg) :
    (b.addParam q r).Waits p params where
  isOpen := h.isOpen
  empty := by
    have hidx : q.index ≠ p.index := fun he => hne (by cases p; cases q; simp_all)
    simp only [Builder.addParam, Array.getElem?_modify, hidx, ↓reduceIte]
    exact h.empty

theorem Builder.Waits.found (h : b.Waits p params) (hm : b.Completes m.func) :
    ∃ blk, m.block p = .ok blk ∧ blk.params = params := by
  have he := h.empty
  cases hb : b.func.blocks[p.index]? with
  | none => rw [hb] at he; cases he
  | some blk =>
    rw [hb] at he
    obtain ⟨blk', hblk', hparams, -⟩ := hm.grown _ _ hb
    refine ⟨blk', Machine.block_eq_ok.2 hblk', ?_⟩
    simp_all

/-- Control in a block that waits is at the end of the builder that goes on there. -/
theorem Builder.Waits.at (h : b.Waits p params) (hw : b.WellFormed) (hblock : c.block = p)
    (hpos : c.position = 0) (hregs : c.registers.size = m.func.types.size) : m.At (b.goTo p) c where
  wf := ⟨hw.flags, (h.isOpen.lt hw : p.index < b.func.blocks.size)⟩
  isOpen := h.isOpen
  block := hblock
  position blk hb := by
    have he := h.empty
    change b.func.blocks[p.index]? = some blk at hb
    rw [hb] at he
    simp only [Option.map_some, Option.some.injEq, Prod.mk.injEq] at he
    simp [hpos, he.2]
  registers := hregs

end Waits

/-- Making blocks does not move control. -/
theorem Machine.At.addBlock (hc : m.At b c) (cold : Bool) : m.At (b.addBlock cold) c where
  wf := by
    have hf := hc.wf.flags
    have hcur := hc.wf.current
    exact ⟨by simp [Builder.addBlock, hf], by simp [Builder.addBlock]; omega⟩
  isOpen := (Builder.addBlock_isOpen_of_ne cold hc.wf (Nat.ne_of_lt hc.wf.current)).2 hc.isOpen
  block := hc.block
  position blk hb := hc.position blk (by rwa [← Builder.addBlock_getElem? cold hc.wf.current])
  registers := hc.registers

theorem Machine.At.addReg (hc : m.At b c) (ty : Ty) : m.At (b.addReg ty) c :=
  ⟨⟨hc.wf.flags, hc.wf.current⟩, hc.isOpen, hc.block, hc.position, hc.registers⟩

theorem Machine.At.addParam (hc : m.At b c) {p : BlockId} (hp : p ≠ b.current) (r : Reg) :
    m.At (b.addParam p r) c where
  wf :=
    ⟨by simpa [Builder.addParam] using hc.wf.flags, by simpa [Builder.addParam] using hc.wf.current⟩
  isOpen := hc.isOpen
  block := hc.block
  position blk hb := by
    have hidx : p.index ≠ b.current.index :=
      fun he => hp (by cases p; cases hcur : b.current; simp_all)
    refine hc.position blk ?_
    simpa [Builder.addParam, Array.getElem?_modify, hidx] using hb
  registers := hc.registers

/-! ## Going to a block -/

/-- Going to a block without parameters. -/
theorem Machine.enter_nil {p : BlockId} {blk : Block} (hb : m.block p = .ok blk)
    (hparams : blk.params = []) :
    m.enter c p [] = .ok { c with block := p, position := 0 } := by
  simp [enter, hb, hparams, bind, Except.bind, Config.readAll]
  rfl

/-- Going to a block with one parameter. -/
theorem Machine.enter_single {p : BlockId} {blk : Block} {r r' : Reg} {w : Word}
    (hb : m.block p = .ok blk) (hparams : blk.params = [r]) (hr : c.read r' = .ok w)
    (hlt : r.index < c.registers.size) :
    m.enter c p [r'] = .ok { c with
      block := p, position := 0, registers := c.registers.setIfInBounds r.index (some w) } := by
  simp [enter, hb, hparams, bind, Except.bind, Config.readAll, hr, Config.write, hlt, pure,
    Except.pure]

end SpecJit.Lir
