import Mathlib.Algebra.Group.Int.Defs
import Mathlib.Algebra.Group.Nat.Defs
import Mathlib.Data.Set.Defs
import SpecJit.Proofs.Lir.Exec
import SpecJit.Proofs.Lir.Memory

/-!
# Code with effects

`Machine.Runs` is about code that leaves memory as it is. `Machine.Does m L b c b' Q` is about any
code: what was built between the ends of `b` and `b'` leads from `c` to a configuration at the end
of `b'` that satisfies `Q`, registers of `b` are as before, and all that is loaded on the way is
loaded from addresses in `L`. `Machine.Quits m L exit b c`: it leads to that exit instead, with
memory as it was. An instruction takes one step: it defines a register (`define_does`) or stores
(`store_does`).

Running a store at the end of a builder writes to memory and changes nothing else (`store_goes`).
-/

namespace SpecJit.Lir

variable {σ : Type} {m : Machine σ} {L L' : Set Word} {b b' b'' : Builder} {c c' c'' : Config σ}
  {Q Q' : Config σ → Prop}

/-! ## Loads -/

/-- The address that an instruction loads from. -/
def Config.loadOf (c : Config σ) : Inst → Option Word
  | .load _ _ _ addr offset => (c.read addr).toOption.map (Machine.address · offset)
  | _ => none

/-- The instruction that comes next, unless the block ends here. -/
def Machine.next? (m : Machine σ) (c : Config σ) : Option Inst :=
  (m.func.blocks[c.block.index]?).bind fun blk => blk.insts[c.position]?.map (·.inst)

/-- What comes next is no load, or one from an address in `L`. -/
def Machine.LoadsIn (m : Machine σ) (L : Set Word) (c : Config σ) : Prop :=
  ∀ inst a, m.next? c = some inst → c.loadOf inst = some a → a ∈ L

theorem Machine.LoadsIn.mono (h : m.LoadsIn L c) (hL : ∀ a ∈ L, a ∈ L') : m.LoadsIn L' c :=
  fun inst a hi ha => hL a (h inst a hi ha)

theorem Machine.loadsIn_univ : m.LoadsIn Set.univ c := fun _ _ _ _ => trivial

/-- At the end of a block nothing is loaded. -/
theorem Machine.AtEnd.loadsIn {p : BlockId} {blk : Block} (h : m.AtEnd p blk c) :
    m.LoadsIn L c := by
  intro inst a hi
  have hfound := h.found
  rw [← h.block] at hfound
  simp [next?, hfound, h.position] at hi

/-- Where the block gets its terminator nothing is loaded. -/
theorem Machine.At.loadsIn {t : Terminator} {u : Unit} (hc : m.At b c)
    (h : Emit.terminate t b = .ok (u, b')) (hm : b'.Completes m.func) : m.LoadsIn L c := by
  obtain ⟨⟨blk, hend, -⟩, -⟩ := terminate_atEnd h hm hc
  exact hend.loadsIn

/-- At the open end of a block the instruction that is added comes next. -/
theorem Machine.At.next?_addInst {d : InstData} (hc : m.At b c)
    (hm : (b.addInst d).Completes m.func) :
    m.next? c = some d.inst := by
  obtain ⟨blk, blk', hblk, hblk', hinst⟩ := hm.addInst_found hc.wf
  rw [next?, hc.block, hblk', Option.bind_some, hc.position blk hblk, hinst]
  rfl

/-- Registers of `b` are as before. -/
def Config.Retains (c : Config σ) (b : Builder) (c' : Config σ) : Prop :=
  ∀ i < b.func.types.size, c'.registers[i]? = c.registers[i]?

theorem Config.Keeps.retains (h : c.Keeps b c') : c.Retains b c' := h.registers

theorem Config.Retains.trans (h : c.Retains b c') (h' : c'.Retains b' c'') (e : b.Extends b') :
    c.Retains b c'' :=
  fun i hi => (h' i (Nat.lt_of_lt_of_le hi e.types_size_le)).trans (h i hi)

theorem Config.Has.retain {r : Reg} {ty : Ty} {w : Word} (h : c.Has b r ty w) (e : b.Extends b')
    (hr : c.Retains b c') :
    c'.Has b' r ty w where
  type := e.types _ _ h.type
  value := by rw [hr _ h.lt, h.value]

/-! ## Code that comes to its end -/

/-- The code between two builders leads to the end of the second one and loads from `L` only. -/
def Machine.Does (m : Machine σ) (L : Set Word) (b : Builder) (c : Config σ) (b' : Builder)
    (Q : Config σ → Prop) : Prop :=
  ∃ c', m.Goes (fun x => x.Inside b' ∧ m.LoadsIn L x) c c' ∧ m.At b' c' ∧ c.Retains b c' ∧ Q c'

theorem Machine.Does.refl (hc : m.At b c) (hq : Q c) : m.Does L b c b Q :=
  ⟨c, .refl c, hc, fun _ _ => rfl, hq⟩

theorem Machine.Does.bind (h : m.Does L b c b' Q) (e₁ : b.Extends b') (e₂ : b'.Grows [] b'')
    (k : ∀ c', m.At b' c' → c.Retains b c' → Q c' → m.Does L b' c' b'' Q') :
    m.Does L b c b'' Q' := by
  obtain ⟨c₁, hgoes, hat, hregs, hq⟩ := h
  obtain ⟨c₂, hgoes', hat', hregs', hq'⟩ := k c₁ hat hregs hq
  exact ⟨c₂, (hgoes.mono fun _ hp => ⟨hp.1.grow e₂, hp.2⟩).trans hgoes', hat',
    hregs.trans hregs' e₁, hq'⟩

theorem Machine.Does.mono (h : m.Does L b c b' Q)
    (hq : ∀ c', m.At b' c' → c.Retains b c' → Q c' → Q' c') : m.Does L b c b' Q' := by
  obtain ⟨c₁, hgoes, hat, hregs, h⟩ := h
  exact ⟨c₁, hgoes, hat, hregs, hq c₁ hat hregs h⟩

theorem Machine.Does.widen (h : m.Does L b c b' Q) (hL : ∀ a ∈ L, a ∈ L') : m.Does L' b c b' Q := by
  obtain ⟨c₁, hgoes, h⟩ := h
  exact ⟨c₁, hgoes.mono fun _ hp => ⟨hp.1, hp.2.mono hL⟩, h⟩

/-- Code that leaves memory as it is. -/
theorem Machine.Does.runs (h : m.Does L b c b' fun c' => c'.memory = c.memory ∧ Q c') :
    m.Runs b c b' Q := by
  obtain ⟨c₁, hgoes, hat, hregs, hmem, hq⟩ := h
  exact ⟨c₁, hgoes.mono fun _ hp => hp.1, hat, ⟨hregs, hmem⟩, hq⟩

theorem Machine.Runs.does (h : m.Runs b c b' Q) :
    m.Does .univ b c b' fun c' => c'.memory = c.memory ∧ Q c' := by
  obtain ⟨c₁, hgoes, hat, hkeeps, hq⟩ := h
  exact ⟨c₁, hgoes.mono fun _ hp => ⟨hp, loadsIn_univ⟩, hat, hkeeps.registers, hkeeps.memory, hq⟩

/-- Code that comes to its end does not leave. -/
theorem Machine.Does.not_leaves (h : m.Does L b c b' Q) : ¬ m.Leaves b' c := by
  obtain ⟨c', hgoes, hc', -⟩ := h
  obtain ⟨n, hsteps⟩ := hgoes.steps
  exact fun hleaves => hleaves.not_at hsteps hc'

/-! ## Code that leaves -/

/-- The code loads from `L` only and leads to that exit before the end of the builder, with memory
as it was. -/
def Machine.Quits (m : Machine σ) (L : Set Word) (exit : ExitId) (b : Builder) (c : Config σ) :
    Prop :=
  ∃ c', m.Goes (fun x => x.Passed b ∧ m.LoadsIn L x) c c' ∧ c'.Passed b ∧ m.ExitsBy exit c' ∧
    c'.memory = c.memory

theorem Machine.Quits.leavesAt {exit : ExitId} (h : m.Quits L exit b c) : m.LeavesAt exit b c := by
  obtain ⟨c', hgoes, hpassed, hexit, -⟩ := h
  exact ⟨c', hgoes.mono fun _ hp => hp.1, hpassed, hexit⟩

theorem Machine.Quits.grow {exit : ExitId} (h : m.Quits L exit b c) (e : b.Extends b') :
    m.Quits L exit b' c := by
  obtain ⟨c', hgoes, hpassed, h⟩ := h
  exact ⟨c', hgoes.mono fun _ hp => ⟨hp.1.grow e, hp.2⟩, hpassed.grow e, h⟩

theorem Machine.Quits.passed {exit : ExitId} (h : m.Quits L exit b c) : c.Passed b := by
  obtain ⟨c', hgoes, hpassed, -⟩ := h
  cases hgoes with
  | refl => exact hpassed
  | next hp _ _ => exact hp.1

/-- Of code that stays in a block that has its terminator now, all of it was gone through. -/
theorem Machine.Goes.enclosed {P : Config σ → Prop} (h : m.Goes (fun x => x.Inside b ∧ P x) c c')
    (hc : m.At b c') (e : b.Extends b') (hp : c'.Passed b') :
    m.Goes (fun x => x.Passed b' ∧ P x) c c' := by
  refine h.mono fun x hx => ⟨?_, hx.2⟩
  rcases hx.1 with hx | hx
  · unfold Config.Passed at hp ⊢
    rw [hx, ← hc.block]
    exact hp
  · exact hx.grow e

/-- Code that leaves memory as it is, up to code that leaves. -/
theorem Machine.Does.quits {exit : ExitId} (h : m.Does L b c b' Q) (e : b'.Extends b'')
    (k : ∀ c', m.At b' c' → c.Retains b c' → Q c' → c'.memory = c.memory ∧ m.Quits L exit b'' c') :
    m.Quits L exit b'' c := by
  obtain ⟨c₁, hgoes, hc₁, hregs, hq⟩ := h
  obtain ⟨hmem, hquits⟩ := k c₁ hc₁ hregs hq
  have hp := hquits.passed
  obtain ⟨c₂, hgoes₂, hpassed, hexit, hmem₂⟩ := hquits
  exact ⟨c₂, (hgoes.enclosed hc₁ e hp).trans hgoes₂, hpassed, hexit, hmem₂.trans hmem⟩

/-! ## Instructions -/

/-- An instruction that computes a value takes one step and defines its register. -/
theorem Machine.define_does {ty : Ty} {inst : Inst} {r : Reg} {w : Word} {t : σ} {memory : Memory}
    (h : Emit.define ty inst b = .ok (r, b')) (hm : b'.Completes m.func) (hc : m.At b c)
    (hv : m.execute c inst = .ok (some w, { c with runtimeState := t, memory }))
    (hl : ∀ a, c.loadOf inst = some a → a ∈ L) :
    m.Does L b c b' fun c' => c'.memory = memory ∧ c'.runtimeState = t ∧
      c'.Has b' r ty (ty.normalize w) := by
  obtain ⟨c', hstep, hc', hregs, hmem, hr⟩ := define_goes h hm hc hv
  obtain ⟨b₁, h₁, rfl, rfl⟩ := Emit.define_ok h
  obtain rfl := Emit.ensureOpen_of_open h₁ hc.isOpen
  have hnext := (hc.addReg ty).next?_addInst hm
  refine ⟨c', .next ⟨.inl hc.block, fun inst' a hi ha => hl a ?_⟩ hstep (.refl _), hc', hregs, hmem,
    hr⟩
  obtain rfl : inst = inst' := Option.some.inj (hnext.symm.trans hi)
  exact ha

/-- A store takes one step, and changes memory only. -/
theorem Machine.store_does {width : MemWidth} {value addr : Reg} {offset : Int} {ty : Ty}
    {w a : Word} {u : Unit} (h : Emit.store width value addr offset b = .ok (u, b'))
    (hm : b'.Completes m.func) (hc : m.At b c) (hv : c.Has b value ty w) (ha : c.Has b addr .i64 a)
    :
    m.Does L b c b' fun c' => c'.registers = c.registers ∧
      c'.memory = c.memory.write (address a (Int32.ofInt offset)) width.bytes (width.encode w) := by
  obtain ⟨_, b₁, h₁, h₂⟩ := Emit.bind_ok h
  obtain rfl := Emit.ensureOpen_of_open h₁ hc.isOpen
  obtain rfl := Emit.push_ok h₂
  obtain ⟨blk, blk', hblk, hblk', hinst⟩ := hm.addInst_found hc.wf
  have hpos := hc.position blk hblk
  have hstep : m.step c = .ok (.running { c with
      position := c.position + 1
      memory := c.memory.write (address a (Int32.ofInt offset)) width.bytes (width.encode w) })
        := by
    have hb : m.block c.block = .ok blk' := by rw [hc.block]; exact block_eq_ok.2 hblk'
    simp only [step, hb, hpos, hinst, stepInst, execute, hv.read, ha.read, bind, Except.bind, pure,
      Except.pure]
  have hloads : m.LoadsIn L c := fun inst a hi hload => by
    rw [hc.next?_addInst hm] at hi
    cases hi
    cases hload
  refine ⟨_, .next ⟨.inl hc.block, hloads⟩ hstep (.refl _), ?_, fun _ _ => rfl, rfl, rfl⟩
  refine ⟨(Builder.addInst_emits hc.wf hc.isOpen _).after, hc.isOpen, hc.block,
    fun blk₂ hblk₂ => ?_, hc.registers⟩
  simp only [Builder.addInst, Array.getElem?_modify, ↓reduceIte] at hblk₂
  rw [hblk] at hblk₂
  cases hblk₂
  simp [hpos]

end SpecJit.Lir

namespace SpecJit.Lir

/-- The address of a load or store, whose offset has 32 bits. -/
theorem Machine.address_ofInt (a : Word) {k : Int} (h : -0x80000000 ≤ k) (h' : k < 0x80000000) :
    Machine.address a (Int32.ofInt k) = displace a k := by
  have hmax : Int32.maxValue.toInt = 0x7fffffff := rfl
  rw [Machine.address, Int32.toInt64_ofInt h (by omega), toUInt64_ofInt, displace]

variable {σ : Type} {m : Machine σ} {b b' : Builder} {c : Config σ}

/-- A store takes one step, and changes memory only. -/
theorem Machine.store_goes {width : MemWidth} {value addr : Reg} {offset : Int} {ty : Ty}
    {w a : Word} {u : Unit} (h : Emit.store width value addr offset b = .ok (u, b'))
    (hm : b'.Completes m.func) (hc : m.At b c) (hv : c.Has b value ty w) (ha : c.Has b addr .i64 a)
    :
    ∃ c', m.Goes (Config.Inside b') c c' ∧ m.At b' c' ∧ c'.registers = c.registers ∧
      c'.memory = c.memory.write (address a (Int32.ofInt offset)) width.bytes (width.encode w) := by
  obtain ⟨c', hgoes, hc', -, hregs, hmem⟩ := store_does (L := .univ) h hm hc hv ha
  exact ⟨c', hgoes.mono fun _ hp => hp.1, hc', hregs, hmem⟩

end SpecJit.Lir
