import SpecJit.Proofs.Lir.Run

/-!
# Registers in scope

A scoping `S` gives for each block registers that are defined at its head, whatever way control came
there. `Function.Scoped f S` says that `f` keeps to it: instructions and terminators read only what
the scoping, the parameters of the block or earlier instructions of the block define, and every edge
leads to a block that exists, brings as many values as the block has parameters and comes from where
everything in the scope of the block is defined.

A function that keeps to a scoping in which nothing is in scope at the entry never reads a register
that is not defined and never jumps with the wrong number of values: every run ends with an outcome
or at the step limit (`Function.Scoped.run`). `Config.Ready` is the invariant of the run.
-/

namespace SpecJit.Lir

/-! ## What code does with registers -/

/-- An instruction that has no value. -/
def Inst.isStore : Inst → Bool
  | .store _ _ _ _ => true
  | _ => false

/-- The blocks that control may go to, with the values handed over. -/
def Terminator.edges : Terminator → List (BlockId × List Reg)
  | .jump target args => [(target, args)]
  | .branch _ taken takenArgs notTaken notTakenArgs _ =>
    [(taken, takenArgs), (notTaken, notTakenArgs)]
  | .switch _ cases fallback => cases.map (fun c => (c.2, [])) ++ [(fallback, [])]
  | .ret _ | .exit _ _ | .unreachable => []

/-- What is handed over is read. -/
theorem Terminator.mem_reads {t : Terminator} {target : BlockId} {args : List Reg}
    (h : (target, args) ∈ t.edges) :
    ∀ r ∈ args, r ∈ t.reads := by
  cases t <;> simp only [Terminator.edges, Terminator.reads] at h ⊢ <;> grind

/-! ## Scopings -/

/-- The registers that are defined at the heads of the blocks, besides their parameters. -/
abbrev Scoping := Nat → Reg → Prop

/-- After `k` instructions of a block at whose head the registers in `V` are defined, `r` is
defined. -/
def Block.Defined (blk : Block) (V : Reg → Prop) (k : Nat) (r : Reg) : Prop :=
  V r ∨ r ∈ blk.params ∨ ∃ j < k, ∃ d, blk.insts[j]? = some d ∧ d.result = some r

/-- An instruction reads registers in `V` and defines one of the `size` registers, if any. -/
structure InstData.Scoped (d : InstData) (size : Nat) (V : Reg → Prop) : Prop where
  reads : ∀ r ∈ d.inst.reads, V r
  result : ∀ r, d.result = some r → r.index < size ∧ d.inst.isStore = false

/-- An edge from where the registers in `V` are defined fits its target. The values that it brings
may be `counted`. -/
structure Function.EdgeScoped (f : Function) (counted : Bool) (S : Scoping) (V : Reg → Prop)
    (target : BlockId) (args : List Reg) : Prop where
  arity : ∃ blk, f.blocks[target.index]? = some blk ∧
    (counted = true → blk.params.length = args.length)
  scope : ∀ r, S target.index r → V r

/-- A terminator that stands where the registers in `V` are defined keeps to a scoping. -/
structure Terminator.Scoped (t : Terminator) (f : Function) (counted : Bool) (S : Scoping)
    (V : Reg → Prop) : Prop where
  reads : ∀ r ∈ t.reads, V r
  edges : ∀ e ∈ t.edges, f.EdgeScoped counted S V e.1 e.2

/-- The function keeps to a scoping. -/
structure Function.Scoped (f : Function) (S : Scoping) : Prop where
  params : ∀ (i : Nat) blk, f.blocks[i]? = some blk → ∀ r ∈ blk.params, r.index < f.types.size
  insts : ∀ (i : Nat) blk, f.blocks[i]? = some blk → ∀ (k : Nat) d, blk.insts[k]? = some d →
    d.Scoped f.types.size (blk.Defined (S i) k)
  ends : ∀ (i : Nat) blk, f.blocks[i]? = some blk → blk.terminator.Scoped f true S
    (blk.Defined (S i) blk.insts.size)

theorem Block.Defined.later {blk : Block} {V : Reg → Prop} {k k' : Nat} {r : Reg}
    (h : blk.Defined V k r) (hk : k ≤ k') : blk.Defined V k' r := by
  rcases h with h | h | ⟨j, hj, d, hd, hr⟩
  · exact .inl h
  · exact .inr (.inl h)
  · exact .inr (.inr ⟨j, by omega, d, hd, hr⟩)

/-! ## Runs -/

variable {σ : Type} {m : Machine σ} {c c' : Config σ} {S : Scoping} {f : Function} {r : Reg}
  {rs : List Reg}

/-- The register has a value. -/
def Config.Defines (c : Config σ) (r : Reg) : Prop := ∃ w, c.registers[r.index]? = some (some w)

/-- The run is at a place of the function, and what is in scope there has values. -/
structure Config.Ready (c : Config σ) (f : Function) (S : Scoping) : Prop where
  registers : c.registers.size = f.types.size
  place : ∃ blk, f.blocks[c.block.index]? = some blk ∧
    ∀ r, blk.Defined (S c.block.index) c.position r → c.Defines r

theorem Config.Defines.read (h : c.Defines r) : ∃ w, c.read r = .ok w := by
  obtain ⟨w, hw⟩ := h
  exact ⟨w, by simp [Config.read, hw]⟩

theorem Config.Defines.lt (h : c.Defines r) : r.index < c.registers.size := by
  obtain ⟨w, hw⟩ := h
  exact (Array.getElem?_eq_some_iff.1 hw).1

theorem Config.readAll_ok (h : ∀ r ∈ rs, c.Defines r) :
    ∃ ws, c.readAll rs = .ok ws ∧ ws.length = rs.length := by
  induction rs with
  | nil => exact ⟨[], rfl, rfl⟩
  | cons r rs ih =>
    obtain ⟨w, hw⟩ := (h r (by simp)).read
    obtain ⟨ws, hws, hlen⟩ := ih fun r' hr' => h r' (by simp [hr'])
    refine ⟨w :: ws, ?_, by simp [hlen]⟩
    have hmap : rs.mapM c.read = .ok ws := hws
    rw [Config.readAll, List.mapM_cons, hw, hmap]
    rfl

theorem Machine.typeOf_ok (h : c.Defines r) (hsize : c.registers.size = m.func.types.size) :
    ∃ ty, m.typeOf r = .ok ty := by
  have hlt := h.lt
  rw [hsize] at hlt
  exact ⟨m.func.types[r.index], Machine.typeOf_eq_ok.2 (Array.getElem?_eq_getElem hlt)⟩

/-- An instruction whose operands have values can be executed, and has a value unless it is a store.
-/
theorem Machine.execute_ok {inst : Inst} (h : ∀ r ∈ inst.reads, c.Defines r)
    (hsize : c.registers.size = m.func.types.size) :
    ∃ w c', m.execute c inst = .ok (w, c') ∧ c'.registers = c.registers ∧ c'.block = c.block ∧
      c'.position = c.position ∧ (inst.isStore = false → w.isSome = true) := by
  have hone (r : Reg) (hr : r ∈ inst.reads) : ∃ w, c.read r = .ok w := (h r hr).read
  have htype (r : Reg) (hr : r ∈ inst.reads) : ∃ ty, m.typeOf r = .ok ty := typeOf_ok (h r hr) hsize
  -- a plain instruction has a value if its operands have
  have hplain (hp : m.execute c inst = (do return (some (← m.value c inst), c))) (hv : ∃ w,
    m.value c inst = .ok w) :
      ∃ w c', m.execute c inst = .ok (w, c') ∧ c'.registers = c.registers ∧ c'.block = c.block ∧
        c'.position = c.position ∧ (inst.isStore = false → w.isSome = true) := by
    obtain ⟨w, hv⟩ := hv
    exact ⟨some w, c, by rw [hp, hv]; rfl, rfl, rfl, rfl, fun _ => rfl⟩
  cases inst with
  | iconst ty imm => exact hplain rfl ⟨_, rfl⟩
  | fconst d => exact hplain rfl ⟨_, rfl⟩
  | context => exact hplain rfl ⟨_, rfl⟩
  | frame => exact hplain rfl ⟨_, rfl⟩
  | binary op ty lhs rhs | overflows op ty lhs rhs | fbinary op lhs rhs | fcmp cc lhs rhs =>
    obtain ⟨x, hx⟩ := hone lhs (by simp [Inst.reads])
    obtain ⟨y, hy⟩ := hone rhs (by simp [Inst.reads])
    exact hplain rfl ⟨_, by rw [Machine.value, hx, hy]; rfl⟩
  | icmp cc lhs rhs =>
    obtain ⟨x, hx⟩ := hone lhs (by simp [Inst.reads])
    obtain ⟨y, hy⟩ := hone rhs (by simp [Inst.reads])
    obtain ⟨ty, hty⟩ := htype lhs (by simp [Inst.reads])
    exact hplain rfl ⟨_, by rw [Machine.value, hty, hx, hy]; rfl⟩
  | intToDouble signed arg =>
    obtain ⟨x, hx⟩ := hone arg (by simp [Inst.reads])
    obtain ⟨ty, hty⟩ := htype arg (by simp [Inst.reads])
    exact hplain rfl ⟨_, by rw [Machine.value, hty, hx]; rfl⟩
  | unary op ty arg | funary op arg | extend signed arg | truncate arg | doubleToInt ty arg =>
    obtain ⟨x, hx⟩ := hone arg (by simp [Inst.reads])
    exact hplain rfl ⟨_, by rw [Machine.value, hx]; rfl⟩
  | bitcastToInt arg | bitcastToDouble arg =>
    obtain ⟨x, hx⟩ := hone arg (by simp [Inst.reads])
    exact hplain rfl ⟨x, hx⟩
  | load ty width signed addr offset =>
    obtain ⟨x, hx⟩ := hone addr (by simp [Inst.reads])
    exact hplain rfl ⟨_, by rw [Machine.value, hx]; rfl⟩
  | select cond ifTrue ifFalse =>
    obtain ⟨x, hx⟩ := hone cond (by simp [Inst.reads])
    obtain ⟨y, hy⟩ := hone ifTrue (by simp [Inst.reads])
    obtain ⟨z, hz⟩ := hone ifFalse (by simp [Inst.reads])
    refine hplain rfl ?_
    rw [Machine.value, hx]
    simp only [bind, Except.bind]
    split
    · exact ⟨y, hy⟩
    · exact ⟨z, hz⟩
  | store width value addr offset =>
    obtain ⟨x, hx⟩ := hone addr (by simp [Inst.reads])
    obtain ⟨y, hy⟩ := hone value (by simp [Inst.reads])
    refine ⟨none,
      { c with memory := c.memory.write (address x offset) width.bytes (width.encode y) }, ?_, rfl,
      rfl, rfl,
      fun hs => by cases hs⟩
    rw [Machine.execute, hx, hy]
    rfl
  | call helper args =>
    obtain ⟨ws, hws, -⟩ := Config.readAll_ok h
    simp only [Inst.reads] at hws
    let answer := m.runtime.callHelper helper ws c.runtimeState c.memory
    refine ⟨some answer.1, { c with runtimeState := answer.2.1, memory := answer.2.2 }, ?_, rfl,
      rfl, rfl, fun _ => rfl⟩
    rw [Machine.execute, hws]
    rfl
  | patchpoint site args =>
    obtain ⟨ws, hws, -⟩ := Config.readAll_ok h
    simp only [Inst.reads] at hws
    let answer := m.runtime.patchpoint site ws c.runtimeState c.memory
    refine ⟨some answer.1, { c with runtimeState := answer.2.1, memory := answer.2.2 }, ?_, rfl,
      rfl, rfl, fun _ => rfl⟩
    rw [Machine.execute, hws]
    rfl

theorem Config.write_ok {w : Word} (h : r.index < c.registers.size) :
    ∃ c', c.write r w = .ok c' ∧ c'.registers.size = c.registers.size ∧ c'.block = c.block ∧
    c'.position = c.position ∧
      c'.Defines r ∧ ∀ r', c.Defines r' → c'.Defines r' := by
  refine ⟨{ c with registers := c.registers.setIfInBounds r.index (some w) },
    by simp [Config.write, h], by simp, rfl,
    rfl, ⟨w, by simp [h]⟩, fun r' hr' => ?_⟩
  obtain ⟨w', hw'⟩ := hr'
  by_cases he : r.index = r'.index
  · exact ⟨w, by simp [← he, h]⟩
  · exact ⟨w', by simp [he, hw']⟩

/-- Instructions keep the run ready. -/
theorem Config.Ready.stepInst {blk : Block} {d : InstData} (hf : m.func.Scoped S)
    (h : c.Ready m.func S) (hblk : m.func.blocks[c.block.index]? = some blk)
    (hd : blk.insts[c.position]? = some d) :
    ∃ c', m.stepInst c d = .ok c' ∧ c'.Ready m.func S := by
  obtain ⟨blk', hblk', hdef⟩ := h.place
  rw [hblk] at hblk'
  cases hblk'
  have hscoped := hf.insts _ _ hblk _ _ hd
  obtain ⟨w, c₁, hexec, hregs, hblock, hpos, hsome⟩ :=
    Machine.execute_ok (fun r hr => hdef r (hscoped.reads r hr)) h.registers
  -- what is defined behind the instruction was defined before it, or is its result
  have hbehind (c' : Config σ) (hb : c'.block = c.block) (hp : c'.position = c.position + 1)
      (hold : ∀ r, c.Defines r → c'.Defines r) (hres : ∀ r, d.result = some r → c'.Defines r)
      (hs : c'.registers.size = c.registers.size) : c'.Ready m.func S := by
    refine ⟨hs.trans h.registers, blk, by rw [hb]; exact hblk, fun r hr => ?_⟩
    rw [hb, hp] at hr
    rcases hr with hr | hr | ⟨j, hj, d', hd', hr⟩
    · exact hold r (hdef r (.inl hr))
    · exact hold r (hdef r (.inr (.inl hr)))
    · by_cases hlast : j = c.position
      · subst hlast
        rw [hd] at hd'
        cases hd'
        exact hres r hr
      · exact hold r (hdef r (.inr (.inr ⟨j, by omega, d', hd', hr⟩)))
  have hkeep (r : Reg) (hr : c.Defines r) : Config.Defines { c₁ with position := c₁.position + 1 }
    r := by
    obtain ⟨w', hw'⟩ := hr
    exact ⟨w', by simpa [hregs] using hw'⟩
  rw [Machine.stepInst, hexec]
  simp only [bind, Except.bind]
  cases hres : d.result with
  | none =>
    exact ⟨_, rfl, hbehind _ hblock (by simp [hpos]) hkeep (by simp [hres]) (by simp [hregs])⟩
  | some r =>
    obtain ⟨hlt, hstore⟩ := hscoped.result r hres
    obtain ⟨w', rfl⟩ := Option.isSome_iff_exists.1 (hsome hstore)
    have hty : m.typeOf r = .ok m.func.types[r.index] :=
      Machine.typeOf_eq_ok.2 (Array.getElem?_eq_getElem hlt)
    have hin : r.index < Array.size (Config.registers { c₁ with position := c₁.position + 1 }) := by
      simpa [hregs, h.registers] using hlt
    obtain ⟨c₂, hwrite, hsize, hblock₂, hpos₂, hr₂, hold⟩ :=
      Config.write_ok (w := (m.func.types[r.index]).normalize w') hin
    simp only [hty]
    refine ⟨c₂, hwrite, hbehind c₂ (hblock₂.trans hblock) (by simp [hpos₂, hpos])
      (fun r' hr' => hold r' (hkeep r' hr'))
      ?_ (by simp [hsize, hregs])⟩
    intro r' hr'
    rw [hres] at hr'
    cases hr'
    exact hr₂

theorem Config.writes_ok {rs : List Reg} {ws : List Word}
    (hrs : ∀ r ∈ rs, r.index < c.registers.size) (hlen : rs.length = ws.length) :
    ∃ c', (rs.zip ws).foldlM (fun (c : Config σ) (p : Reg × Word) => c.write p.1 p.2) c = .ok c' ∧
      c'.registers.size = c.registers.size ∧ c'.block = c.block ∧ c'.position = c.position ∧
      (∀ r ∈ rs, c'.Defines r) ∧ ∀ r, c.Defines r → c'.Defines r := by
  induction rs generalizing ws c with
  | nil => exact ⟨c, rfl, rfl, rfl, rfl, by simp, fun _ h => h⟩
  | cons r rs ih =>
    cases ws with
    | nil => simp at hlen
    | cons w ws =>
      obtain ⟨c₁, hwrite, hsize, hblock, hpos, hr, hold⟩ :=
        Config.write_ok (w := w) (hrs r (by simp))
      have hin (r' : Reg) (hr' : r' ∈ rs) : r'.index < c₁.registers.size := by
        rw [hsize]
        exact hrs r' (by simp [hr'])
      obtain ⟨c₂, hfold, hsize₂, hblock₂, hpos₂, hrs₂, hold₂⟩ := ih hin (by simpa using hlen)
      refine ⟨c₂, ?_, hsize₂.trans hsize, hblock₂.trans hblock, hpos₂.trans hpos, ?_,
        fun r' h => hold₂ r' (hold r' h)⟩
      · rw [List.zip_cons_cons, List.foldlM_cons, hwrite]
        exact hfold
      · intro r' hr'
        rcases List.mem_cons.1 hr' with rfl | hr'
        · exact hold₂ _ hr
        · exact hrs₂ r' hr'

/-- Edges keep the run ready. -/
theorem Config.Ready.enter {blk : Block} {target : BlockId} {args : List Reg} (hf : m.func.Scoped S)
    (h : c.Ready m.func S) (hblk : m.func.blocks[c.block.index]? = some blk)
    (hend : blk.insts[c.position]? = none)
    (hargs : ∀ r ∈ args, blk.Defined (S c.block.index) blk.insts.size r)
    (hedge : m.func.EdgeScoped true S (blk.Defined (S c.block.index) blk.insts.size) target args) :
    ∃ c', m.enter c target args = .ok c' ∧ c'.Ready m.func S := by
  obtain ⟨blk', hblk', hdef⟩ := h.place
  rw [hblk] at hblk'
  cases hblk'
  have hpos : blk.insts.size ≤ c.position := by simpa using hend
  obtain ⟨next, hnext, hlen⟩ := hedge.arity
  replace hlen := hlen rfl
  obtain ⟨ws, hws, hwlen⟩ := Config.readAll_ok fun r hr => hdef r ((hargs r hr).later hpos)
  have hparams (r : Reg) (hr : r ∈ next.params) : r.index < Array.size
    (Config.registers { c with block := target, position := 0 }) := by
    simpa [h.registers] using hf.params _ _ hnext r hr
  obtain ⟨c₁, hfold, hsize, hblock, hp, hdone, hold⟩ :=
    Config.writes_ok hparams (hlen.trans hwlen.symm)
  refine ⟨c₁, ?_, hsize.trans h.registers, next, by rw [hblock]; exact hnext, fun r hr => ?_⟩
  · rw [Machine.enter, Machine.block_eq_ok.2 hnext]
    simp only [bind, Except.bind, hlen, bne_self_eq_false, Bool.false_eq_true, if_false, hws]
    exact hfold
  · rw [hblock, hp] at hr
    rcases hr with hr | hr | ⟨j, hj, -⟩
    · obtain ⟨w, hw⟩ := hdef r ((hedge.scope r hr).later hpos)
      exact hold r ⟨w, hw⟩
    · exact hdone r hr
    · cases hj

/-- Terminators end the run, or keep it ready. -/
theorem Config.Ready.stepTerminator {blk : Block} (hf : m.func.Scoped S) (h : c.Ready m.func S)
    (hblk : m.func.blocks[c.block.index]? = some blk) (hend : blk.insts[c.position]? = none) :
    (∃ o, m.stepTerminator c blk.terminator = .ok (.done o)) ∨
      ∃ c', m.stepTerminator c blk.terminator = .ok (.running c') ∧ c'.Ready m.func S := by
  have ht := hf.ends _ _ hblk
  obtain ⟨blk', hblk', hdef⟩ := h.place
  rw [hblk] at hblk'
  cases hblk'
  have hpos : blk.insts.size ≤ c.position := by simpa using hend
  have hread (r : Reg) (hr : r ∈ blk.terminator.reads) : c.Defines r :=
    hdef r ((ht.reads r hr).later hpos)
  have hedge (target : BlockId) (args : List Reg) (he : (target, args) ∈ blk.terminator.edges) :
      ∃ c', m.enter c target args = .ok c' ∧ c'.Ready m.func S :=
    h.enter hf hblk hend (fun r hr => ht.reads r (Terminator.mem_reads he r hr)) (ht.edges _ he)
  cases hterm : blk.terminator with
  | jump target args =>
    obtain ⟨c', hc', hready⟩ := hedge target args (by simp [hterm, Terminator.edges])
    exact .inr ⟨c', by rw [Machine.stepTerminator, hc']; rfl, hready⟩
  | branch cond taken takenArgs notTaken notTakenArgs weight =>
    obtain ⟨w, hw⟩ := (hread cond (by simp [hterm, Terminator.reads])).read
    obtain ⟨c₁, hc₁, hready₁⟩ := hedge taken takenArgs (by simp [hterm, Terminator.edges])
    obtain ⟨c₂, hc₂, hready₂⟩ := hedge notTaken notTakenArgs (by simp [hterm, Terminator.edges])
    rw [Machine.stepTerminator, hw]
    simp only [bind, Except.bind]
    split
    · exact .inr ⟨c₁, by rw [hc₁]; rfl, hready₁⟩
    · exact .inr ⟨c₂, by rw [hc₂]; rfl, hready₂⟩
  | switch value cases fallback =>
    obtain ⟨w, hw⟩ := (hread value (by simp [hterm, Terminator.reads])).read
    have hto : ((cases.lookup (low32 w)).getD fallback, []) ∈ blk.terminator.edges := by
      simp only [hterm, Terminator.edges, List.mem_append, List.mem_map, List.mem_singleton]
      cases hl : cases.lookup (low32 w) with
      | none => exact .inr rfl
      | some b =>
        have hmem : (low32 w, b) ∈ cases := by
          obtain ⟨l₁, l₂, hsplit, -⟩ := List.lookup_eq_some_iff.1 hl
          simp [hsplit]
        exact .inl ⟨_, hmem, rfl⟩
    obtain ⟨c', hc', hready⟩ := hedge _ _ hto
    exact .inr ⟨c',
      by rw [Machine.stepTerminator, hw]; simp only [bind, Except.bind]; rw [hc']; rfl, hready⟩
  | ret value =>
    obtain ⟨w, hw⟩ := (hread value (by simp [hterm, Terminator.reads])).read
    exact .inl ⟨_, by rw [Machine.stepTerminator, hw]; rfl⟩
  | exit exit values =>
    obtain ⟨ws, hws, -⟩ := Config.readAll_ok fun r hr =>
      hread r (by simpa [hterm, Terminator.reads] using hr)
    exact .inl ⟨_, by rw [Machine.stepTerminator, hws]; rfl⟩
  | unreachable => exact .inl ⟨_, rfl⟩

/-- One step ends the run, or keeps it ready. -/
theorem Config.Ready.step (hf : m.func.Scoped S) (h : c.Ready m.func S) :
    (∃ o, m.step c = .ok (.done o)) ∨ ∃ c', m.step c = .ok (.running c') ∧ c'.Ready m.func S := by
  obtain ⟨blk, hblk, -⟩ := h.place
  rw [Machine.step, Machine.block_eq_ok.2 hblk]
  simp only [bind, Except.bind]
  cases hi : blk.insts[c.position]? with
  | some d =>
    obtain ⟨c', hc', hready⟩ := h.stepInst hf hblk hi
    exact .inr ⟨c', by simp only [hc']; rfl, hready⟩
  | none => exact h.stepTerminator hf hblk hi

theorem Config.Ready.runFrom {limit left : Nat} (hf : m.func.Scoped S) (h : c.Ready m.func S) :
    (∃ o, (m.runFrom limit left c).result = .ok o) ∨
      (m.runFrom limit left c).result = .error (.error (.stepLimit limit)) := by
  induction left generalizing c with
  | zero => exact .inr rfl
  | succ left ih =>
    rw [Machine.runFrom]
    rcases h.step hf with ⟨o, ho⟩ | ⟨c', hc', hready⟩
    · exact .inl ⟨o, by rw [ho]⟩
    · rw [hc']
      exact ih hready

/-- A function that keeps to a scoping runs until it has an outcome or comes to the step limit. -/
theorem Function.Scoped.run {entry : Block} (hf : m.func.Scoped S)
    (hentry : m.func.blocks[0]? = some entry) (hparams : entry.params = []) (hscope : ∀ r, ¬ S 0 r)
    (limit : Nat) (memory : Memory) (runtimeState : σ) :
    (∃ o, (m.run limit memory runtimeState).result = .ok o) ∨
      (m.run limit memory runtimeState).result = .error (.error (.stepLimit limit)) := by
  rw [Machine.run, Machine.block_eq_ok.2 hentry]
  refine Config.Ready.runFrom hf ⟨by simp [Machine.start], entry, hentry, fun r hr => ?_⟩
  rcases hr with hr | hr | ⟨j, hj, -⟩
  · exact absurd hr (hscope r)
  · rw [hparams] at hr
    cases hr
  · simp [Machine.start] at hj

end SpecJit.Lir
