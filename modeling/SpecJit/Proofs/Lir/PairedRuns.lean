import SpecJit.Proofs.Lir.Pairing

/-!
# Runs of functions that go together

Two machines run code that goes together (`Machine.Pairs`). A step of one of them is followed by the
other one, which may take more steps where constants were put aside for it, or none where they were
for the first (`Config.Beside.keepsUp`). So when one run ends the other one ends in the same way
(`Machine.Pairs.follows`): they return the same word, or leave through the exit with the same
number, and what was captured there for the same register is the same. Only, a register that one of
them captures and the other one does not may have no value, and then the run fails.
-/

namespace SpecJit.Lir

theorem Reg.eq_of_index {r q : Reg} (h : r.index = q.index) : r = q := by
  cases r
  cases q
  cases h
  rfl

variable {σ : Type} {π : Pairing} {m m' : Machine σ} {c c₁ c' : Config σ} {r r' : Reg} {w : Word}

/-- The machines run code that goes together, in the same surroundings. -/
structure Machine.Pairs (π : Pairing) (m m' : Machine σ) : Prop where
  reg : ∀ {r r'}, π.regs r r' → ∃ ty, m.func.types[r.index]? = some ty ∧
    m'.func.types[r'.index]? = some ty
  regUnique : ∀ {r r' q q'}, π.regs r r' → π.regs q q' → (r = q ↔ r' = q')
  block : ∀ {p p'}, π.blocks p p' → ∃ blk blk', m.func.blocks[p.index]? = some blk ∧
    m'.func.blocks[p'.index]? = some blk' ∧
    blk.Pairs π blk'
  left : ∀ {r n}, π.left r n → m.func.types[r.index]? = some .i32 ∧ (∀ r', ¬ π.regs r r') ∧ ∀ k,
    π.left r k → k = n
  right : ∀ {r n}, π.right r n → m'.func.types[r.index]? = some .i32 ∧ (∀ r', ¬ π.regs r' r) ∧ ∀ k,
    π.right r k → k = n
  entry : π.blocks ⟨0⟩ ⟨0⟩
  context : m.context = m'.context
  frame : m.frame = m'.frame
  runtime : m.runtime = m'.runtime

theorem Machine.Pairs.flip (h : m.Pairs π m') : m'.Pairs π.flip m where
  reg hr := by
    obtain ⟨ty, hty, hty'⟩ := h.reg hr
    exact ⟨ty, hty', hty⟩
  regUnique hr hq := (h.regUnique hr hq).symm
  block hp := by
    obtain ⟨blk, blk', hblk, hblk', hpairs⟩ := h.block hp
    exact ⟨blk', blk, hblk', hblk, hpairs.flip⟩
  left := h.right
  right := h.left
  entry := h.entry
  context := h.context.symm
  frame := h.frame.symm
  runtime := h.runtime.symm

theorem Builder.Agree.machines {b b' : Builder} (h : Builder.Agree π b b')
    (hentry : π.blocks ⟨0⟩ ⟨0⟩) (hm : m.func = b.func) (hm' : m'.func = b'.func)
    (hcontext : m.context = m'.context) (hframe : m.frame = m'.frame)
    (hruntime : m.runtime = m'.runtime) : m.Pairs π m' where
  reg hr := by
    rw [hm, hm']
    exact h.reg hr
  regUnique := h.regUnique
  block hp := by
    obtain ⟨blk, blk', hblk, hblk', hpairs, -⟩ := h.block hp
    rw [hm, hm']
    exact ⟨blk, blk', hblk, hblk', hpairs⟩
  left hr := by
    rw [hm]
    exact h.left hr
  right hr := by
    rw [hm']
    exact h.right hr
  entry := hentry
  context := hcontext
  frame := hframe
  runtime := hruntime

/-! ## Configurations -/

/-- The configurations hold the same where the registers go together, and constants put aside have
their values. -/
structure Config.Alike (π : Pairing) (m : Machine σ) (c : Config σ) (m' : Machine σ) (c' : Config σ)
    : Prop where
  size : c.registers.size = m.func.types.size
  size' : c'.registers.size = m'.func.types.size
  regs : ∀ {r r'}, π.regs r r' → c.registers[r.index]? = c'.registers[r'.index]?
  left : ∀ {r n w}, π.left r n → c.registers[r.index]? = some (some w) →
    w = Ty.i32.normalize n.toUInt64
  right : ∀ {r n w}, π.right r n → c'.registers[r.index]? = some (some w) →
    w = Ty.i32.normalize n.toUInt64
  memory : c.memory = c'.memory
  runtimeState : c.runtimeState = c'.runtimeState

/-- The configurations are beside each other: what is left of the blocks goes together. -/
structure Config.Beside (π : Pairing) (m : Machine σ) (c : Config σ) (m' : Machine σ)
    (c' : Config σ) : Prop
    extends c.Alike π m m' c' where
  place : ∃ blk blk', m.func.blocks[c.block.index]? = some blk ∧
    m'.func.blocks[c'.block.index]? = some blk' ∧
    blk.terminator.Pairs π blk'.terminator ∧ InstsPair π (blk.insts.toList.drop c.position)
      (blk'.insts.toList.drop c'.position)

namespace Config

theorem Alike.flip (h : c.Alike π m m' c') : c'.Alike π.flip m' m c where
  size := h.size'
  size' := h.size
  regs hr := (h.regs hr).symm
  left := h.right
  right := h.left
  memory := h.memory.symm
  runtimeState := h.runtimeState.symm

theorem read_eq_ok_iff : c.read r = .ok w ↔ c.registers[r.index]? = some (some w) := by
  unfold read
  split
  · rename_i w' h
    simp [h]
  · rename_i h
    exact ⟨nofun, fun hw => absurd hw (h w)⟩

theorem read_error {e : EvalFailure} (h : c.read r = .error e) : e = .error (.undefined r) := by
  unfold read at h
  split at h
  · cases h
  · cases h
    rfl

theorem readAll_error {rs : List Reg} {e : EvalFailure} (h : c.readAll rs = .error e) :
    ∃ r, e = .error (.undefined r) := by
  rw [readAll] at h
  induction rs with
  | nil => cases h
  | cons r rs ih =>
    rw [List.mapM_cons] at h
    cases hr : c.read r with
    | error e' =>
      rw [hr] at h
      cases h
      exact ⟨r, read_error hr⟩
    | ok w =>
      rw [hr] at h
      cases hrs : rs.mapM c.read with
      | error e' =>
        simp only [hrs, bind, Except.bind] at h
        cases h
        exact ih hrs
      | ok ws =>
        simp only [hrs, bind, Except.bind] at h
        cases h

theorem Alike.read (h : c.Alike π m m' c') (hr : π.regs r r') (hw : c.read r = .ok w) :
    c'.read r' = .ok w := by
  rw [read_eq_ok_iff, ← h.regs hr]
  exact read_eq_ok_iff.1 hw

theorem Alike.readAll (h : c.Alike π m m' c') {rs rs' : List Reg} {ws : List Word}
    (hrs : List.Forall₂ π.regs rs rs') (hws : c.readAll rs = .ok ws) : c'.readAll rs' = .ok ws := by
  rw [Config.readAll, mapM_eq_ok_iff] at hws ⊢
  induction hrs generalizing ws with
  | nil =>
    obtain rfl := List.forall₂_nil_left_iff.1 hws
    exact .nil
  | cons hr _ ih =>
    obtain ⟨w, ws, hw, hrest, rfl⟩ := List.forall₂_cons_left_iff.1 hws
    exact .cons (h.read hr hw) (ih hrest)

/-- Registers that hold the same have the same value. -/
theorem Alike.same (h : c.Alike π m m' c') {w' : Word} (hr : π.Same r r') (hw : c.read r = .ok w)
    (hw' : c'.read r' = .ok w') :
    w = w' := by
  rcases hr with hr | ⟨n, hl, hr⟩
  · exact Except.ok.inj ((h.read hr hw).symm.trans hw')
  · exact (h.left hl (read_eq_ok_iff.1 hw)).trans (h.right hr (read_eq_ok_iff.1 hw')).symm

/-- What was captured for the same register is the same. -/
theorem Alike.captured (h : c.Alike π m m' c') {regs regs' : List Reg} {ws ws' : List Word}
    (hws : c.readAll regs = .ok ws) (hws' : c'.readAll regs' = .ok ws') {i i' : Nat}
    (hi : π.Captured regs regs' i i') :
    ∃ w, ws[i]? = some w ∧ ws'[i']? = some w := by
  obtain ⟨r, r', hr, hr', hsame⟩ := hi
  have hread {c : Config σ} {regs : List Reg} {ws : List Word} (hws : c.readAll regs = .ok ws)
    {i : Nat} {r : Reg}
      (hr : regs[i]? = some r) : ∃ w, ws[i]? = some w ∧ c.read r = .ok w := by
    have hall := mapM_eq_ok_iff.1 hws
    obtain ⟨hi, rfl⟩ := List.getElem?_eq_some_iff.1 hr
    have hi' : i < ws.length := hall.length_eq ▸ hi
    exact ⟨ws[i], List.getElem?_eq_getElem hi', hall.get hi hi'⟩
  obtain ⟨w, hw, hread₁⟩ := hread hws hr
  obtain ⟨w', hw', hread₂⟩ := hread hws' hr'
  obtain rfl := h.same hsame hread₁ hread₂
  exact ⟨w, hw, hw'⟩

/-- A register gets a value. -/
def set (c : Config σ) (r : Reg) (w : Word) : Config σ :=
  { c with registers := c.registers.setIfInBounds r.index (some w) }

theorem write_eq_ok_iff : c.write r w = .ok c₁ ↔ r.index < c.registers.size ∧ c₁ = c.set r w := by
  unfold write
  split
  · rename_i hlt
    simp [set, hlt, eq_comm]
  · rename_i hlt
    exact ⟨nofun, fun h => absurd h.1 hlt⟩

theorem set_getElem? {i : Nat} (hi : r.index ≠ i) :
    (c.set r w).registers[i]? = c.registers[i]? := by
  simp [set, hi]

/-- A constant is put aside on the left. -/
theorem Alike.setLeft (hm : m.Pairs π m') (h : c.Alike π m m' c') {n : Int64} (hr : π.left r n) :
    (c.set r (Ty.i32.normalize n.toUInt64)).Alike π m m' c' where
  size := by simpa [set] using h.size
  size' := h.size'
  regs {q q'} hq := by
    have hne : r.index ≠ q.index := fun he => (hm.left hr).2.1 q' (Reg.eq_of_index he ▸ hq)
    rw [set_getElem? hne]
    exact h.regs hq
  left {q k w} hq hw := by
    by_cases hne : r.index = q.index
    · obtain rfl := Reg.eq_of_index hne
      obtain rfl := (hm.left hr).2.2 k hq
      simp only [set, Array.getElem?_setIfInBounds_self] at hw
      split at hw
      · cases hw
        rfl
      · cases hw
    · rw [set_getElem? hne] at hw
      exact h.left hq hw
  right := h.right
  memory := h.memory
  runtimeState := h.runtimeState

/-- Registers that go together get the same value. -/
theorem Alike.set (hm : m.Pairs π m') (h : c.Alike π m m' c') (hr : π.regs r r') (w : Word) :
    (c.set r w).Alike π m m' (c'.set r' w) where
  size := by simpa [Config.set] using h.size
  size' := by simpa [Config.set] using h.size'
  regs {q q'} hq := by
    obtain ⟨ty, hty, hty'⟩ := hm.reg hr
    have hlt : r.index < c.registers.size := h.size ▸ (Array.getElem?_eq_some_iff.1 hty).1
    have hlt' : r'.index < c'.registers.size := h.size' ▸ (Array.getElem?_eq_some_iff.1 hty').1
    by_cases he : r = q
    · obtain rfl := he
      obtain rfl := (hm.regUnique hr hq).1 rfl
      simp [Config.set, hlt, hlt']
    · have he' : r' ≠ q' := fun he' => he ((hm.regUnique hr hq).2 he')
      rw [set_getElem? fun hi => he (Reg.eq_of_index hi),
        set_getElem? fun hi => he' (Reg.eq_of_index hi)]
      exact h.regs hq
  left {q n v} hq hv := by
    have hne : r.index ≠ q.index := fun he => (hm.left hq).2.1 r' (Reg.eq_of_index he ▸ hr)
    rw [set_getElem? hne] at hv
    exact h.left hq hv
  right {q n v} hq hv := by
    have hne : r'.index ≠ q.index := fun he => (hm.right hq).2.1 r (Reg.eq_of_index he ▸ hr)
    rw [set_getElem? hne] at hv
    exact h.right hq hv
  memory := h.memory
  runtimeState := h.runtimeState

theorem Alike.write (hm : m.Pairs π m') (h : c.Alike π m m' c') (hr : π.regs r r')
    (hc : c.write r w = .ok c₁) :
    ∃ c₁', c'.write r' w = .ok c₁' ∧ c₁.Alike π m m' c₁' ∧ c₁.block = c.block ∧
      c₁.position = c.position ∧
      c₁'.block = c'.block ∧ c₁'.position = c'.position := by
  obtain ⟨-, rfl⟩ := write_eq_ok_iff.1 hc
  obtain ⟨ty, -, hty'⟩ := hm.reg hr
  have hlt' : r'.index < c'.registers.size := h.size' ▸ (Array.getElem?_eq_some_iff.1 hty').1
  exact ⟨c'.set r' w, write_eq_ok_iff.2 ⟨hlt', rfl⟩, h.set hm hr w, rfl, rfl, rfl, rfl⟩

/-- The parameters of blocks that go together get the same values. -/
theorem Alike.writes (hm : m.Pairs π m') {rs rs' : List Reg} (hrs : List.Forall₂ π.regs rs rs')
    (h : c.Alike π m m' c') {ws : List Word}
    (hc : (rs.zip ws).foldlM (fun (c : Config σ) (p : Reg × Word) => c.write p.1 p.2) c = .ok c₁) :
    ∃ c₁', (rs'.zip ws).foldlM (fun (c : Config σ) (p : Reg × Word) => c.write p.1 p.2)
      c' = .ok c₁' ∧
      c₁.Alike π m m' c₁' ∧ c₁.block = c.block ∧ c₁.position = c.position ∧ c₁'.block = c'.block ∧
      c₁'.position = c'.position := by
  induction hrs generalizing c c' ws with
  | nil =>
    cases hc
    exact ⟨c', rfl, h, rfl, rfl, rfl, rfl⟩
  | cons hr _ ih =>
    cases ws with
    | nil =>
      cases hc
      exact ⟨c', rfl, h, rfl, rfl, rfl, rfl⟩
    | cons w ws =>
      rw [List.zip_cons_cons, List.foldlM_cons, bind_eq_ok_iff] at hc
      obtain ⟨c₂, hwrite, hc⟩ := hc
      obtain ⟨c₂', hwrite', h₂, hblock, hpos, hblock', hpos'⟩ := h.write hm hr hwrite
      obtain ⟨c₁', hc', h₁, hblock₁, hpos₁, hblock₁', hpos₁'⟩ := ih h₂ hc
      refine ⟨c₁', ?_, h₁, hblock₁.trans hblock, hpos₁.trans hpos, hblock₁'.trans hblock',
        hpos₁'.trans hpos'⟩
      rw [List.zip_cons_cons, List.foldlM_cons, hwrite']
      exact hc'

/-! ## Instructions -/

theorem Alike.typeOf (hm : m.Pairs π m') (hr : π.regs r r') {ty : Ty} (h : m.typeOf r = .ok ty) :
    m'.typeOf r' = .ok ty := by
  obtain ⟨ty', hty, hty'⟩ := hm.reg hr
  rw [Machine.typeOf_eq_ok] at h ⊢
  rw [hty] at h
  exact hty'.trans h

/-- An instruction has the same value on both sides. -/
theorem Alike.value (hm : m.Pairs π m') (h : c.Alike π m m' c') {i i' : Inst}
    (hi : i.Pairs π.regs i') (hw : m.value c i = .ok w) : m'.value c' i' = .ok w := by
  cases hi with
  | iconst | fconst => exact hw
  | context =>
    rw [← hw]
    exact congrArg Except.ok hm.context.symm
  | frame =>
    rw [← hw]
    exact congrArg Except.ok hm.frame.symm
  | binary op ty hl hr | overflows op ty hl hr | fbinary op hl hr | fcmp cc hl hr =>
    simp only [Machine.value, bind_eq_ok_iff] at hw ⊢
    obtain ⟨x, hx, y, hy, hw⟩ := hw
    exact ⟨x, h.read hl hx, y, h.read hr hy, hw⟩
  | unary op ty hr | funary op hr | extend signed hr | truncate hr | doubleToInt ty hr =>
    simp only [Machine.value, bind_eq_ok_iff] at hw ⊢
    obtain ⟨x, hx, hw⟩ := hw
    exact ⟨x, h.read hr hx, hw⟩
  | icmp cc hl hr =>
    simp only [Machine.value, bind_eq_ok_iff] at hw ⊢
    obtain ⟨ty, hty, x, hx, y, hy, hw⟩ := hw
    exact ⟨ty, typeOf hm hl hty, x, h.read hl hx, y, h.read hr hy, hw⟩
  | select hc hl hr =>
    simp only [Machine.value, bind_eq_ok_iff] at hw ⊢
    obtain ⟨x, hx, hw⟩ := hw
    refine ⟨x, h.read hc hx, ?_⟩
    split at hw
    · rename_i hx
      rw [if_pos hx]
      exact h.read hl hw
    · rename_i hx
      rw [if_neg hx]
      exact h.read hr hw
  | intToDouble signed hr =>
    simp only [Machine.value, bind_eq_ok_iff] at hw ⊢
    obtain ⟨ty, hty, x, hx, hw⟩ := hw
    exact ⟨ty, typeOf hm hr hty, x, h.read hr hx, hw⟩
  | bitcastToInt hr | bitcastToDouble hr => exact h.read hr hw
  | load ty width signed offset hr =>
    simp only [Machine.value, bind_eq_ok_iff] at hw ⊢
    obtain ⟨x, hx, hw⟩ := hw
    exact ⟨x, h.read hr hx, by rw [← h.memory]; exact hw⟩
  | store | call | patchpoint => exact hw

/-- An instruction does the same on both sides. -/
theorem Alike.execute (hm : m.Pairs π m') (h : c.Alike π m m' c') {i i' : Inst}
    (hi : i.Pairs π.regs i') {o : Option Word} (hx : m.execute c i = .ok (o, c₁)) :
    ∃ c₁', m'.execute c' i' = .ok (o, c₁') ∧ c₁.Alike π m m' c₁' ∧
      c₁.block = c.block ∧ c₁.position = c.position ∧ c₁'.block = c'.block ∧
      c₁'.position = c'.position := by
  by_cases hplain : i.isPlain = true
  · have hplain' : i'.isPlain = true := by cases hi <;> first | rfl | cases hplain
    rw [Machine.execute_plain hplain, bind_eq_ok_iff] at hx
    obtain ⟨w, hw, hx⟩ := hx
    cases hx
    refine ⟨c', ?_, h, rfl, rfl, rfl, rfl⟩
    rw [Machine.execute_plain hplain', h.value hm hi hw]
    rfl
  · cases hi with
    | store width offset hv hr =>
      simp only [Machine.execute, bind_eq_ok_iff] at hx ⊢
      obtain ⟨x, hx, y, hy, hc⟩ := hx
      cases hc
      exact ⟨_, ⟨x, h.read hr hx, y, h.read hv hy, rfl⟩, { h with memory := by rw [h.memory] }, rfl,
        rfl, rfl, rfl⟩
    | call helper hargs =>
      simp only [Machine.execute, bind_eq_ok_iff] at hx ⊢
      obtain ⟨ws, hws, hc⟩ := hx
      rw [hm.runtime, h.memory, h.runtimeState] at hc
      cases hc
      exact ⟨_, ⟨ws, h.readAll hargs hws, rfl⟩, { h with memory := rfl, runtimeState := rfl }, rfl,
        rfl, rfl, rfl⟩
    | patchpoint site hargs =>
      simp only [Machine.execute, bind_eq_ok_iff] at hx ⊢
      obtain ⟨ws, hws, hc⟩ := hx
      rw [hm.runtime, h.memory, h.runtimeState] at hc
      cases hc
      exact ⟨_, ⟨ws, h.readAll hargs hws, rfl⟩, { h with memory := rfl, runtimeState := rfl }, rfl,
        rfl, rfl, rfl⟩
    | _ => exact absurd rfl hplain

theorem Alike.moved (h : c.Alike π m m' c') (p p' : BlockId) (k k' : Nat) :
    Alike π m { c with block := p, position := k } m' { c' with block := p', position := k' } :=
  ⟨h.size, h.size', h.regs, h.left, h.right, h.memory, h.runtimeState⟩

/-- An instruction is executed on both sides. -/
theorem Alike.stepInst (hm : m.Pairs π m') (h : c.Alike π m m' c') {d d' : InstData}
    (hi : d.inst.Pairs π.regs d'.inst) (hr : Option.Rel π.regs d.result d'.result)
    (hx : m.stepInst c d = .ok c₁) :
    ∃ c₁', m'.stepInst c' d' = .ok c₁' ∧ c₁.Alike π m m' c₁' ∧
      c₁.block = c.block ∧ c₁.position = c.position + 1 ∧ c₁'.block = c'.block ∧
      c₁'.position = c'.position + 1 := by
  obtain ⟨i, result⟩ := d
  obtain ⟨i', result'⟩ := d'
  rw [Machine.stepInst, bind_eq_ok_iff] at hx
  obtain ⟨⟨o, c₂⟩, hexec, hx⟩ := hx
  obtain ⟨c₂', hexec', h₂, hblock, hpos, hblock', hpos'⟩ := h.execute hm hi hexec
  have hmoved := h₂.moved c₂.block c₂'.block (c₂.position + 1) (c₂'.position + 1)
  rw [Machine.stepInst, hexec']
  cases hr with
  | none =>
    cases hx
    exact ⟨_, rfl, hmoved, hblock, congrArg _ hpos, hblock', congrArg _ hpos'⟩
  | some hr =>
    cases o with
    | none =>
      cases hx
      exact ⟨_, rfl, hmoved, hblock, congrArg _ hpos, hblock', congrArg _ hpos'⟩
    | some w =>
      dsimp only at hx
      rw [bind_eq_ok_iff] at hx
      obtain ⟨ty, hty, hwrite⟩ := hx
      obtain ⟨c₁', hwrite', h₁, hblock₁, hpos₁, hblock₁', hpos₁'⟩ := hmoved.write hm hr hwrite
      refine ⟨c₁', ?_, h₁, hblock₁.trans hblock, hpos₁.trans (congrArg _ hpos),
        hblock₁'.trans hblock',
        hpos₁'.trans (congrArg _ hpos')⟩
      exact bind_eq_ok_iff.2 ⟨_, rfl, bind_eq_ok_iff.2 ⟨ty, typeOf hm hr hty, hwrite'⟩⟩

/-! ## Ends of blocks -/

/-- Control goes to blocks that go together. -/
theorem Alike.enter (hm : m.Pairs π m') (h : c.Alike π m m' c') {p p' : BlockId}
    {args args' : List Reg} (hp : π.blocks p p') (hargs : List.Forall₂ π.regs args args')
    (hc : m.enter c p args = .ok c₁) :
    ∃ c₁', m'.enter c' p' args' = .ok c₁' ∧ c₁.Beside π m m' c₁' := by
  obtain ⟨blk, blk', hblk, hblk', hpairs⟩ := hm.block hp
  rw [Machine.enter, Machine.block_eq_ok.2 hblk] at hc
  rw [Machine.enter, Machine.block_eq_ok.2 hblk']
  simp only [bind, Except.bind, hpairs.params.length_eq, hargs.length_eq] at hc ⊢
  split at hc
  · cases hc
  · rename_i hlen
    rw [if_neg hlen]
    cases hws : c.readAll args with
    | error e =>
      rw [hws] at hc
      cases hc
    | ok ws =>
      rw [hws] at hc
      rw [h.readAll hargs hws]
      obtain ⟨c₁', hc', h₁, hblock, hpos, hblock', hpos'⟩ :=
        (h.moved p p' 0 0).writes hm hpairs.params hc
      refine ⟨c₁', hc', h₁, blk, blk', hblock ▸ hblk, hblock' ▸ hblk', hpairs.terminator, ?_⟩
      rw [hpos, hpos']
      exact hpairs.insts

/-- Where a dispatch goes. -/
theorem lookup_pairs {cases cases' : List (Int32 × BlockId)} {p p' : BlockId}
    (h : List.Forall₂ (fun c c' => c.1 = c'.1 ∧ π.blocks c.2 c'.2) cases cases')
    (hp : π.blocks p p') (key : Int32) :
    π.blocks ((cases.lookup key).getD p) ((cases'.lookup key).getD p') := by
  induction h with
  | nil => exact hp
  | @cons a a' _ _ ha _ ih =>
    obtain ⟨k, q⟩ := a
    obtain ⟨k', q'⟩ := a'
    obtain ⟨rfl, hq⟩ := ha
    rw [List.lookup_cons, List.lookup_cons]
    dsimp only
    cases key == k with
    | true => exact hq
    | false => exact ih

end Config

/-- The runs end in the same way: they return the same word, or leave through exits with the same
number, or both get where no code is. What was captured for the same register is the same. -/
inductive Outcome.Pairs (π : Pairing) (m m' : Machine σ) : Outcome → Outcome → Prop
  | returned (w : Word) : Pairs π m m' (.returned w) (.returned w)
  | exited {id : ExitId} {i i' : Nat} {regs regs' : List Reg} {ws ws' : List Word} : m.func.ExitsAt
    i id regs →
      m'.func.ExitsAt i' id regs' → ws.length = regs.length → ws'.length = regs'.length →
      (∀ k k', π.Captured regs regs' k k' → ∃ w, ws[k]? = some w ∧ ws'[k']? = some w) →
      Pairs π m m' (.exited id ws) (.exited id ws')
  | unreachable (p p' : BlockId) : Pairs π m m' (.unreachable p) (.unreachable p')

theorem Outcome.Pairs.flip {o o' : Outcome} (h : o.Pairs π m m' o') : o'.Pairs π.flip m' m o := by
  cases h with
  | returned w => exact .returned w
  | exited hi hi' hlength hlength' hcaptured =>
    refine .exited hi' hi hlength' hlength fun k k' hk => ?_
    obtain ⟨w, hw, hw'⟩ := hcaptured _ _ (Pairing.Captured.flip hk)
    exact ⟨w, hw', hw⟩
  | unreachable p p' => exact .unreachable p' p

/-- The run left through an exit. -/
def Outcome.IsExit (o : Outcome) : Prop := ∃ id ws, o = .exited id ws

namespace Config

/-- What the other machine does when one has taken a step: it goes on to a place beside, or it comes
to an end, too, unless it has nothing to capture there. -/
def KeepsUp (π : Pairing) (m : Machine σ) (c : Config σ) (m' : Machine σ) (c' : Config σ) :
    Progress σ → Prop
  | .running c₁ => ∃ n c₁', m'.Steps n c' c₁' ∧ c₁.Beside π m m' c₁'
  | .done o =>
    ∃ n c₁', m'.Steps n c' c₁' ∧ c.Alike π m m' c₁' ∧
      ((∃ o', m'.step c₁' = .ok (.done o') ∧ o.Pairs π m m' o') ∨
    o.IsExit ∧ ∃ r, m'.step c₁' = .error (.error (.undefined r)))

variable {blk blk' : Block} {p : Progress σ}

/-- The end of a block. -/
theorem Alike.terminator (hm : m.Pairs π m') (h : c.Alike π m m' c')
    (hblk : m.func.blocks[c.block.index]? = some blk)
    (hblk' : m'.func.blocks[c'.block.index]? = some blk') (hend' : blk'.insts[c'.position]? = none)
    (ht : blk.terminator.Pairs π blk'.terminator)
    (hstep : m.stepTerminator c blk.terminator = .ok p) :
    c.KeepsUp π m m' c' p := by
  have hstep' := Machine.step_end hblk' hend'
  -- control goes on
  have hgo {q q' : BlockId} {args args' : List Reg} {c₁ : Config σ} (hq : π.blocks q q')
    (hargs : List.Forall₂ π.regs args args')
      (hc : m.enter c q args = .ok c₁) (hc' : ∀ c₁', m'.enter c' q' args' = .ok c₁' →
        m'.stepTerminator c' blk'.terminator = .ok (.running c₁')) : c.KeepsUp π m m' c'
          (.running c₁) := by
    obtain ⟨c₁', henter, hbeside⟩ := h.enter hm hq hargs hc
    exact ⟨1, c₁', .single (hstep'.trans (hc' c₁' henter)), hbeside⟩
  -- the run ends
  have hstop {o o' : Outcome} (ho : m'.stepTerminator c' blk'.terminator = .ok (.done o'))
    (hpairs : o.Pairs π m m' o') :
      c.KeepsUp π m m' c' (.done o) := ⟨0, c', .refl c', h, .inl ⟨o', hstep'.trans ho, hpairs⟩⟩
  generalize ht₁ : blk.terminator = t at ht hstep
  generalize ht₁' : blk'.terminator = t' at ht hgo hstop
  cases ht with
  | @jump q q' args args' hq hargs =>
    rw [Machine.stepTerminator, bind_eq_ok_iff] at hstep
    obtain ⟨c₁, hc, hp⟩ := hstep
    cases hp
    exact hgo hq hargs hc fun c₁' hc' => by rw [Machine.stepTerminator, hc']; rfl
  | @branch r r' q q' o o' args args' brgs brgs' weight hr hq hargs ho hbrgs =>
    rw [Machine.stepTerminator, bind_eq_ok_iff] at hstep
    obtain ⟨w, hw, hp⟩ := hstep
    have hw' := h.read hr hw
    split at hp
    · rename_i hcond
      obtain ⟨c₁, hc, hp⟩ := bind_eq_ok_iff.1 hp
      cases hp
      refine hgo hq hargs hc fun c₁' hc' => ?_
      rw [Machine.stepTerminator, hw']
      simp only [bind, Except.bind, if_pos hcond, hc']
      rfl
    · rename_i hcond
      obtain ⟨c₁, hc, hp⟩ := bind_eq_ok_iff.1 hp
      cases hp
      refine hgo ho hbrgs hc fun c₁' hc' => ?_
      rw [Machine.stepTerminator, hw']
      simp only [bind, Except.bind, if_neg hcond, hc']
      rfl
  | @switch r r' cases cases' q q' hr hcases hq =>
    rw [Machine.stepTerminator, bind_eq_ok_iff] at hstep
    obtain ⟨w, hw, hp⟩ := hstep
    obtain ⟨c₁, hc, hp⟩ := bind_eq_ok_iff.1 hp
    cases hp
    refine hgo (lookup_pairs hcases hq (low32 w)) .nil hc fun c₁' hc' => ?_
    rw [Machine.stepTerminator, h.read hr hw]
    simp only [bind, Except.bind, hc']
    rfl
  | @ret r r' hr =>
    rw [Machine.stepTerminator, bind_eq_ok_iff] at hstep
    obtain ⟨w, hw, hp⟩ := hstep
    cases hp
    refine hstop ?_ (.returned w)
    rw [Machine.stepTerminator, h.read hr hw]
    rfl
  | exit id regs regs' =>
    rw [Machine.stepTerminator, bind_eq_ok_iff] at hstep
    obtain ⟨ws, hws, hp⟩ := hstep
    cases hp
    cases hws' : c'.readAll regs' with
    | ok ws' =>
      refine hstop ?_ <| .exited ⟨blk, hblk, ht₁⟩ ⟨blk', hblk', ht₁'⟩
        (mapM_eq_ok_iff.1 hws).length_eq.symm
        (mapM_eq_ok_iff.1 hws').length_eq.symm fun k k' hk => h.captured hws hws' hk
      rw [Machine.stepTerminator, hws']
      rfl
    | error e =>
      obtain ⟨r, rfl⟩ := readAll_error hws'
      refine ⟨0, c', .refl c', h, .inr ⟨⟨id, ws, rfl⟩, r, hstep'.trans ?_⟩⟩
      rw [ht₁', Machine.stepTerminator, hws']
      rfl
  | unreachable =>
    cases hstep
    exact hstop rfl (.unreachable _ _)

/-! ## Steps -/

theorem drop_cons {insts : Array InstData} {k : Nat} {d : InstData} {l : List InstData}
    (h : insts.toList.drop k = d :: l) :
    insts[k]? = some d ∧ insts.toList.drop (k + 1) = l := by
  constructor
  · have hd : (insts.toList.drop k)[0]? = some d := by rw [h]; rfl
    rw [List.getElem?_drop] at hd
    simpa using hd
  · rw [← List.tail_drop, h, List.tail_cons]

theorem drop_nil {insts : Array InstData} {k : Nat} (h : insts.toList.drop k = []) :
    insts[k]? = none :=
  Array.getElem?_eq_none (by simpa using List.drop_eq_nil_iff.1 h)

/-- A constant gets its register. -/
theorem stepInst_iconst {n : Int64} (hsize : c.registers.size = m.func.types.size)
    (hty : m.func.types[r.index]? = some .i32) :
    m.stepInst c ⟨.iconst .i32 n, some r⟩ =
      .ok (({ c with position := c.position + 1 } : Config σ).set r (Ty.i32.normalize n.toUInt64))
        := by
  have hlt : r.index < c.registers.size := hsize ▸ (Array.getElem?_eq_some_iff.1 hty).1
  refine bind_eq_ok_iff.2 ⟨(some n.toUInt64, c), rfl, ?_⟩
  exact bind_eq_ok_iff.2 ⟨.i32, Machine.typeOf_eq_ok.2 hty, write_eq_ok_iff.2 ⟨hlt, rfl⟩⟩

/-- What the other machine does from the next step on. -/
theorem KeepsUp.next {c₁' : Config σ} (hstep : m'.step c' = .ok (.running c₁'))
    (h : c.KeepsUp π m m' c₁' p) :
    c.KeepsUp π m m' c' p := by
  cases p with
  | running c₁ =>
    obtain ⟨n, c₂', hsteps, hbeside⟩ := h
    exact ⟨n + 1, c₂', .next hstep hsteps, hbeside⟩
  | done o =>
    obtain ⟨n, c₂', hsteps, hend⟩ := h
    exact ⟨n + 1, c₂', .next hstep hsteps, hend⟩

/-- What is left of two blocks goes together: a step of one machine is followed by the other one. -/
theorem Alike.keepsUp (hm : m.Pairs π m') (h : c.Alike π m m' c')
    (hblk : m.func.blocks[c.block.index]? = some blk)
    (hblk' : m'.func.blocks[c'.block.index]? = some blk')
    (ht : blk.terminator.Pairs π blk'.terminator) {l l' : List InstData} (hinsts : InstsPair π l l')
    (hl : blk.insts.toList.drop c.position = l) (hl' : blk'.insts.toList.drop c'.position = l')
    (hstep : m.step c = .ok p) : c.KeepsUp π m m' c' p := by
  induction hinsts generalizing c' with
  | nil =>
    rw [Machine.step_end hblk (drop_nil hl)] at hstep
    exact h.terminator hm hblk hblk' (drop_nil hl') ht hstep
  | both hi hr hrest _ =>
    obtain ⟨hd, hl⟩ := drop_cons hl
    obtain ⟨hd', hl'⟩ := drop_cons hl'
    rw [Machine.step_inst hblk hd] at hstep
    obtain ⟨c₁, hc₁, hp⟩ := bind_eq_ok_iff.1 hstep
    cases hp
    obtain ⟨c₁', hc₁', h₁, hblock, hpos, hblock', hpos'⟩ := h.stepInst hm hi hr hc₁
    refine ⟨1, c₁', .single ?_, h₁, blk, blk', hblock ▸ hblk, hblock' ▸ hblk', ht, ?_⟩
    · rw [Machine.step_inst hblk' hd', hc₁']
      rfl
    · rw [hpos, hpos', hl, hl']
      exact hrest
  | @left r n l l' hr hrest _ =>
    obtain ⟨hd, hl⟩ := drop_cons hl
    rw [Machine.step_inst hblk hd, stepInst_iconst h.size (hm.left hr).1] at hstep
    cases hstep
    have hset := (h.moved c.block c'.block (c.position + 1) c'.position).setLeft hm hr
    refine ⟨0, c', .refl c', hset, blk, blk', hblk, hblk', ht, ?_⟩
    rw [hl']
    exact hl ▸ hrest
  | @right r n l l' hr hrest ih =>
    obtain ⟨hd', hl'⟩ := drop_cons hl'
    have hstep' := Machine.step_inst hblk' hd'
    rw [stepInst_iconst h.size' (hm.right hr).1] at hstep'
    have hset :=
      ((h.moved c.block c'.block c.position (c'.position + 1)).flip.setLeft hm.flip hr).flip
    exact (ih hset hblk' hl hl').next hstep'

theorem Beside.keepsUp (hm : m.Pairs π m') (h : c.Beside π m m' c') (hstep : m.step c = .ok p) :
    c.KeepsUp π m m' c' p := by
  obtain ⟨blk, blk', hblk, hblk', ht, hinsts⟩ := h.place
  exact h.toAlike.keepsUp hm hblk hblk' ht hinsts rfl rfl hstep

/-- Any number of steps of one machine are followed by the other one. -/
theorem Beside.steps (hm : m.Pairs π m') {n : Nat} (h : c.Beside π m m' c')
    (hsteps : m.Steps n c c₁) :
    ∃ n' c₁', m'.Steps n' c' c₁' ∧ c₁.Beside π m m' c₁' := by
  induction hsteps generalizing c' with
  | refl => exact ⟨0, c', .refl c', h⟩
  | next hstep _ ih =>
    obtain ⟨k, c₂', hsteps₁, hbeside⟩ := h.keepsUp hm hstep
    obtain ⟨k', c₁', hsteps₂, h₁⟩ := ih hbeside
    exact ⟨k' + k, c₁', hsteps₁.trans hsteps₂, h₁⟩

/-- The runs start beside each other. -/
theorem start_beside (hm : m.Pairs π m') (memory : Memory) (runtimeState : σ) :
    (m.start memory runtimeState).Beside π m m' (m'.start memory runtimeState) := by
  have hnone {size i : Nat} {w : Word} : (Array.replicate size (none : Option Word))[i]?
    ≠ some (some w) := by
    rw [Array.getElem?_replicate]
    split <;> simp
  obtain ⟨blk, blk', hblk, hblk', hpairs⟩ := hm.block hm.entry
  refine ⟨⟨by
    simp [Machine.start], by simp [Machine.start], fun hr => ?_, fun _ hw => absurd hw hnone,
    fun _ hw => absurd hw hnone, rfl, rfl⟩, blk, blk', hblk, hblk', hpairs.terminator, hpairs.insts⟩
  obtain ⟨ty, hty, hty'⟩ := hm.reg hr
  have hlt := (Array.getElem?_eq_some_iff.1 hty).1
  have hlt' := (Array.getElem?_eq_some_iff.1 hty').1
  simp [Machine.start, hlt, hlt']

end Config

/-! ## Runs -/

namespace Machine.Pairs

variable {memory memory₁ : Memory} {state state₁ : σ} {o : Outcome}

/-- Where one run ends, the other one ends in the same way, unless a register that it captures there
has no value. -/
theorem follows (hm : m.Pairs π m') (h : m.EndsIn memory state o memory₁ state₁) :
    (∃ o', m'.EndsIn memory state o' memory₁ state₁ ∧ o.Pairs π m m' o') ∨ o.IsExit ∧
    m'.Lacks memory state memory₁ state₁ := by
  obtain ⟨-, n, c, hsteps, hdone, rfl, rfl⟩ := Machine.endsIn_iff.1 h
  obtain ⟨k, c₁', hsteps₁, hbeside⟩ := (Config.start_beside hm memory state).steps hm hsteps
  obtain ⟨k', c', hsteps₂, halike, hend⟩ := hbeside.keepsUp hm hdone
  have hsteps' := hsteps₁.trans hsteps₂
  obtain ⟨-, blk', -, hblk', -⟩ := hm.block hm.entry
  have hentry : 0 < m'.func.blocks.size := (Array.getElem?_eq_some_iff.1 hblk').1
  rw [halike.memory, halike.runtimeState]
  rcases hend with ⟨o', hdone', hpairs⟩ | ⟨hexit, r, hlacks⟩
  · exact .inl ⟨o', Machine.endsIn_iff.2 ⟨hentry, _, c', hsteps', hdone', rfl, rfl⟩, hpairs⟩
  · exact .inr ⟨hexit, Machine.lacks_of_steps hentry hsteps' hlacks⟩

end Machine.Pairs

end SpecJit.Lir
