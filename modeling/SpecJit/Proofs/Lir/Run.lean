import SpecJit.Lir.Eval
import SpecJit.Proofs.Results

/-!
# Runs of low-level code

`Machine.Steps n c c'`: `n` steps lead from `c` to `c'` without ending the run. The fuelled loop
`runFrom` ends with an outcome exactly if few enough steps lead to a configuration whose next step
has that outcome (`runFrom_result_iff`), which is at the end of a block whose terminator gives the
outcome (`step_done_iff`). The outcome `unreachable` comes from blocks with that terminator only
(`run_unreachable_iff`).
-/

namespace SpecJit.Lir

/-- The instruction only computes a value. -/
def Inst.isPlain : Inst → Bool
  | .store _ _ _ _ | .call _ _ | .patchpoint _ _ => false
  | _ => true

/-- Block `i` ends in an exit that captures `regs`. -/
def Function.ExitsAt (f : Function) (i : Nat) (id : ExitId) (regs : List Reg) : Prop :=
  ∃ blk, f.blocks[i]? = some blk ∧ blk.terminator = .exit id regs

namespace Machine

variable {σ : Type} {m : Machine σ} {c c' c'' : Config σ} {n k : Nat}

/-- A number of steps that do not end the run. -/
inductive Steps (m : Machine σ) : Nat → Config σ → Config σ → Prop
  | refl (c : Config σ) : Steps m 0 c c
  | next {n : Nat} {c c' c'' : Config σ} : m.step c = .ok (.running c') → Steps m n c' c'' →
    Steps m (n + 1) c c''

theorem Steps.single (h : m.step c = .ok (.running c')) : m.Steps 1 c c' := .next h (.refl c')

theorem Steps.trans (h₁ : m.Steps n c c') (h₂ : m.Steps k c' c'') : m.Steps (k + n) c c'' := by
  induction h₁ with
  | refl => exact h₂
  | next hs _ ih => exact .next hs (ih h₂)

/-- Where a number of steps lead. -/
def advance (m : Machine σ) : Nat → Config σ → Option (Config σ)
  | 0, c => some c
  | n + 1, c =>
    match m.step c with
    | .ok (.running c) => m.advance n c
    | _ => none

theorem Steps.of_advance {n : Nat} (h : m.advance n c = some c') : m.Steps n c c' := by
  induction n generalizing c with
  | zero => cases h; exact .refl _
  | succ n ih =>
    rw [advance] at h
    split at h
    · rename_i c₁ hs
      exact .next hs (ih h)
    · cases h

/-- The loop ends with an outcome if and only if steps within its bound lead to it. It leaves behind
what was there before the last step. -/
theorem runFrom_eq_ok_iff {limit left : Nat} {o : Outcome} {memory : Memory} {state : σ} :
    m.runFrom limit left c = ⟨.ok o, memory, state⟩ ↔
      ∃ n < left, ∃ c', m.Steps n c c' ∧ m.step c' = .ok (.done o) ∧ c'.memory = memory ∧
      c'.runtimeState = state := by
  induction left generalizing c with
  | zero => simp [runFrom]
  | succ left ih =>
    constructor
    · intro h
      rw [runFrom] at h
      split at h
      · cases h
      · rename_i o' hs
        cases h
        exact ⟨0, by omega, c, .refl c, hs, rfl, rfl⟩
      · rename_i c₁ hs
        obtain ⟨n, hn, c', hsteps, hdone⟩ := ih.1 h
        exact ⟨n + 1, by omega, c', .next hs hsteps, hdone⟩
    · rintro ⟨n, hn, c', hsteps, hdone, hmemory, hstate⟩
      rw [runFrom]
      cases hsteps with
      | refl => rw [hdone, hmemory, hstate]
      | next hs hrest =>
        rw [hs]
        exact ih.2 ⟨_, by omega, c', hrest, hdone, hmemory, hstate⟩

theorem runFrom_result_iff {limit left : Nat} {o : Outcome} :
    (m.runFrom limit left c).result = .ok o ↔
      ∃ n < left, ∃ c', m.Steps n c c' ∧ m.step c' = .ok (.done o) := by
  constructor
  · intro h
    obtain ⟨n, hn, c', hsteps, hdone, -⟩ :=
      runFrom_eq_ok_iff.1 (show m.runFrom limit left c = ⟨.ok o, _, _⟩ by rw [← h])
    exact ⟨n, hn, c', hsteps, hdone⟩
  · rintro ⟨n, hn, c', hsteps, hdone⟩
    rw [runFrom_eq_ok_iff.2 ⟨n, hn, c', hsteps, hdone, rfl, rfl⟩]

theorem runFrom_steps {limit : Nat} (h : m.Steps n c c') (left : Nat) :
    m.runFrom limit (left + n) c = m.runFrom limit left c' := by
  induction h with
  | refl => rfl
  | next hs _ ih =>
    rw [← Nat.add_assoc, runFrom, hs]
    exact ih

/-- The run ends with an outcome and leaves the memory and the state of the runtime behind. -/
def EndsIn (m : Machine σ) (memory : Memory) (state : σ) (o : Outcome) (memory' : Memory)
    (state' : σ) : Prop :=
  ∃ limit, m.run limit memory state = ⟨.ok o, memory', state'⟩

/-- The run fails as it reads a register that has no value. -/
def Lacks (m : Machine σ) (memory : Memory) (state : σ) (memory' : Memory) (state' : σ) : Prop :=
  ∃ limit r, m.run limit memory state = ⟨.error (.error (.undefined r)), memory', state'⟩

/-! ## Instructions -/

theorem execute_plain {inst : Inst} (h : inst.isPlain = true) :
    m.execute c inst = (do return (some (← m.value c inst), c)) := by
  cases inst <;> first | rfl | cases h

/-! ## Ends of blocks -/

/-- Control stands behind the last instruction of a block. -/
structure AtEnd (m : Machine σ) (b : BlockId) (blk : Block) (c : Config σ) : Prop where
  block : c.block = b
  found : m.func.blocks[b.index]? = some blk
  position : blk.insts[c.position]? = none

theorem mapError_ofOption {α β : Type} {e : Fault → β} {x : Option α} {a : α} :
    (Fault.ofOption x).mapError e = .ok a ↔ x = some a := by
  cases x with
  | none => constructor <;> intro h <;> cases h
  | some a' => constructor <;> intro h <;> cases h <;> rfl

theorem block_eq_ok {b : BlockId} {blk : Block} :
    m.block b = .ok blk ↔ m.func.blocks[b.index]? = some blk := by
  unfold block Function.block
  exact mapError_ofOption

theorem typeOf_eq_ok {r : Reg} {ty : Ty} :
    m.typeOf r = .ok ty ↔ m.func.types[r.index]? = some ty := by
  unfold typeOf Function.typeOf
  exact mapError_ofOption

theorem step_inst {blk : Block} {d : InstData} (hblk : m.func.blocks[c.block.index]? = some blk)
    (hd : blk.insts[c.position]? = some d) :
    m.step c = (do return .running (← m.stepInst c d)) := by
  rw [step, block_eq_ok.2 hblk]
  simp only [bind, Except.bind, hd]

theorem step_end {blk : Block} (hblk : m.func.blocks[c.block.index]? = some blk)
    (hend : blk.insts[c.position]? = none) :
    m.step c = m.stepTerminator c blk.terminator := by
  rw [step, block_eq_ok.2 hblk]
  simp only [bind, Except.bind, hend]

/-- The terminator ends a run with the outcome. -/
inductive Ends (c : Config σ) : Terminator → Outcome → Prop
  | ret {v : Reg} {w : Word} : c.read v = .ok w → Ends c (.ret v) (.returned w)
  | exit {id : ExitId} {regs : List Reg} {ws : List Word} : c.readAll regs = .ok ws →
    Ends c (.exit id regs) (.exited id ws)
  | unreachable : Ends c .unreachable (.unreachable c.block)

theorem stepTerminator_done_iff {t : Terminator} {o : Outcome} :
    m.stepTerminator c t = .ok (.done o) ↔ Ends c t o := by
  constructor
  · intro h
    cases t with
    | jump target args =>
      simp only [stepTerminator] at h
      cases he : m.enter c target args <;> rw [he] at h <;> cases h
    | branch cond taken takenArgs notTaken notTakenArgs weight =>
      simp only [stepTerminator] at h
      cases hw : c.read cond with
      | error e =>
        rw [hw] at h
        cases h
      | ok w =>
        simp only [hw, bind, Except.bind] at h
        split at h
        · cases he : m.enter c taken takenArgs <;> rw [he] at h <;> cases h
        · cases he : m.enter c notTaken notTakenArgs <;> rw [he] at h <;> cases h
    | switch value cases fallback =>
      simp only [stepTerminator] at h
      cases hw : c.read value with
      | error e =>
        rw [hw] at h
        cases h
      | ok w =>
        simp only [hw, bind, Except.bind] at h
        cases he : m.enter c ((cases.lookup (low32 w)).getD fallback) [] <;> rw [he] at h <;>
          cases h
    | ret value =>
      simp only [stepTerminator] at h
      cases hw : c.read value <;> rw [hw] at h <;> cases h
      exact .ret hw
    | exit id regs =>
      simp only [stepTerminator] at h
      cases hws : c.readAll regs <;> rw [hws] at h <;> cases h
      exact .exit hws
    | unreachable =>
      cases h
      exact .unreachable
  · intro h
    cases h with
    | ret hw => rw [stepTerminator, hw]; rfl
    | exit hws => rw [stepTerminator, hws]; rfl
    | unreachable => rfl

/-- A step ends a run exactly at the end of a block with a terminator that does. -/
theorem step_done_iff {o : Outcome} :
    m.step c = .ok (.done o) ↔ ∃ blk, m.AtEnd c.block blk c ∧ Ends c blk.terminator o := by
  unfold step
  cases hb : m.block c.block with
  | error e =>
    simp only [bind, Except.bind, reduceCtorEq, false_iff, not_exists, not_and]
    intro blk h
    have hok := block_eq_ok.2 h.found
    rw [hb] at hok
    cases hok
  | ok blk =>
    simp only [bind, Except.bind]
    have hfound := block_eq_ok.1 hb
    cases hi : blk.insts[c.position]? with
    | some i =>
      constructor
      · intro h
        simp only [] at h
        cases hs : m.stepInst c i <;> rw [hs] at h <;> cases h
      · rintro ⟨blk', h, -⟩
        obtain rfl : blk = blk' := Option.some.inj (hfound.symm.trans h.found)
        rw [h.position] at hi
        cases hi
    | none =>
      rw [stepTerminator_done_iff]
      constructor
      · exact fun h => ⟨blk, ⟨rfl, hfound, hi⟩, h⟩
      · rintro ⟨blk', h, hends⟩
        obtain rfl : blk = blk' := Option.some.inj (hfound.symm.trans h.found)
        exact hends

/-- A step ends in `unreachable` exactly at the end of a block with that terminator. -/
theorem step_eq_unreachable {b : BlockId} :
    m.step c = .ok (.done (.unreachable b)) ↔ ∃ blk, m.AtEnd b blk c ∧
    blk.terminator = .unreachable := by
  rw [step_done_iff]
  constructor
  · rintro ⟨blk, hend, hends⟩
    generalize ht : blk.terminator = t at hends
    cases hends
    exact ⟨blk, hend, ht⟩
  · rintro ⟨blk, hend, ht⟩
    obtain rfl := hend.block
    exact ⟨blk, hend, ht ▸ .unreachable⟩

theorem run_of_entry {limit : Nat} {memory : Memory} {state : σ} (hentry : 0 < m.func.blocks.size) :
    m.run limit memory state = m.runFrom limit limit (m.start memory state) := by
  have hb : m.block ⟨0⟩ = .ok m.func.blocks[0] := block_eq_ok.2 (Array.getElem?_eq_getElem hentry)
  rw [run, hb]

theorem run_of_not_entry {limit : Nat} {memory : Memory} {state : σ}
    (hentry : ¬ 0 < m.func.blocks.size) :
    m.run limit memory state = ⟨.error (.fault .outOfRange), memory, state⟩ := by
  have hb : m.block ⟨0⟩ = .error (.fault .outOfRange) := by
    have hnone : m.func.blocks[0]? = none := Array.getElem?_eq_none (Nat.le_of_not_lt hentry)
    simp [block, Function.block, Fault.ofOption, hnone, Except.mapError]
  rw [run, hb]

theorem endsIn_iff {memory memory' : Memory} {state state' : σ} {o : Outcome} :
    m.EndsIn memory state o memory' state' ↔ 0 < m.func.blocks.size ∧
      ∃ n c, m.Steps n (m.start memory state) c ∧ m.step c = .ok (.done o) ∧ c.memory = memory' ∧
      c.runtimeState = state' := by
  by_cases hentry : 0 < m.func.blocks.size
  · simp only [EndsIn, run_of_entry hentry, runFrom_eq_ok_iff, hentry, true_and]
    constructor
    · rintro ⟨limit, n, -, c, h⟩
      exact ⟨n, c, h⟩
    · rintro ⟨n, c, h⟩
      exact ⟨n + 1, n, Nat.lt_succ_self n, c, h⟩
  · simp [EndsIn, run_of_not_entry hentry, hentry]

/-- A run fails where a register is read that has no value. -/
theorem lacks_of_steps {memory : Memory} {state : σ} {r : Reg} (hentry : 0 < m.func.blocks.size)
    (hsteps : m.Steps n (m.start memory state) c)
    (hstep : m.step c = .error (.error (.undefined r))) :
    m.Lacks memory state c.memory c.runtimeState :=
  ⟨1 + n, r, by rw [run_of_entry hentry, runFrom_steps hsteps, runFrom, hstep]⟩

/-- A run ends with an outcome at the end of a block with a terminator that gives it. -/
theorem run_ok {limit : Nat} {memory : Memory} {runtimeState : σ} {o : Outcome}
    (h : (m.run limit memory runtimeState).result = .ok o) :
    ∃ n < limit, ∃ c blk, m.Steps n (m.start memory runtimeState) c ∧ m.AtEnd c.block blk c ∧
      Ends c blk.terminator o := by
  rw [run] at h
  split at h
  · cases h
  · obtain ⟨n, hn, c, hsteps, hdone⟩ := runFrom_result_iff.1 h
    obtain ⟨blk, hend, hends⟩ := step_done_iff.1 hdone
    exact ⟨n, hn, c, blk, hsteps, hend, hends⟩

/-- A run that exits does so where the function has the exit, with a value for each register that is
captured there. -/
theorem run_exited {limit : Nat} {memory : Memory} {runtimeState : σ} {id : ExitId}
    {values : List Word} (h : (m.run limit memory runtimeState).result = .ok (.exited id values)) :
    ∃ i regs, m.func.ExitsAt i id regs ∧ values.length = regs.length := by
  obtain ⟨n, -, c, blk, -, hend, hends⟩ := run_ok h
  generalize ht : blk.terminator = t at hends
  cases hends with
  | @exit _ regs _ hread =>
    exact ⟨_, regs, ⟨blk, hend.found, ht⟩, (mapM_eq_ok_iff.1 hread).length_eq.symm⟩

/-- In fewer than `limit` steps the run comes to the end of a block. -/
def ComesToEnd (m : Machine σ) (limit : Nat) (memory : Memory) (runtimeState : σ) (b : BlockId) :
    Prop :=
  ∃ n < limit, ∃ c blk, m.Steps n (m.start memory runtimeState) c ∧ m.AtEnd b blk c

/-- A run ends in `unreachable` exactly if it comes to the end of a block with that terminator. -/
theorem run_unreachable_iff {limit : Nat} {memory : Memory} {runtimeState : σ} {b : BlockId}
    (hentry : 0 < m.func.blocks.size) :
    (m.run limit memory runtimeState).result = .ok (.unreachable b) ↔
      m.ComesToEnd limit memory runtimeState b ∧
        ∃ blk, m.func.blocks[b.index]? = some blk ∧ blk.terminator = .unreachable := by
  have hb : m.block ⟨0⟩ = .ok m.func.blocks[0] := block_eq_ok.2 (Array.getElem?_eq_getElem hentry)
  rw [run, hb]
  simp only []
  rw [runFrom_result_iff]
  constructor
  · rintro ⟨n, hn, c, hsteps, hdone⟩
    obtain ⟨blk, hend, ht⟩ := step_eq_unreachable.1 hdone
    exact ⟨⟨n, hn, c, blk, hsteps, hend⟩, blk, hend.found, ht⟩
  · rintro ⟨⟨n, hn, c, blk, hsteps, hend⟩, blk', hfound, ht⟩
    obtain rfl : blk' = blk := by simpa [hend.found] using hfound.symm
    exact ⟨n, hn, c, hsteps, step_eq_unreachable.2 ⟨blk', hend, ht⟩⟩

end Machine

end SpecJit.Lir
