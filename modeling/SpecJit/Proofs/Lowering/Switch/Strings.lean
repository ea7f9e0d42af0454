import SpecJit.Proofs.Lowering.DeadEnds
import SpecJit.Proofs.Lowering.Elements
import SpecJit.Proofs.Lowering.Scoped.Prologue
import SpecJit.Proofs.Lowering.Switch.Cases

/-!
# Where a string switch goes

The code of a string switch gets to the target of the first case that is equal to the string, or to
the fall-through (`switchString_reaches`). It compares the characters itself if the cases are short
and the string has characters of 8 bits, and asks the runtime otherwise.

Switches leave blocks pending and come back to them later. `Awaits` says that a builder has pending
blocks which are still empty, so that control that was sent to one of them is at its open end once
the lowering goes on there.
-/

namespace SpecJit

open Lir

/-! ## Strings in memory -/

namespace Cell

variable (layout : ObjectLayout) (memory : Memory)

/-- A field of a cell or of the characters of a string. -/
def field (cell : Word) (f : CellField) (bytes : Nat) : Word :=
  memory.read (Machine.address cell (Int32.ofInt (layout.fieldOffset f))) bytes

/-- The address of what a string consists of; 0 if it is a rope. -/
def stringImpl (cell : Word) : Word := field layout memory cell .stringImpl 8

/-- The string is no rope, and its characters have 8 bits each. -/
def isOneByte (cell : Word) : Bool :=
  let impl := stringImpl layout memory cell
  impl != 0 && (field layout memory impl .stringImplFlags 4).toUInt32 &&& 1 != 0

/-- The characters of a string that have 8 bits each. -/
def characters (cell : Word) : List UInt8 :=
  let impl := stringImpl layout memory cell
  memory.readBytes (field layout memory impl .stringImplData 8)
    (field layout memory impl .stringImplLength 4).toUInt32.toNat

end Cell

namespace Lir

variable {σ : Type} {m : Machine σ} {b b' b'' : Builder} {c c' : Config σ} {p q : BlockId}
  {u : Unit} {w : Word} {ty : Ty}

/-! ## Going to blocks -/

/-- The block takes no values. -/
def Machine.Plain (m : Machine σ) (p : BlockId) : Prop :=
  ∃ blk, m.block p = .ok blk ∧ blk.params = []

theorem Builder.Waits.plain (h : b.Waits p []) (hm : b.Completes m.func) : m.Plain p := h.found hm

/-- The code leads to the head of a block, and the registers of the builder are as before. -/
def Machine.Heads (m : Machine σ) (b : Builder) (c : Config σ) (p : BlockId) : Prop :=
  ∃ n c', m.Steps n c c' ∧ c'.block = p ∧ c'.position = 0 ∧
    ∀ i < b.func.types.size, c'.registers[i]? = c.registers[i]?

/-- Code that runs up to code that leads to a block. -/
theorem Machine.Runs.heads {Q : Config σ → Prop} (h : m.Runs b c b' Q) (e : b.Extends b')
    (k : ∀ c', m.At b' c' → c.Follows b c' b' → Q c' → m.Heads b' c' p) : m.Heads b c p := by
  obtain ⟨c₁, hgoes, hc₁, hk, hq⟩ := h
  obtain ⟨n, hn⟩ := hgoes.steps
  obtain ⟨n', c₂, hn', hblock, hpos, hregs⟩ := k c₁ hc₁ ⟨e, hk⟩ hq
  refine ⟨_, c₂, hn.trans hn', hblock, hpos, fun i hi => ?_⟩
  rw [hregs i (Nat.lt_of_lt_of_le hi e.types_size_le), hk.registers i hi]

/-- A step to the head of a block, from where the code goes on. -/
theorem Machine.Heads.next (hs : m.step c = .ok (.running { c with block := q, position := 0 }))
    (h : m.Heads b' { c with block := q, position := 0 } p) (e : b.Extends b') : m.Heads b c p := by
  obtain ⟨n, c', hn, hblock, hpos, hregs⟩ := h
  exact ⟨_, c', .next hs hn, hblock, hpos,
    fun i hi => hregs i (Nat.lt_of_lt_of_le hi e.types_size_le)⟩

theorem Machine.Heads.grow (h : m.Heads b' c p) (e : b.Extends b') : m.Heads b c p := by
  obtain ⟨n, c', hn, hblock, hpos, hregs⟩ := h
  exact ⟨n, c', hn, hblock, hpos, fun i hi => hregs i (Nat.lt_of_lt_of_le hi e.types_size_le)⟩

/-- Going to another block keeps registers and memory. -/
theorem Config.Follows.jump (e : b.Extends b') (q : BlockId) :
    c.Follows b { c with block := q, position := 0 } b' :=
  ⟨e, fun _ _ => rfl, rfl⟩

theorem Machine.Heads.here (hs : m.step c = .ok (.running { c with block := p, position := 0 })) :
    m.Heads b c p :=
  ⟨1, _, .single hs, rfl, rfl, fun _ _ => rfl⟩

/-- A branch goes to one of two blocks. -/
theorem Machine.At.branch {cond : Reg} {weight : BranchWeight} {target : BlockId} (hc : m.At b c)
    (h : Emit.branch cond p q weight b = .ok (u, b')) (hm : b'.Completes m.func)
    (hcond : c.Has b cond ty w) (ht : (if w.toUInt32 ≠ 0 then p else q) = target)
    (hplain : m.Plain target) :
    m.step c = .ok (.running { c with block := target, position := 0 }) := by
  obtain ⟨hstep, -⟩ := terminate_step h hm hc
  obtain ⟨blk, hblk, hparams⟩ := hplain
  rw [hstep]
  by_cases hz : w.toUInt32 = 0
  · obtain rfl : q = target := by simpa [hz] using ht
    simp [stepTerminator, hcond.read, hz, enter_nil hblk hparams, bind, Except.bind, pure,
      Except.pure]
  · obtain rfl : p = target := by simpa [hz] using ht
    simp [stepTerminator, hcond.read, hz, enter_nil hblk hparams, bind, Except.bind, pure,
      Except.pure]

/-- A switch goes to the block of its key. -/
theorem Machine.At.switch {value : Reg} {cases : List (Int32 × BlockId)} {fallback : BlockId}
    (hc : m.At b c) (h : Emit.switch value cases fallback b = .ok (u, b'))
    (hm : b'.Completes m.func) (hvalue : c.Has b value ty w)
    (hp : (cases.lookup (low32 w)).getD fallback = p) (hplain : m.Plain p) :
    m.step c = .ok (.running { c with block := p, position := 0 }) := by
  obtain ⟨hstep, -⟩ := terminate_step h hm hc
  obtain ⟨blk, hblk, hparams⟩ := hplain
  rw [hstep]
  simp [stepTerminator, hvalue.read, hp, enter_nil hblk hparams, bind, Except.bind, pure,
    Except.pure]

theorem Machine.At.jump (hc : m.At b c) (h : Emit.jump p [] b = .ok (u, b'))
    (hm : b'.Completes m.func) (hplain : m.Plain p) :
    m.step c = .ok (.running { c with block := p, position := 0 }) := by
  obtain ⟨hstep, -⟩ := terminate_step h hm hc
  obtain ⟨blk, hblk, hparams⟩ := hplain
  rw [hstep]
  simp [stepTerminator, enter_nil hblk hparams, bind, Except.bind, pure, Except.pure]

/-- A block made on the side does not move control. -/
theorem Machine.At.addClosed (hc : m.At b c) {t : Terminator} (ht : t ≠ .unreachable) :
    m.At (b.addClosed t) c where
  wf := (Builder.addClosed_emits hc.wf ht).after
  isOpen := by
    have hne := Nat.ne_of_lt hc.wf.current
    exact (Builder.addClosed_terminated hc.wf t hne).trans hc.isOpen
  block := hc.block
  position blk hb := hc.position blk (by rwa [← Builder.addClosed_getElem? t hc.wf.current])
  registers := hc.registers

theorem Builder.addClosed_isClosed (hw : b.WellFormed) (t : Terminator) :
    (b.addClosed t).IsClosed b.func.blocks.size := by
  simp [IsClosed, addClosed, goTo, close, addBlock, ← hw.flags]

/-- The runtime gives the number of the first case of a table that matches a string, or -1. -/
def Machine.LooksUp (m : Machine σ) (data : SwitchData) (memory : Memory) (string : Word)
    (isMatch : SwitchCase → Bool) : Prop :=
  ∀ t, low32 (m.runtime.callHelper .switchStringLookup [UInt64.ofNat data.tableIndex, string] t
    memory).1 =
    match data.cases.findIdx? isMatch with
    | some i => Int32.ofNat i
    | none => -1

end Lir

namespace Lowering

variable {α : Type} {σ : Type} {m : Machine σ} {c c' : Config σ} {env : Env} {s₀ s s' s'' : State}
  {u : Unit} {P : List BlockId} {p : BlockId} {w : Word}

/-! ## Pending blocks -/

/-- The steps from `b` to `b'` leave the blocks `P` pending, and these are empty. -/
structure Awaits (b : Builder) (P : List BlockId) (b' : Builder) : Prop extends b.Emits P b' where
  waits : ∀ p ∈ P, b'.Waits p []

namespace Awaits

theorem refl {b : Builder} (hw : b.WellFormed) : Awaits b [] b := ⟨.refl hw, nofun⟩

theorem emits {b b' b'' : Builder} (a : Awaits b P b') (e : b'.Emits [] b'') : Awaits b P b'' :=
  ⟨a.toEmits.trans e, fun p hp => (a.waits p hp).emits e (a.pending p hp).2.2⟩

theorem createBlock {b b' b'' : Builder} {cold : Bool} (a : Awaits b P b')
    (h : Emit.createBlock cold b' = .ok (p, b'')) :
    Awaits b (P ++ [p]) b'' := by
  have made := createBlock_made h a.after
  refine ⟨made.after a.toEmits, fun q hq => ?_⟩
  rcases List.mem_append.1 hq with hq | hq
  · exact (a.waits q hq).emits made.emits (a.pending q hq).2.2
  · obtain rfl := List.mem_singleton.1 hq
    exact made.waits

theorem goTo {b b' : Builder} (a : Awaits b P b') (hc : b'.IsClosed b'.current.index) (hp : p ∈ P) :
    Awaits b (P.erase p) (b'.goTo p) :=
  ⟨a.toEmits.goTo hc hp, fun q hq => (a.waits q (List.mem_of_mem_erase hq)).goTo⟩

theorem goTo_last {b b' : Builder} (a : Awaits b (P ++ [p]) b') (hc : b'.IsClosed b'.current.index)
    :
    Awaits b P (b'.goTo p) := by
  have a' := a.goTo hc (p := p) (by simp)
  have hp : p ∉ P := fun hm => (List.nodup_append.1 a.distinct).2.2 p hm p (by simp) rfl
  simpa [List.erase_append_right _ hp] using a'

end Awaits

/-- Control that was sent to a pending block is at the end of the builder that goes on there. -/
theorem Awaits.at {b b' b'' : Builder} (a : Awaits b P b') (hp : p ∈ P) (hc : m.At b'' c) :
    m.At (b'.goTo p) { c with block := p, position := 0 } :=
  (a.waits p hp).at a.after rfl rfl hc.registers

/-! ## Keys of switches -/

theorem ofNat_inj {a b : Nat} (ha : a < 0x100000000) (hb : b < 0x100000000)
    (h : Int32.ofNat a = Int32.ofNat b) :
    a = b := by
  have hmod := congrArg (fun x : Int32 => x.toBitVec.toNat) h
  simp only [Int32.toBitVec_ofNat', BitVec.toNat_ofNat] at hmod
  omega

/-- Keys of 32 bits are told apart by their numbers. -/
theorem lookup_ofNat {β : Type} {l : List (Nat × β)} {k : Nat} (hl : ∀ a ∈ l, a.1 < 0x100000000)
    (hk : k < 0x100000000) :
    (l.map fun a => (Int32.ofNat a.1, a.2)).lookup (Int32.ofNat k) = l.lookup k := by
  induction l with
  | nil => rfl
  | cons a l ih =>
    have ih := ih fun b hb => hl b (by simp [hb])
    rw [List.map_cons, List.lookup_cons, List.lookup_cons, ih]
    by_cases ha : k = a.1
    · simp [ha]
    · have hne : (Int32.ofNat k == Int32.ofNat a.1) = false := by
        rw [beq_eq_false_iff_ne]
        exact fun h => ha (ofNat_inj hk (hl a (by simp)) h)
      rw [hne, beq_eq_false_iff_ne.2 ha]

/-- The number of a case stands for the case. -/
theorem lookup_zipIdx {β : Type} (f : α → β) (l : List α) (k n : Nat) :
    ((l.zipIdx n).map fun a => (a.2, f a.1)).lookup (n + k) = l[k]?.map f := by
  induction l generalizing n k with
  | nil => rfl
  | cons a l ih =>
    rw [List.zipIdx_cons, List.map_cons, List.lookup_cons]
    cases k with
    | zero => simp
    | succ k =>
      have hne : (n + (k + 1) == n) = false := by simp
      rw [hne]
      dsimp only
      rw [show n + (k + 1) = n + 1 + k by omega, ih, List.getElem?_cons_succ]

theorem low32_eq_ofNat (w : Word) : low32 w = Int32.ofNat w.toUInt32.toNat := by
  apply Int32.toBitVec_inj.1
  apply BitVec.eq_of_toNat_eq
  simp [low32]

/-! ## The targets of a switch -/

namespace Targets

variable {t : Targets}

/-- No block that the switch goes to takes values. -/
def Plain (m : Machine σ) (t : Targets) : Prop := ∀ p ∈ t.fallback :: t.blocks.map (·.2), m.Plain p

/-- The block to go to, if this case was found. -/
def goal (t : Targets) (found : Option BlockIndex) : BlockId := (found.map t.get).getD t.fallback

theorem Plain.fallback (h : t.Plain m) : m.Plain t.fallback := h _ (by simp)

theorem Plain.goal (h : t.Plain m) (found : Option BlockIndex) : m.Plain (t.goal found) := by
  cases found with
  | none => exact h.fallback
  | some target => exact h _ (t.get_mem target)

end Targets

/-! ## Asking the runtime -/

theorem callHelper_two {helper : Helper} {x y r : Reg}
    (h : callHelper helper [x, y] env s = .ok (r, s')) (hp : helper.paramCount = 2) :
    ∃ b, Emit.call helper [x, y] s.builder = .ok (r, b) ∧ s' = { s with builder := b } := by
  rw [callHelper, if_pos (by simp [hp])] at h
  exact emit_ok h

/-- The answer of the runtime leads to the case that it stands for. -/
theorem lookup_answer {data : SwitchData} {targets : Targets} {isMatch : SwitchCase → Bool}
    (hcount : data.cases.length < 0x100000000) :
    ((data.cases.zipIdx.map fun (c, i) => (Int32.ofNat i, targets.get c.target)).lookup
      (match data.cases.findIdx? isMatch with
        | some i => Int32.ofNat i
        | none =>
          -1)).getD targets.fallback = targets.goal
            ((data.cases.find? isMatch).map (·.target)) := by
  have hcases : (data.cases.zipIdx.map fun (c, i) => (Int32.ofNat i, targets.get c.target)) =
      (data.cases.zipIdx.map fun a => (a.2, targets.get a.1.target)).map fun a =>
        (Int32.ofNat a.1, a.2) := by
    rw [List.map_map]
    rfl
  have hkeys : ∀ a ∈ data.cases.zipIdx.map (fun a => (a.2, targets.get a.1.target)),
    a.1 < 0x100000000 := by
    intro a ha
    obtain ⟨⟨x, i⟩, hx, rfl⟩ := List.mem_map.1 ha
    have := (List.mem_zipIdx hx).2.1
    dsimp only
    omega
  have hlookup {k : Nat} (hk : k < 0x100000000) :
      (data.cases.zipIdx.map fun (c, i) => (Int32.ofNat i, targets.get c.target)).lookup
        (Int32.ofNat k) =
        data.cases[k]?.map fun a => targets.get a.target := by
    have := lookup_zipIdx (fun a : SwitchCase => targets.get a.target) data.cases k 0
    rw [hcases, lookup_ofNat hkeys hk, ← this, Nat.zero_add]
  rw [List.find?_eq_bind_findIdx?_getElem?, Targets.goal]
  cases hi : data.cases.findIdx? isMatch with
  | none =>
    have hnone := hlookup (k := 0xffffffff) (by decide)
    rw [List.getElem?_eq_none (by omega)] at hnone
    dsimp only
    rw [show (-1 : Int32) = Int32.ofNat 0xffffffff by decide, hnone]
    rfl
  | some i =>
    have hlt := (List.findIdx?_eq_some_iff_getElem.1 hi).1
    dsimp only
    rw [hlookup (by omega), Option.bind_some, Option.map_map]
    rfl

theorem switchByRuntime_ends {data : SwitchData} {targets : Targets} {string : Reg}
    (hw : s.builder.WellFormed) (h : switchByRuntime data targets string env s = .ok (u, s')) :
    s.builder.Emits [] s'.builder ∧ s'.builder.IsClosed s'.builder.current.index :=
  switchByRuntime_after h (.refl hw)

theorem switchByRuntime_heads {data : SwitchData} {targets : Targets} {string : Reg}
    {isMatch : SwitchCase → Bool} (h : switchByRuntime data targets string env s = .ok (u, s'))
    (hm : s'.builder.Completes m.func) (hc : m.At s.builder c)
    (hstring : c.Has s.builder string .i64 w) (hplain : targets.Plain m)
    (hcount : data.cases.length < 0x100000000) (hlook : m.LooksUp data c.memory w isMatch) :
    m.Heads s.builder c (targets.goal ((data.cases.find? isMatch).map (·.target))) := by
  obtain ⟨table, b₁, h₁, h⟩ := emit_bind_ok h
  obtain ⟨answer, s₂, hcall, h⟩ := bind_ok h
  obtain ⟨b₂, h₂, rfl⟩ := callHelper_two hcall rfl
  obtain ⟨index, b₃, h₃, h⟩ := emit_bind_ok h
  obtain ⟨b₄, h₄, rfl⟩ := emit_ok h
  have e₁ := (inferInstance : (Emit.int64 data.tableIndex).Tidy).emits _ _ _ hc.wf h₁
  have e₂ := (inferInstance : (Emit.call .switchStringLookup [table, string]).Tidy).emits _ _ _
    e₁.after h₂
  have e₃ := (inferInstance : (Emit.truncate answer).Tidy).emits _ _ _ e₂.after h₃
  have hm₃ : b₃.Completes m.func :=
    ((Emit.tidy_terminate (by simp)).emits _ _ _ e₃.after h₄).toExtends.completes hm
  have hm₂ := e₃.toExtends.completes hm₃
  refine (Emit.iconst_yields _ (.refl c _) hc h₁ (e₂.toExtends.completes hm₂)).heads e₁.toExtends
    fun c₁ hc₁ hf₁ htable => ?_
  have hread : c₁.readAll [table, string] = .ok [UInt64.ofNat data.tableIndex, w] := by
    simp [Config.readAll, htable.read, (hstring.later hf₁).read, bind, Except.bind, pure,
      Except.pure, Int64.ofInt_eq_ofNat]
  -- the call may change memory, which the rest of the code does not look at
  obtain ⟨c₂, hstep, hc₂, hregs, -, -, hanswer⟩ := Machine.define_goes h₂ hm₂ hc₁
    (by rw [Machine.execute, hread]; rfl)
  have hlook := hlook c₁.runtimeState
  rw [← hf₁.memory] at hlook
  generalize (m.runtime.callHelper .switchStringLookup [UInt64.ofNat data.tableIndex, w]
    c₁.runtimeState c₁.memory).1 = v
    at hanswer hlook
  have hend : m.Heads b₂ c₂ (targets.goal ((data.cases.find? isMatch).map (·.target))) := by
    refine (Emit.truncate_yields hanswer (.refl c₂ _) hc₂ h₃ hm₃).heads e₃.toExtends
      fun c₃ hc₃ _ hindex => ?_
    refine .here (hc₃.switch h₄ hm hindex ?_ (hplain.goal _))
    rw [low32_truncate, Ty.normalize_i64, hlook]
    exact lookup_answer hcount
  obtain ⟨n, c', hn, hblock, hpos, hregs'⟩ := hend
  exact ⟨_, c', .next hstep hn, hblock, hpos, fun i hi => by
    rw [hregs' i (Nat.lt_of_lt_of_le hi e₂.toExtends.types_size_le), hregs i hi]⟩

/-! ## Telling strings apart -/

/-- Code that goes on for strings only. -/
theorem requireString_heads {value : Reg} {fallback : BlockId}
    (h : requireString value fallback env s = .ok (u, s'))
    (hm : s'.builder.Completes m.func) (hc : m.At s.builder c) (hv : c.Has s.builder value .i64 w)
    (hplain : m.Plain fallback)
    (k : ∀ c', Value.passes env.layout c.memory w .string = true → m.At s'.builder c' →
      c.Follows s.builder c' s'.builder → m.Heads s'.builder c' p) :
    m.Heads s.builder c (if Value.passes env.layout c.memory w .string then p else fallback) := by
  obtain ⟨cellBlock, b₁, h₁, h⟩ := emit_bind_ok h
  obtain ⟨stringBlock, b₂, h₂, h⟩ := emit_bind_ok h
  obtain ⟨cell, b₃, h₃, h⟩ := emit_bind_ok h
  obtain ⟨_, b₄, h₄, h⟩ := emit_bind_ok h
  obtain ⟨_, b₅, h₅, h⟩ := emit_bind_ok h
  obtain rfl := Emit.switchTo_ok h₅
  obtain ⟨string, s₆, h₆, h⟩ := bind_ok h
  obtain ⟨_, b₇, h₇, h⟩ := emit_bind_ok h
  obtain ⟨b₈, h₈, rfl⟩ := emit_ok h
  obtain rfl := Emit.switchTo_ok h₈
  -- the two blocks, from where they are made to where they are taken up
  have a₂ := ((Awaits.refl hc.wf).createBlock h₁).createBlock h₂
  have e₃ := (inferInstance : (isCell value).Tidy).emits _ _ _ a₂.after h₃
  have e₄ := (inferInstance : (Emit.branch cell cellBlock fallback .normal).Tidy).emits _ _ _
    e₃.after h₄
  have a₄ := (a₂.emits e₃).emits e₄
  have a₅ := a₄.goTo (p := cellBlock) (Emit.terminate_closed e₃.after h₄) (by simp)
  have e₆ : (b₄.goTo cellBlock).Emits [] s₆.builder := Tidy.after h₆ (.refl a₅.after)
  have e₇ := (inferInstance : (Emit.branch string stringBlock fallback .normal).Tidy).emits _ _ _
    e₆.after h₇
  have a₇ := (a₅.emits e₆).emits e₇
  have hpending : stringBlock ∈ (([] ++ [cellBlock]) ++ [stringBlock]).erase cellBlock := by simp
  have x₇ := Builder.goTo_extends b₇ stringBlock
  have hm₇ := x₇.completes hm
  have hm₆ := e₇.toExtends.completes hm₇
  have x₅ := Builder.goTo_extends b₄ cellBlock
  have hm₄ := x₅.completes (e₆.toExtends.completes hm₆)
  have hc₂ : m.At b₂ c := (createBlock_made h₂ (createBlock_made h₁ hc.wf).emits.after).stands
    ((createBlock_made h₁ hc.wf).stands hc)
  have f₂ : c.Follows s.builder c b₂ := ⟨a₂.toExtends, .refl _ _⟩
  have hcellRuns := isCell_yields (hv.later f₂) (.refl c _) hc₂ h₃ (e₄.toExtends.completes hm₄)
  refine Machine.Heads.grow ?_ a₂.toExtends
  refine hcellRuns.heads e₃.toExtends fun c₃ hc₃ f₃ hcell => ?_
  cases ht : Value.isCell w with
  | false =>
    rw [ht] at hcell
    refine .here (hc₃.branch h₄ hm₄ hcell ?_ ?_)
    all_goals simp [Value.passes, ht, hplain]
  | true =>
    rw [ht] at hcell
    have hc₅ := a₄.at (p := cellBlock) (by simp) hc₃
    refine .next (hc₃.branch h₄ hm₄ hcell rfl ((a₄.waits cellBlock (by simp)).plain hm₄)) ?_
      (e₄.toExtends.trans x₅)
    have f₅ : c.Follows s.builder _ (b₄.goTo cellBlock) :=
      (f₂.trans f₃).trans (.jump (e₄.toExtends.trans x₅) cellBlock)
    refine (hasCellType_yields (hv.later f₅) (.refl _ _) hc₅ h₆ hm₆).heads e₆.toExtends
      fun c₆ hc₆ f₆ hstring => ?_
    rw [f₅.memory] at hstring
    have hpass : Value.passes env.layout c.memory w .string =
        (Cell.tag env.layout c.memory w == CellType.string.tag) := by
          simp [Value.passes, Value.passes.hasTag, ht]
    rw [hpass]
    cases hs : Cell.tag env.layout c.memory w == CellType.string.tag with
    | false =>
      rw [hs] at hstring
      exact .here (hc₆.branch h₇ hm₇ hstring rfl hplain)
    | true =>
      rw [hs] at hstring
      refine .next (hc₆.branch h₇ hm₇ hstring rfl ((a₇.waits stringBlock hpending).plain hm₇)) ?_
        (e₇.toExtends.trans x₇)
      exact k _ (hpass.trans hs) (a₇.at hpending hc₆)
        ((f₅.trans f₆).trans (.jump (e₇.toExtends.trans x₇) stringBlock))

/-! ## Characters -/

/-- One block for each group of cases, and control stands where it did. -/
theorem Awaits.createBlocks {b₀ : Builder} {groups : List (Nat × List StringCase)}
    {made : List (Nat × BlockId × List StringCase)} (a : Awaits b₀ P s.builder)
    (h : (groups.mapM (fun (n, cases) => do return (n, ← Emit.createBlock false, cases)) :
      Lower (List (Nat × BlockId × List StringCase))) env s = .ok (made, s')) :
    Awaits b₀ (P ++ made.map (·.2.1)) s'.builder ∧ made.map (fun x => (x.1, x.2.2)) = groups ∧
      s.builder.Extends s'.builder ∧ ∀ c, m.At s.builder c → m.At s'.builder c := by
  induction groups generalizing s P made with
  | nil =>
    cases h
    exact ⟨by simpa using a, rfl, .refl _, fun _ hc => hc⟩
  | cons group groups ih =>
    rw [List.mapM_cons] at h
    obtain ⟨x, s₁, h₁, h⟩ := bind_ok h
    obtain ⟨block, b₂, h₂, h₁⟩ := emit_bind_ok h₁
    cases h₁
    obtain ⟨rest, s₃, h₃, h⟩ := bind_ok h
    cases h
    have hmade := createBlock_made h₂ a.after
    obtain ⟨a₃, hrest, e₃, hstands⟩ := ih (a.createBlock h₂) h₃
    refine ⟨by
      simpa using a₃, by rw [List.map_cons, hrest], hmade.emits.toExtends.trans e₃, fun c hc => ?_⟩
    exact hstands c (hmade.stands hc)

/-- Each of the pending blocks gets its code, in a builder in which it is still empty. -/
theorem Awaits.takeUp {b₀ : Builder} {made : List (Nat × BlockId × List StringCase)}
    {f : Nat → List StringCase → Lower Unit}
    (hbody : ∀ x ∈ made, ∀ {s s' : State} {u : Unit}, s.builder.WellFormed →
      f x.1 x.2.2 env s = .ok (u, s') →
      s.builder.Emits [] s'.builder ∧ s'.builder.IsClosed s'.builder.current.index)
    (h : (made.forM (fun (n, block, cases) => do Emit.switchTo block; f n cases) : Lower Unit) env
      s = .ok (u, s'))
    (a : Awaits b₀ (P ++ made.map (·.2.1)) s.builder)
    (hcl : s.builder.IsClosed s.builder.current.index) :
    s.builder.Extends s'.builder ∧ ∀ x ∈ made, ∃ b₁ s₁ s₂, b₁.Waits x.2.1 [] ∧ b₁.WellFormed ∧
      s.builder.Extends b₁ ∧
      s₁.builder = b₁.goTo x.2.1 ∧ f x.1 x.2.2 env s₁ = .ok ((), s₂) ∧
      s₂.builder.Extends s'.builder := by
  induction made generalizing s with
  | nil =>
    cases h
    exact ⟨.refl _, nofun⟩
  | cons x made ih =>
    change ((liftM (Emit.switchTo x.2.1) >>= fun _ => f x.1 x.2.2) >>= fun _ => made.forM _) env
      s = _ at h
    obtain ⟨_, s₂, h₂, h⟩ := bind_ok h
    obtain ⟨_, b₁, h₁, h₂⟩ := emit_bind_ok h₂
    obtain rfl := Emit.switchTo_ok h₁
    have a₁ := a.goTo (p := x.2.1) hcl (by simp)
    have hnot : x.2.1 ∉ P := fun hm => (List.nodup_append.1 a.distinct).2.2 x.2.1 hm x.2.1 (by simp)
      rfl
    rw [List.erase_append_right _ hnot, List.map_cons, List.erase_cons_head] at a₁
    obtain ⟨e₂, c₂⟩ := hbody x (by simp) a₁.after h₂
    obtain ⟨e, hfound⟩ := ih (fun y hy => hbody y (by simp [hy])) h (a₁.emits e₂) c₂
    have e₁ := (Builder.goTo_extends s.builder x.2.1).trans e₂.toExtends
    refine ⟨e₁.trans e, fun y hy => ?_⟩
    rcases List.mem_cons.1 hy with rfl | hy
    · exact ⟨s.builder, _, s₂, a.waits y.2.1 (by simp), a.after, .refl _, rfl, h₂, e⟩
    · obtain ⟨b₂, s₃, s₄, hw, hwf, hext, hrest⟩ := hfound y hy
      exact ⟨b₂, s₃, s₄, hw, hwf, e₁.trans hext, hrest⟩

/-- A switch over groups of cases goes to the block of the group with the key, or to the fallback.
-/
theorem Awaits.dispatch {b₀ b' : Builder} {made : List (Nat × BlockId × List StringCase)}
    {value : Reg} {fallback : BlockId}
    {ty : Ty} (a : Awaits b₀ (P ++ made.map (·.2.1)) s.builder) (hc : m.At s.builder c)
    (h : Emit.switch value (made.map fun x => (Int32.ofNat x.1, x.2.1)) fallback s.builder = .ok (u,
      b'))
    (hm : b'.Completes m.func) (hv : c.Has s.builder value ty w)
    (hkeys : ∀ x ∈ made, x.1 < 0x100000000) :
    (∃ x ∈ made, x.1 = w.toUInt32.toNat ∧
      m.step c = .ok (.running { c with block := x.2.1, position := 0 })) ∨
      (∀ x ∈ made, x.1 ≠ w.toUInt32.toNat) ∧
        (m.Plain fallback → m.step c = .ok (.running { c with block := fallback, position := 0 }))
          := by
  have hcases : (made.map fun x => (Int32.ofNat x.1, x.2.1)) =
      (made.map fun x => (x.1, x.2.1)).map fun x => (Int32.ofNat x.1, x.2) := by
    rw [List.map_map]
    rfl
  have hlookup : (made.map fun x => (Int32.ofNat x.1, x.2.1)).lookup (low32 w) =
      (made.map fun x => (x.1, x.2.1)).lookup w.toUInt32.toNat := by
    rw [hcases, low32_eq_ofNat]
    refine lookup_ofNat (fun x hx => ?_) (UInt32.toNat_lt _)
    obtain ⟨y, hy, rfl⟩ := List.mem_map.1 hx
    exact hkeys y hy
  cases hl : (made.map fun x => (x.1, x.2.1)).lookup w.toUInt32.toNat with
  | some block =>
    obtain ⟨l₁, l₂, hsplit, -⟩ := List.lookup_eq_some_iff.1 hl
    have hmem : (w.toUInt32.toNat, block) ∈ made.map fun x => (x.1, x.2.1) := by rw [hsplit]; simp
    obtain ⟨x, hx, heq⟩ := List.mem_map.1 hmem
    obtain ⟨hkey, rfl⟩ := Prod.mk.inj heq
    have e :=
      (inferInstance : (Emit.switch value (made.map fun x => (Int32.ofNat x.1, x.2.1))
        fallback).Tidy).emits
      _ _ _ a.after h
    have hwait := (a.emits e).waits x.2.1 (List.mem_append_right _ (List.mem_map_of_mem hx))
    refine .inl ⟨x, hx, hkey, hc.switch h hm hv ?_ (hwait.plain hm)⟩
    rw [hlookup, hl]
    rfl
  | none =>
    refine .inr ⟨fun x hx hkey => ?_, fun hplain => hc.switch h hm hv ?_ hplain⟩
    · have := List.lookup_eq_none_iff.1 hl (x.1, x.2.1) (List.mem_map_of_mem hx)
      simp [hkey] at this
    · rw [hlookup, hl]
      rfl

/-- A character that is loaded from memory. -/
theorem load8_yields {b : Builder} {r : Reg} {a : Word} {place : Nat} (h : c.Has b r .i64 a)
    (hp : place < 0x80000000) :
    (Emit.load8 r place).Yields m b c .i32 (c.memory.byte (a + UInt64.ofNat place)).toUInt64 := by
  refine (Emit.load_yields h).congr ?_
  have hint : (Int32.ofInt (place : Int)).toInt = place :=
    Int32.toInt_ofInt_of_le (by omega) (by omega)
  have hwide : (Int32.ofInt (place : Int)).toInt64 = Int64.ofInt place := by
    apply Int64.toInt_inj.1
    rw [Int32.toInt_toInt64, hint, Int64.toInt_ofInt_of_le (by omega) (by omega)]
  have haddress : Machine.address a (Int32.ofInt (place : Int)) = a + UInt64.ofNat place := by
    rw [Machine.address, hwide]
    simp [Int64.ofInt_eq_ofNat]
  rw [haddress]
  simp only [MemWidth.bytes, MemWidth.decode, read_one, Ty.normalize]
  rw [← UInt64.toNat_inj]
  simp

theorem readBytes_succ (memory : Memory) (a : Word) (n : Nat) :
    memory.readBytes a (n + 1) = memory.byte a :: memory.readBytes (a + 1) n := by
  rw [Memory.readBytes, List.range_succ_eq_map, List.map_cons, List.map_map, Memory.readBytes]
  congr 1
  · simp
  · refine List.map_congr_left fun i _ => ?_
    rw [Function.comp_apply, Nat.succ_eq_add_one, UInt64.ofNat_add,
      UInt64.add_comm _ (UInt64.ofNat 1), ← UInt64.add_assoc]
    rfl

/-- The test of one character. -/
theorem characterEq_yields {b : Builder} {r : Reg} {x : UInt8} {k : Nat}
    (h : c.Has b r .i32 x.toUInt64) (hk : k < 256) :
    (Emit.icmpImm .eq r k).Yields m b c .i32 (ofBool (x.toNat == k)) := by
  refine (Emit.icmpImm_yields h).congr ?_
  have hx := x.toNat_lt
  simp only [IntCC.eval, IntCC.holds, low_ofInt]
  congr 2
  · simp
  · simp
    omega

theorem switchCharacters_ends {characters : Reg} {targets : Targets} {left place : Nat}
    {cases : List StringCase} (hg : GroupOf left cases) (hw : s.builder.WellFormed)
    (h : switchCharacters characters targets left place cases env s = .ok (u, s')) :
    s.builder.Emits [] s'.builder ∧ s'.builder.IsClosed s'.builder.current.index :=
  switchCharacters_after hg h (.refl hw)

/-- Comparing characters finds the case that is left of them. -/
theorem switchCharacters_heads {characters : Reg} {a : Word} {targets : Targets} {left place : Nat}
    {cases : List StringCase} (hg : GroupOf left cases)
    (h : switchCharacters characters targets left place cases env s = .ok (u, s'))
    (hm : s'.builder.Completes m.func) (hc : m.At s.builder c)
    (ha : c.Has s.builder characters .i64 a) (hplain : targets.Plain m)
    (hplace : place + left ≤ 0x80000000) :
    m.Heads s.builder c
      (targets.goal (findCase cases (c.memory.readBytes (a + UInt64.ofNat place) left))) := by
  induction left generalizing place cases s s' c u with
  | zero =>
    obtain ⟨k, rest, rfl⟩ := List.exists_cons_of_ne_nil hg.nonempty
    obtain ⟨b', hjump, rfl⟩ := emit_ok h
    have hk : k.rest = [] := List.length_eq_zero_iff.1 (hg.length k (by simp))
    have hfind : findCase (k :: rest) (c.memory.readBytes (a + UInt64.ofNat place) 0)
      = some k.target := by
      simp [findCase, Memory.readBytes, hk]
    rw [hfind]
    exact .here (hc.jump hjump hm (hplain.goal (some k.target)))
  | succ left ih =>
    rw [switchCharacters] at h
    obtain ⟨loaded, b₁, h₁, h⟩ := emit_bind_ok h
    have e₁ := (inferInstance : (Emit.load8 characters place).Tidy).emits _ _ _ hc.wf h₁
    rw [readBytes_succ, UInt64.add_assoc, show (1 : UInt64) = UInt64.ofNat 1 from rfl,
      ← UInt64.ofNat_add]
    have hgroup : ∀ g ∈ byCharacter cases, GroupOf left g.2 := fun _ => byCharacter_group hg
    have hlt : ∀ g ∈ byCharacter cases, g.1 < 256 := fun _ => byCharacter_lt
    have hfound {x : UInt8} {group : List StringCase} (hx : (x.toNat, group) ∈ byCharacter cases)
      (rest : List UInt8) :
        findCase group rest = findCase cases (x :: rest) := findCase_of_mem_byCharacter hx
    have hnone {x : UInt8} (hx : ∀ g ∈ byCharacter cases, g.1 ≠ x.toNat) (rest : List UInt8) :
        findCase cases (x :: rest) = none := findCase_of_notMem_byCharacter hx
    generalize byCharacter cases = groups at h hgroup hlt hfound hnone
    split at h
    · -- all cases go on with one character
      rename_i character group
      obtain ⟨equal, b₂, h₂, h⟩ := emit_bind_ok h
      obtain ⟨next, b₃, h₃, h⟩ := emit_bind_ok h
      obtain ⟨_, b₄, h₄, h⟩ := emit_bind_ok h
      obtain ⟨_, b₅, h₅, h⟩ := emit_bind_ok h
      obtain rfl := Emit.switchTo_ok h₅
      have e₂ := (inferInstance : (Emit.icmpImm .eq loaded character).Tidy).emits _ _ _ e₁.after h₂
      have a₃ := (Awaits.refl e₂.after).createBlock h₃
      have e₄ := (inferInstance : (Emit.branch equal next targets.fallback .normal).Tidy).emits _ _
        _ a₃.after h₄
      have a₄ := a₃.emits e₄
      have a₅ := a₄.goTo (p := next) (Emit.terminate_closed a₃.after h₄) (by simp)
      have x₅ := Builder.goTo_extends b₄ next
      have hg₅ : GroupOf left group := hgroup (character, group) (by simp)
      have hm₅ := (switchCharacters_ends hg₅ a₅.after h).1.toExtends.completes hm
      have hm₄ := x₅.completes hm₅
      have hm₂ := a₄.toExtends.completes hm₄
      refine (load8_yields ha (by omega) (.refl c _) hc h₁ (e₂.toExtends.completes hm₂)).heads
        e₁.toExtends
        fun c₁ hc₁ f₁ hloaded => ?_
      refine (characterEq_yields hloaded (hlt (character, group) (by simp)) (.refl _ _) hc₁ h₂
        hm₂).heads e₂.toExtends fun c₂ hc₂ f₂ hequal => ?_
      refine Machine.Heads.grow ?_ a₃.toExtends
      have hc₃ := (createBlock_made h₃ e₂.after).stands hc₂
      have hequal₃ := hequal.keep a₃.toExtends (.refl _ _)
      by_cases heq : (c.memory.byte (a + UInt64.ofNat place)).toNat = character
      · rw [beq_iff_eq.2 heq] at hequal₃
        have hstep :=
          hc₃.branch h₄ hm₄ hequal₃ (if_pos (by decide)) ((a₄.waits next (by simp)).plain hm₄)
        refine .next hstep ?_ (e₄.toExtends.trans x₅)
        have f : c.Follows s.builder { c₂ with block := next, position := 0 } (b₄.goTo next) :=
          (f₁.trans f₂).trans (.jump (a₄.toExtends.trans x₅) next)
        have hfind := hfound (x := c.memory.byte (a + UInt64.ofNat place))
          (by rw [heq]; exact List.mem_singleton_self _)
        rw [← hfind, ← f.memory]
        exact ih hg₅ h hm (a₄.at (by simp) hc₂) (ha.later f) (by omega)
      · rw [beq_eq_false_iff_ne.2 heq] at hequal₃
        rw [hnone (by simpa using Ne.symm heq)]
        exact .here (hc₃.branch h₄ hm₄ hequal₃ rfl hplain.fallback)
    · -- a block for each character
      obtain ⟨made, s₂, h₂, h⟩ := bind_ok h
      obtain ⟨_, b₃, h₃, h⟩ := emit_bind_ok h
      obtain ⟨a₂, hmade, x₂, hstands⟩ := (Awaits.refl e₁.after).createBlocks (m := m) h₂
      have e₃ := (Emit.tidy_terminate (by simp)).emits _ _ _ a₂.after h₃
      have hmem {x : Nat × BlockId × List StringCase} (hx : x ∈ made) : (x.1, x.2.2) ∈ groups := by
        rw [← hmade]
        exact List.mem_map_of_mem hx
      obtain ⟨x₃, htaken⟩ :=
        Awaits.takeUp (f := fun _ cases => switchCharacters characters targets left (place + 1)
          cases)
        (fun x hx _ _ _ hw h => switchCharacters_ends (hgroup _ (hmem hx)) hw h) h (a₂.emits e₃)
        (Emit.terminate_closed a₂.after h₃)
      have hm₃ := x₃.completes hm
      refine (load8_yields ha (by omega) (.refl c _) hc h₁
        (x₂.completes (e₃.toExtends.completes hm₃))).heads e₁.toExtends fun c₁ hc₁ f₁ hloaded => ?_
      refine Machine.Heads.grow ?_ x₂
      have hloaded₂ : c₁.Has s₂.builder loaded .i32 _ := hloaded.keep x₂ (.refl _ _)
      have hkeys : ∀ x ∈ made, x.1 < 0x100000000 :=
        fun x hx => Nat.lt_trans (hlt _ (hmem hx)) (by decide)
      have hkey : (c.memory.byte (a + UInt64.ofNat place)).toUInt64.toUInt32.toNat =
          (c.memory.byte (a + UInt64.ofNat place)).toNat := by simp
      rcases a₂.dispatch (hstands _ hc₁) h₃ hm₃ hloaded₂ hkeys with ⟨x, hx, hx₁, hstep⟩ | ⟨hno,
        hstep⟩
      · obtain ⟨b₄, s₄, s₅, hwait, hw₄, x₄, hs₄, h₄, x₅⟩ := htaken x hx
        have hext : s₂.builder.Extends s₄.builder := by
          rw [hs₄]
          exact (e₃.toExtends.trans x₄).trans (Builder.goTo_extends _ _)
        refine .next hstep ?_ hext
        have f : c.Follows s.builder { c₁ with block := x.2.1, position := 0 } s₄.builder :=
          f₁.trans (.jump (x₂.trans hext) _)
        have hc₄ : m.At s₄.builder { c₁ with block := x.2.1, position := 0 } := by
          rw [hs₄]
          exact hwait.at hw₄ rfl rfl hc₁.registers
        rw [← hfound (by rw [← hkey, ← hx₁]; exact hmem hx), ← f.memory]
        exact ih (hgroup _ (hmem hx)) h₄ (x₅.completes hm) hc₄ (ha.later f) (by omega)
      · rw [hnone fun g hg hg₁ => ?_]
        · exact .here (hstep hplain.fallback)
        · rw [← hmade] at hg
          obtain ⟨x, hx, rfl⟩ := List.mem_map.1 hg
          exact hno x hx (hg₁.trans hkey.symm)

/-! ## The code as a whole -/

/-- The code that compares the length and then the characters. -/
theorem switchLengths_heads {targets : Targets} {impl : Reg} {cases : List StringCase}
    (hw : s.builder.WellFormed)
    (h : (do
      let length ← loadField32 impl .stringImplLength
      let characters ← loadField64 impl .stringImplData
      let groups ← (byLength cases).mapM fun (n, cases) =>
        return (n, ← Emit.createBlock false, cases)
      Emit.switch length (groups.map fun g => (Int32.ofNat g.1, g.2.1)) targets.fallback
      groups.forM fun (n, block, cases) => do
        Emit.switchTo block
        switchCharacters characters targets n 0 cases : Lower Unit) env s = .ok (u, s'))
    (hm : s'.builder.Completes m.func) (hplain : targets.Plain m)
    (hlength : ∀ k ∈ cases, k.rest.length ≤ 0x80000000) :
    s.builder.Extends s'.builder ∧ ∀ c v, m.At s.builder c → c.Has s.builder impl .i64 v →
      m.Heads s.builder c (targets.goal (findCase cases (c.memory.readBytes
        (Cell.field env.layout c.memory v .stringImplData 8)
        (Cell.field env.layout c.memory v .stringImplLength 4).toUInt32.toNat))) := by
  obtain ⟨length, s₁, h₁, h⟩ := bind_ok h
  obtain ⟨characters, s₂, h₂, h⟩ := bind_ok h
  obtain ⟨made, s₃, h₃, h⟩ := bind_ok h
  obtain ⟨_, b₄, h₄, h⟩ := emit_bind_ok h
  have e₁ : s.builder.Emits [] s₁.builder := Tidy.after h₁ (.refl hw)
  have e₂ : s₁.builder.Emits [] s₂.builder := Tidy.after h₂ (.refl e₁.after)
  obtain ⟨a₃, hmade, x₃, hstands⟩ := (Awaits.refl e₂.after).createBlocks (m := m) h₃
  have e₄ := (Emit.tidy_terminate (by simp)).emits _ _ _ a₃.after h₄
  have hmem {x : Nat × BlockId × List StringCase} (hx : x ∈ made) : (x.1, x.2.2) ∈ byLength
    cases := by
    rw [← hmade]
    exact List.mem_map_of_mem hx
  have hle {x : Nat × BlockId × List StringCase} (hx : x ∈ made) : x.1 ≤ 0x80000000 := by
    obtain ⟨⟨k, hk, hlen⟩, -⟩ := mem_byLength.1 (hmem hx)
    rw [← hlen]
    exact hlength k hk
  obtain ⟨x₄, htaken⟩ :=
    Awaits.takeUp (f := fun n cases => switchCharacters characters targets n 0 cases)
    (fun x hx _ _ _ hw h => switchCharacters_ends (byLength_group (hmem hx)) hw h) h (a₃.emits e₄)
    (Emit.terminate_closed a₃.after h₄)
  have x : s₂.builder.Extends s'.builder := x₃.trans (e₄.toExtends.trans x₄)
  refine ⟨(e₁.toExtends.trans e₂.toExtends).trans x, fun c v hc himpl => ?_⟩
  have hm₂ := x.completes hm
  refine (loadField32_yields himpl .stringImplLength (.refl c _) hc h₁
    (e₂.toExtends.completes hm₂)).heads e₁.toExtends
    fun c₁ hc₁ f₁ hlen => ?_
  refine (loadField64_yields (himpl.later f₁) .stringImplData (.refl _ _) hc₁ h₂ hm₂).heads
    e₂.toExtends fun c₂ hc₂ f₂ hdata => ?_
  rw [f₁.memory] at hdata
  refine Machine.Heads.grow ?_ x₃
  have hlen₃ : c₂.Has s₃.builder length .i32 _ := (hlen.later f₂).keep x₃ (.refl _ _)
  have hkeys : ∀ x ∈ made, x.1 < 0x100000000 := fun x hx => by
    have := hle hx
    omega
  have hkey (n : Word) : n.toUInt32.toUInt64.toUInt32.toNat = n.toUInt32.toNat := by simp
  have hbytes : (c.memory.readBytes (Cell.field env.layout c.memory v .stringImplData 8)
      (Cell.field env.layout c.memory v .stringImplLength 4).toUInt32.toNat).length =
      (Cell.field env.layout c.memory v .stringImplLength 4).toUInt32.toNat := by
        simp [Memory.readBytes]
  rcases a₃.dispatch (hstands _ hc₂) h₄ (x₄.completes hm) hlen₃ hkeys with ⟨x, hx, hx₁,
    hstep⟩ | ⟨hno, hstep⟩
  · rw [hkey] at hx₁
    change x.1 = (Cell.field env.layout c.memory v .stringImplLength 4).toUInt32.toNat at hx₁
    obtain ⟨b₅, s₅, s₆, hwait, hw₅, x₅, hs₅, h₅, x₆⟩ := htaken x hx
    have hext : s₃.builder.Extends s₅.builder := by
      rw [hs₅]
      exact (e₄.toExtends.trans x₅).trans (Builder.goTo_extends _ _)
    refine .next hstep ?_ hext
    have f : c₂.Follows s₂.builder { c₂ with block := x.2.1, position := 0 } s₅.builder :=
      .jump (x₃.trans hext) _
    have hc₅ : m.At s₅.builder { c₂ with block := x.2.1, position := 0 } := by
      rw [hs₅]
      exact hwait.at hw₅ rfl rfl hc₂.registers
    have hfind := findCase_of_mem_byLength (by rw [hbytes, ← hx₁]; exact hmem hx)
    have hread : c.memory.readBytes (Cell.field env.layout c.memory v .stringImplData 8)
        (Cell.field env.layout c.memory v .stringImplLength 4).toUInt32.toNat =
        c₂.memory.readBytes (Cell.field env.layout c.memory v .stringImplData 8 + UInt64.ofNat 0)
          x.1 := by
      rw [f₂.memory, f₁.memory, hx₁]
      simp [Cell.field]
    rw [← hfind, hread]
    exact switchCharacters_heads (byLength_group (hmem hx)) h₅ (x₆.completes hm) hc₅ (hdata.later f)
      hplain
      (by rw [Nat.zero_add]; exact hle hx)
  · rw [findCase_of_notMem_byLength fun g hg hg₁ => ?_]
    · exact .here (hstep hplain.fallback)
    · rw [← hmade] at hg
      obtain ⟨x, hx, rfl⟩ := List.mem_map.1 hg
      exact hno x hx (by rw [hkey]; exact hg₁.trans hbytes)

/-- The flag for characters of 8 bits. -/
theorem eightBitFlag_yields (m : Machine σ) (env : Env) {b : Builder} {impl : Reg} {v : Word}
    (h : c.Has b impl .i64 v) :
    ∃ bit : Word, (bit.toUInt32 ≠ 0 ↔ (Cell.field env.layout c.memory v .stringImplFlags 4).toUInt32
      &&& 1 ≠ 0) ∧
      Yields m env b c (eightBitFlag impl) .i32 bit := by
  refine ⟨_, ?_, (loadField32_yields h .stringImplFlags).bind fun _ hflags => .ofEmit
    (Emit.binaryImm_yields hflags)⟩
  have hand (x : Word) : (Ty.normalize .i32 (BinaryOp.and.eval .i32 x.toUInt32.toUInt64
      (Ty.normalize .i32 (Int64.ofInt stringIs8Bit).toUInt64))).toUInt32 = x.toUInt32 &&& 1 := by
    simp only [BinaryOp.eval, binary32, ofInt32, low32, Ty.normalize, UInt32.toUInt32_toUInt64]
    rfl
  rw [hand]
  exact Iff.rfl

/-- The inline code finds the case of a string with 8-bit characters, and asks the runtime about all
others. -/
theorem switchInline_heads {data : SwitchData} {targets : Targets} {string : Reg}
    {cases : List StringCase} (h : switchInline data targets string cases env s = .ok (u, s'))
    (hm : s'.builder.Completes m.func) (hc : m.At s.builder c)
    (hstring : c.Has s.builder string .i64 w) (hplain : targets.Plain m)
    (hlength : ∀ k ∈ cases, k.rest.length ≤ 0x80000000) :
    (Cell.isOneByte env.layout c.memory w = true →
      m.Heads s.builder c (targets.goal (findCase cases (Cell.characters env.layout c.memory w)))) ∧
    (Cell.isOneByte env.layout c.memory w = false → data.cases.length < 0x100000000 →
      ∀ isMatch, m.LooksUp data c.memory w isMatch →
        m.Heads s.builder c (targets.goal ((data.cases.find? isMatch).map (·.target)))) := by
  obtain ⟨impl, s₁, h₁, h⟩ := bind_ok h
  obtain ⟨fast, b₂, h₂, h⟩ := emit_bind_ok h
  obtain ⟨slow, b₃, h₃, h⟩ := emit_bind_ok h
  obtain ⟨rope, b₄, h₄, h⟩ := emit_bind_ok h
  obtain ⟨resolved, b₅, h₅, h⟩ := emit_bind_ok h
  obtain ⟨_, b₆, h₆, h⟩ := emit_bind_ok h
  obtain ⟨_, b₇, h₇, h⟩ := emit_bind_ok h
  obtain rfl := Emit.switchTo_ok h₇
  obtain ⟨flag, s₈, h₈, h⟩ := bind_ok h
  obtain ⟨_, b₉, h₉, h⟩ := emit_bind_ok h
  obtain ⟨_, b₁₀, h₁₀, h⟩ := emit_bind_ok h
  obtain rfl := Emit.switchTo_ok h₁₀
  obtain ⟨_, s₁₁, h₁₁, h⟩ := bind_ok h
  obtain ⟨_, b₁₂, h₁₂, h⟩ := emit_bind_ok h
  obtain rfl := Emit.switchTo_ok h₁₂
  -- the blocks, from where they are made to where they are taken up
  have e₁ : s.builder.Emits [] s₁.builder := Tidy.after h₁ (.refl hc.wf)
  have a₃ := ((Awaits.refl e₁.after).createBlock h₂).createBlock h₃
  have e₄ := (inferInstance : (Emit.icmpImm .eq impl 0).Tidy).emits _ _ _ a₃.after h₄
  have a₅ := (a₃.emits e₄).createBlock h₅
  have e₆ := (inferInstance : (Emit.branch rope slow resolved .takenRare).Tidy).emits _ _ _ a₅.after
    h₆
  have a₆ := a₅.emits e₆
  have a₇ := a₆.goTo_last (Emit.terminate_closed a₅.after h₆)
  have e₈ : (b₆.goTo resolved).Emits [] s₈.builder := Tidy.after h₈ (.refl a₇.after)
  have e₉ := (inferInstance : (Emit.branch flag fast slow .normal).Tidy).emits _ _ _ e₈.after h₉
  have a₉ := (a₇.emits e₈).emits e₉
  have a₁₀ := a₉.goTo_last (Emit.terminate_closed e₈.after h₉)
  obtain ⟨e₁₁, c₁₁⟩ := switchByRuntime_ends a₁₀.after h₁₁
  have a₁₁ := a₁₀.emits e₁₁
  have a₁₂ := a₁₁.goTo_last c₁₁
  obtain ⟨x₁₂, hfast⟩ := switchLengths_heads a₁₂.after h hm hplain hlength
  have x₁₁ := (Builder.goTo_extends s₁₁.builder fast).trans x₁₂
  have hm₁₁ := x₁₁.completes hm
  have x₉ := (Builder.goTo_extends b₉ slow).trans e₁₁.toExtends
  have hm₉ := x₉.completes hm₁₁
  have hm₈ := e₉.toExtends.completes hm₉
  have x₆ := Builder.goTo_extends b₆ resolved
  have hm₆ := (x₆.trans e₈.toExtends).completes hm₈
  have hm₄ := (((Awaits.refl e₄.after).createBlock h₅).toExtends.trans e₆.toExtends).completes hm₆
  -- control comes to the test for a rope
  have hrope (target : BlockId) (k : ∀ c₅, m.At b₅ c₅ → c.Follows s.builder c₅ b₅ →
      c₅.Has b₅ impl .i64 (Cell.stringImpl env.layout c.memory w) →
      c₅.Has b₅ rope .i32 (ofBool (Cell.stringImpl env.layout c.memory w == 0)) →
      m.Heads b₅ c₅ target) :
      m.Heads s.builder c target := by
    have hm₁ := (a₃.toExtends.trans e₄.toExtends).completes hm₄
    refine (loadField64_yields hstring .stringImpl (.refl c _) hc h₁ hm₁).heads e₁.toExtends
      fun c₁ hc₁ f₁ himpl => ?_
    have f₃ : c₁.Follows s₁.builder c₁ b₃ := ⟨a₃.toExtends, .refl _ _⟩
    have made₂ := createBlock_made h₂ e₁.after
    have hc₃ := (createBlock_made h₃ made₂.emits.after).stands (made₂.stands hc₁)
    refine Machine.Heads.grow ?_ a₃.toExtends
    refine (Emit.icmpImm_yields (himpl.later f₃) (.refl _ _) hc₃ h₄ hm₄).heads e₄.toExtends
      fun c₄ hc₄ f₄ hzero => ?_
    have made₅ := createBlock_made h₅ e₄.after
    have f₅ : c₄.Follows b₄ c₄ b₅ := ⟨made₅.emits.toExtends, .refl _ _⟩
    refine Machine.Heads.grow ?_ made₅.emits.toExtends
    refine k c₄ (made₅.stands hc₄) (((f₁.trans f₃).trans f₄).trans f₅)
      (himpl.later ((f₃.trans f₄).trans f₅)) ?_
    simp only [Ty.normalize_i64, IntCC.eq_eval] at hzero
    exact hzero.later f₅
  -- and, if there is none, to the test of the flag
  have hflag (target : BlockId) (hne : Cell.stringImpl env.layout c.memory w ≠ 0)
      (k : ∀ c₈ bit, m.At s₈.builder c₈ → c.Follows s.builder c₈ s₈.builder →
        c₈.Has s₈.builder impl .i64 (Cell.stringImpl env.layout c.memory w) → c₈.Has s₈.builder flag
          .i32 bit →
        (bit.toUInt32 ≠ 0 ↔ Cell.isOneByte env.layout c.memory w = true) →
        m.Heads s₈.builder c₈ target) :
      m.Heads s.builder c target := by
    refine hrope target fun c₅ hc₅ f₅ himpl hzero => ?_
    rw [beq_eq_false_iff_ne.2 hne] at hzero
    have hstep :=
      hc₅.branch h₆ hm₆ hzero (if_neg (by decide)) ((a₆.waits resolved (by simp)).plain hm₆)
    refine .next hstep ?_ (e₆.toExtends.trans x₆)
    have f₇ : c₅.Follows b₅ _ (b₆.goTo resolved) := .jump (e₆.toExtends.trans x₆) resolved
    obtain ⟨bit, hbit, hy⟩ := eightBitFlag_yields m env (himpl.later f₇)
    refine (hy (.refl _ _) (a₆.at (by simp) hc₅) h₈ hm₈).heads e₈.toExtends fun c₈ hc₈ f₈ hhas => ?_
    refine k c₈ bit hc₈ ((f₅.trans f₇).trans f₈) ((himpl.later f₇).later f₈) hhas ?_
    rw [hbit, f₇.memory, f₅.memory]
    simp [Cell.isOneByte, hne]
  -- the runtime is asked
  have hslow {b : Builder} {c' : Config σ} (hc' : m.At b c') (f : c.Follows s.builder c' b)
    (x : b.Extends (b₉.goTo slow))
      (hcount : data.cases.length < 0x100000000) {isMatch : SwitchCase → Bool}
        (hlook : m.LooksUp data c.memory w isMatch) :
      m.Heads (b₉.goTo slow) { c' with block := slow, position := 0 }
        (targets.goal ((data.cases.find? isMatch).map (·.target))) := by
    have f' : c.Follows s.builder _ (b₉.goTo slow) := f.trans (.jump x slow)
    refine switchByRuntime_heads h₁₁ hm₁₁ (a₉.at (by simp) hc') (hstring.later f') hplain hcount ?_
    rw [f'.memory]
    exact hlook
  have x₉' := e₉.toExtends.trans (Builder.goTo_extends b₉ slow)
  refine ⟨fun hone => ?_, fun hone hcount isMatch hlook => ?_⟩
  · have hne : Cell.stringImpl env.layout c.memory w ≠ 0 := by
      rintro hzero
      simp [Cell.isOneByte, hzero] at hone
    refine hflag _ hne fun c₈ bit hc₈ f₈ himpl hbit hiff => ?_
    have hstep :=
      hc₈.branch h₉ hm₉ hbit (if_pos (hiff.2 hone)) ((a₉.waits fast (by simp)).plain hm₉)
    have x₁₂' := e₉.toExtends.trans (x₉.trans (Builder.goTo_extends s₁₁.builder fast))
    refine .next hstep ?_ x₁₂'
    have hread : Cell.characters env.layout c.memory w = c₈.memory.readBytes
        (Cell.field env.layout c₈.memory (Cell.stringImpl env.layout c.memory w) .stringImplData 8)
        (Cell.field env.layout c₈.memory (Cell.stringImpl env.layout c.memory w) .stringImplLength
          4).toUInt32.toNat := by
      rw [f₈.memory]
      rfl
    rw [hread]
    exact hfast _ _ (a₁₁.at (p := fast) (by simp) hc₈) (himpl.later (.jump x₁₂' fast))
  · by_cases hne : Cell.stringImpl env.layout c.memory w = 0
    · refine hrope _ fun c₅ hc₅ f₅ _ hzero => ?_
      rw [hne] at hzero
      have hstep :=
        hc₅.branch h₆ hm₆ hzero (if_pos (by decide)) ((a₆.waits slow (by simp)).plain hm₆)
      have x := ((e₆.toExtends.trans x₆).trans e₈.toExtends).trans x₉'
      exact .next hstep (hslow hc₅ f₅ x hcount hlook) x
    · refine hflag _ hne fun c₈ bit hc₈ f₈ _ hbit hiff => ?_
      have hstep :=
        hc₈.branch h₉ hm₉ hbit
          (if_neg fun hz => by rw [hone] at hiff; exact absurd (hiff.1 hz) (by decide))
        ((a₉.waits slow (by simp)).plain hm₉)
      exact .next hstep (hslow hc₈ f₈ x₉' hcount hlook) x₉'

/-! ## Blocks of the graph as targets -/

/-- Going to block `p` goes on in block `t` of the graph: it is the block itself, or a block on the
edge to it that hands over the values of the phis. -/
def Continues (env : Env) (s : State) (p : BlockId) (t : BlockIndex) : Prop :=
  ∃ phis args, env.graph.phis t = .ok phis ∧ phis.map (s.upsilons.lookup ·) = args.map some ∧
    t.index < env.graph.blocks.size ∧ (args = [] ∧ p = ⟨t.index + 1⟩ ∨ s.builder.IsClosed p.index ∧
      s.builder.func.blocks[p.index]? = some { terminator := .jump ⟨t.index + 1⟩ args })

/-- The steps from `s` to `s'` move neither control nor the values for phis. -/
structure Aside (m : Machine σ) (s s' : State) : Prop where
  upsilons : s'.upsilons = s.upsilons
  emits : s.builder.Emits [] s'.builder
  stands : ∀ c, m.At s.builder c → m.At s'.builder c

theorem Aside.refl (hw : s.builder.WellFormed) : Aside m s s := ⟨rfl, .refl hw, fun _ hc => hc⟩

theorem Aside.trans (h₁ : Aside m s s') (h₂ : Aside m s' s'') : Aside m s s'' :=
  ⟨h₂.upsilons.trans h₁.upsilons, h₁.emits.trans h₂.emits, fun c hc => h₂.stands c (h₁.stands c hc)⟩

theorem Continues.later {t : BlockIndex} (h : Continues env s p t)
    (e : s.builder.Extends s'.builder) (hu : s'.upsilons = s.upsilons) : Continues env s' p t := by
  obtain ⟨phis, args, hphis, hargs, hlt, hp⟩ := h
  refine ⟨phis, args, hphis, by rw [hu, hargs], hlt, hp.imp_right fun ⟨hc, hblk⟩ => ?_⟩
  exact ⟨(e.closed _ hc).1, (e.closed _ hc).2.trans hblk⟩

/-- The values for phis are those that were kept for them. -/
theorem lookupAll_map {upsilons : List (NodeId × Reg)} {t : BlockIndex} {phis : List NodeId}
    {args : List Reg}
    (h : (phis.mapM fun phi => match upsilons.lookup phi with
      | some r => pure r
      | none => crash (.noUpsilon phi t) : Lower (List Reg)) env s = .ok (args, s')) :
    phis.map (upsilons.lookup ·) = args.map some := by
  induction phis generalizing s args with
  | nil => cases h; rfl
  | cons phi phis ih =>
    rw [List.mapM_cons] at h
    obtain ⟨r, s₁, h₁, h⟩ := bind_ok h
    obtain ⟨rest, s₂, h₂, h₃⟩ := bind_ok h
    cases hl : upsilons.lookup phi with
    | none => rw [hl] at h₁; cases h₁
    | some r' =>
      rw [hl] at h₁
      cases h₁
      cases h₃
      rw [List.map_cons, List.map_cons, hl, ih h₂]

theorem successorBlock_continues {t : BlockIndex} (h : successorBlock t env s = .ok (p, s'))
    (hw : s.builder.WellFormed) :
    Aside m s s' ∧ Continues env s' p t := by
  obtain ⟨args, s₁, h₁, h⟩ := bind_ok h
  rw [phiArguments, get_bind, read_bind] at h₁
  obtain ⟨phis, hphis, h₁⟩ := check_bind_ok h₁
  have hargs := lookupAll_map h₁
  rw [(lookupAll_ok h₁).1, read_bind] at h
  obtain ⟨block, hblock, h⟩ := check_bind_ok h
  have hlt : t.index < env.graph.blocks.size := by
    rw [Env.bodyBlock] at hblock
    split at hblock
    · assumption
    · cases hblock
  obtain rfl := bodyBlock_ok hblock
  by_cases hempty : args.isEmpty = true
  · rw [if_pos hempty] at h
    cases h
    exact ⟨.refl hw, phis, args, hphis, hargs, hlt, .inl ⟨List.isEmpty_iff.1 hempty, rfl⟩⟩
  · rw [if_neg hempty] at h
    obtain ⟨here, b₂, h₂, h⟩ := emit_bind_ok h
    cases h₂
    obtain ⟨edge, b₃, h₃, h⟩ := emit_bind_ok h
    obtain ⟨rfl, rfl⟩ := Emit.createBlock_ok h₃
    obtain ⟨_, b₄, h₄, h⟩ := emit_bind_ok h
    obtain rfl := Emit.switchTo_ok h₄
    obtain ⟨_, b₅, h₅, h⟩ := emit_bind_ok h
    obtain ⟨_, b₆, h₆, h⟩ := emit_bind_ok h
    obtain rfl := Emit.switchTo_ok h₆
    cases h
    rw [Emit.terminate_addBlock hw h₅]
    have hjump : Terminator.jump ⟨t.index + 1⟩ args ≠ .unreachable := by simp
    refine ⟨⟨rfl, Builder.addClosed_emits hw hjump, fun c hc => hc.addClosed hjump⟩, phis, args,
      hphis, hargs, hlt, .inr ?_⟩
    exact ⟨Builder.addClosed_isClosed hw _, Builder.addClosed_last _ _⟩

/-- The blocks to go to for blocks of the graph. -/
theorem successorBlocks_continue {ts : List BlockIndex} {blocks : List (BlockIndex × BlockId)}
    (h : (ts.mapM fun t => return (t, ← successorBlock t) : Lower (List (BlockIndex × BlockId))) env
      s = .ok (blocks, s'))
    (hw : s.builder.WellFormed) :
    Aside m s s' ∧ blocks.map (·.1) = ts ∧ ∀ q ∈ blocks, Continues env s' q.2 q.1 := by
  induction ts generalizing s blocks with
  | nil =>
    cases h
    exact ⟨.refl hw, rfl, nofun⟩
  | cons t ts ih =>
    rw [List.mapM_cons] at h
    obtain ⟨q, s₁, h₁, h⟩ := bind_ok h
    obtain ⟨p, s₂, h₂, h₁⟩ := bind_ok h₁
    cases h₁
    obtain ⟨rest, s₃, h₃, h⟩ := bind_ok h
    cases h
    obtain ⟨x₂, hp⟩ := successorBlock_continues (m := m) h₂ hw
    obtain ⟨x₃, hrest, hall⟩ := ih h₃ x₂.emits.after
    refine ⟨x₂.trans x₃, by rw [List.map_cons, hrest], fun q hq => ?_⟩
    rcases List.mem_cons.1 hq with rfl | hq
    · exact hp.later x₃.emits.toExtends x₃.upsilons
    · exact hall q hq

/-- Every target of a switch goes on in the block that it stands for. -/
structure Targets.Continue (env : Env) (s : State) (data : SwitchData) (t : Targets) : Prop where
  fallback : Continues env s t.fallback data.fallThrough
  blocks : ∀ q ∈ t.blocks, Continues env s q.2 q.1
  cases : ∀ k ∈ data.cases, Continues env s (t.get k.target) k.target

theorem switchTargets_continue {data : SwitchData} {t : Targets}
    (h : switchTargets data env s = .ok (t, s')) (hw : s.builder.WellFormed) :
    Aside m s s' ∧ t.Continue env s' data := by
  obtain ⟨blocks, s₁, h₁, h⟩ := bind_ok h
  obtain ⟨x₁, hkeys, hall⟩ := successorBlocks_continue (m := m) h₁ hw
  have hcase (k : SwitchCase) (hk : k ∈ data.cases) (fallback : BlockId) :
      Continues env s₁ (Targets.get ⟨blocks, fallback⟩ k.target) k.target := by
    have hmem : k.target ∈ blocks.map (·.1) := by
      rw [hkeys, mem_firstOfEach_id]
      exact List.mem_map_of_mem hk
    rw [Targets.get]
    cases hl : blocks.lookup k.target with
    | some p =>
      obtain ⟨l₁, l₂, hsplit, -⟩ := List.lookup_eq_some_iff.1 hl
      exact hall (k.target, p) (by rw [hsplit]; simp)
    | none =>
      obtain ⟨q, hq, hkey⟩ := List.mem_map.1 hmem
      have := List.lookup_eq_none_iff.1 hl q hq
      simp [hkey] at this
  cases hl : blocks.lookup data.fallThrough with
  | some fallback =>
    rw [hl] at h
    cases h
    obtain ⟨l₁, l₂, hsplit, -⟩ := List.lookup_eq_some_iff.1 hl
    exact ⟨x₁, hall (data.fallThrough, fallback) (by rw [hsplit]; simp), hall,
      fun k hk => hcase k hk _⟩
  | none =>
    rw [hl] at h
    obtain ⟨fallback, s₂, h₂, h⟩ := bind_ok h
    cases h
    obtain ⟨x₂, hp⟩ := successorBlock_continues (m := m) h₂ x₁.emits.after
    exact ⟨x₁.trans x₂, hp, fun q hq => (hall q hq).later x₂.emits.toExtends x₂.upsilons,
      fun k hk => (hcase k hk _).later x₂.emits.toExtends x₂.upsilons⟩

end Lowering

/-! ## The operand -/

namespace Lowering

variable {σ : Type} {m : Machine σ} {c : Config σ} {env : Env} {s s' : State}

/-- The operand of a string switch is boxed, and a string passes the checks. -/
theorem asValue_goes {e : Edge} {r : Reg} {x : Datum} {operand : Node} {known : AbstractValue}
    (h : asValue e env s = .ok (r, s')) (hm : s'.builder.Completes m.func) (hc : m.At s.builder c)
    (hvalid : s.facts.valid = true) (hdepth : s.armDepth = 0) (hx : Holds env s c e.node operand x)
    (hknown : s.facts.factOf env.graph e.node = .ok known) (hbox : m.BoxesInt52 c.memory)
    (htrue : ∀ w, x.BoxesTo known.ty w → known.Describes (Value.kindOf env.layout c.memory w)) :
    ∃ w, x.BoxesTo known.ty w ∧
      (e.useKind = .untyped ∨ e.useKind = .knownString ∨
        (e.useKind = .string ∨ e.useKind = .stringIdent) ∧
        w ≠ Value.empty ∧ Value.passes env.layout c.memory w e.useKind = true →
      m.Runs s.builder c s'.builder fun c' => c'.Has s'.builder r .i64 w) := by
  obtain ⟨r', s₁, h₁, h⟩ := bind_ok h
  obtain ⟨_, s₂, h₂, h⟩ := bind_ok h
  cases h
  have e₁ : s.builder.Emits [] s₁.builder := Tidy.after h₁ (.refl hc.wf)
  have e₂ : s₁.builder.Emits [] s'.builder := Tidy.after h₂ (.refl e₁.after)
  obtain ⟨w, hw, hruns⟩ := boxedNode_runs hc hx hknown hbox
  have hb : x.BoxesTo known.ty w := hw.imp_right (·.2)
  obtain ⟨hfacts, harm⟩ := (inferInstance : KeepsFacts (boxedNode e.node)).kept _ _ _ _ h₁
  refine ⟨w, hb, fun huse => ?_⟩
  refine (hruns h₁ (e₂.toExtends.completes hm)).bind e₁.toExtends e₂.toGrows fun c₁ hc₁ hk hr => ?_
  rcases huse with huse | huse | ⟨huse, hne, hpass⟩
  · rw [checkUse, huse] at h₂
    cases h₂
    exact .refl hc₁ hr
  · rw [checkUse, huse] at h₂
    cases h₂
    exact .refl hc₁ hr
  · have hi : Informed env c₁.memory s₁ e.node w := by
      rw [hk.memory]
      exact ⟨by
        rw [hfacts]; exact hvalid, harm.trans hdepth, known, by
          rw [hfacts]
          exact hknown, htrue w hb⟩
    have ho : Value.overlooked env.layout c₁.memory w e.useKind = false := by
      rcases huse with huse | huse <;> simpa [huse, Value.overlooked, UseKind.isCell] using hne
    refine (checkUse_passes h₂ hm hc₁ hr hi (by rwa [hk.memory]) ho).1.mono fun c₂ hk₂ _ => ?_
    exact hr.keep e₂.toExtends hk₂

/-! ## The theorem -/

/-- A block that goes on in a block of the graph takes no values. -/
theorem Continues.plain {g : Graph} {options : LoweringOptions} {layout : ObjectLayout}
    {session : Session} {p : BlockId} {t : BlockIndex} (h : Continues session.env s p t)
    (hstart : Session.start g options layout = .ok session)
    (hlater : session.state.builder.Extends s.builder) (hm : s.builder.Completes m.func) :
    m.Plain p := by
  obtain ⟨phis, args, hphis, hargs, hlt, ⟨rfl, rfl⟩ | ⟨hclosed, hblk⟩⟩ := h
  · obtain ⟨hg, q, hprologue⟩ := Session.start_ok hstart
    rw [hg] at hphis hlt
    obtain ⟨-, -, b, hdeclared, hjump⟩ := prologue_declared hprologue
    obtain ⟨rs, hrs, hlen, -⟩ := hdeclared.body t.index hlt
    have hnil : rs = [] := by
      obtain rfl : phis = [] := by simpa using hargs
      rw [Graph.phiTypes_ok hphis] at hlen
      exact List.length_eq_zero_iff.1 hlen
    have hbody : session.state.builder.func.blocks[t.index + 1]? = some { params := rs } := by
      rw [hjump, if_pos (by omega)]
      simpa [Builder.close, Array.getElem?_modify, hdeclared.current] using hrs
    obtain ⟨blk, hblk, hparams, -⟩ := (hlater.completes hm).grown _ _ hbody
    exact ⟨blk, Machine.block_eq_ok.2 hblk, by rw [hparams, hnil]⟩
  · exact ⟨_, Machine.block_eq_ok.2 ((hm.closed _ hclosed).trans hblk), rfl⟩

theorem Targets.Continue.plain {g : Graph} {options : LoweringOptions} {layout : ObjectLayout}
    {session : Session} {data : SwitchData} {t : Targets} (h : t.Continue session.env s data)
    (hstart : Session.start g options layout = .ok session)
    (hlater : session.state.builder.Extends s.builder) (hm : s.builder.Completes m.func) :
    t.Plain m := by
  intro p hp
  rcases List.mem_cons.1 hp with rfl | hp
  · exact h.fallback.plain hstart hlater hm
  · obtain ⟨q, hq, rfl⟩ := List.mem_map.1 hp
    exact (h.blocks q hq).plain hstart hlater hm

theorem Targets.Continue.later {data : SwitchData} {t : Targets} (h : t.Continue env s data)
    (e : s.builder.Extends s'.builder) (hu : s'.upsilons = s.upsilons) : t.Continue env s' data :=
  ⟨h.fallback.later e hu, fun q hq => (h.blocks q hq).later e hu, fun k hk => (h.cases k hk).later e
    hu⟩

/-- The block to go to for the first case that matches goes on in its target. -/
theorem Targets.Continue.goal {data : SwitchData} {t : Targets} (h : t.Continue env s data)
    (isMatch : SwitchCase → Bool) :
    Continues env s (t.goal ((data.cases.find? isMatch).map (·.target)))
      (data.targetOf isMatch) := by
  rw [Targets.goal, SwitchData.targetOf]
  cases hf : data.cases.find? isMatch with
  | none => exact h.fallback
  | some k => exact h.cases k (List.mem_of_find?_eq_some hf)

/-! Nothing but code is added once the targets are there. -/

section Quiet

variable {α β : Type}

end Quiet

/-- The operand is read and, if it may be anything, tested for a string. -/
theorem stringOperand_ok {node : Node} {data : SwitchData} {e : Edge} {string : Reg}
    {targets : Targets} (hchild : node.child 0 = .ok e)
    (h : stringOperand node data env s = .ok ((string, targets), s')) :
    ∃ s₁ s₂, asValue e env s = .ok (string, s₁) ∧ switchTargets data env s₁ = .ok (targets, s₂) ∧
      ((e.useKind = .knownString ∨ e.useKind = .string ∨ e.useKind = .stringIdent) ∧ s' = s₂ ∨
        e.useKind = .untyped ∧ requireString string targets.fallback env s₂ = .ok ((), s')) := by
  obtain ⟨e', he', h⟩ := check_bind_ok h
  rw [hchild] at he'
  cases he'
  have htyped (h : (do
      let string ← asValue e
      return (string, ← switchTargets data) : Lower (Reg × Targets)) env s = .ok ((string, targets),
        s')) :
      ∃ s₁, asValue e env s = .ok (string, s₁) ∧ switchTargets data env s₁ = .ok (targets, s') := by
    obtain ⟨r, s₁, h₁, h⟩ := bind_ok h
    obtain ⟨t, s₂, h₂, h⟩ := bind_ok h
    cases h
    exact ⟨s₁, h₁, h₂⟩
  cases hu : e.useKind <;> rw [hu] at h
  case string | knownString | stringIdent =>
    obtain ⟨s₁, h₁, h₂⟩ := htyped h
    exact ⟨s₁, s', h₁, h₂, .inl ⟨by simp, rfl⟩⟩
  case untyped =>
    obtain ⟨r, s₁, h₁, h⟩ := bind_ok h
    obtain ⟨t, s₂, h₂, h⟩ := bind_ok h
    obtain ⟨_, s₃, h₃, h⟩ := bind_ok h
    cases h
    exact ⟨s₁, s₂, h₁, h₂, .inr ⟨rfl, h₃⟩⟩
  all_goals cases h

/-- The code of the operand goes to the fallback or, for a string that passes the checks, goes on.
-/
theorem stringOperand_heads {g : Graph} {options : LoweringOptions} {layout : ObjectLayout}
    {session : Session}
    {node operand : Node} {data : SwitchData} {e : Edge} {string : Reg} {targets : Targets}
    {x : Datum} {known : AbstractValue}
    (hstart : Session.start g options layout = .ok session)
    (hlater : session.state.builder.Extends s.builder)
    (hchild : node.child 0 = .ok e)
    (h : stringOperand node data session.env s = .ok ((string, targets), s'))
    (hm : s'.builder.Completes m.func) (hc : m.At s.builder c) (hvalid : s.facts.valid = true)
    (hdepth : s.armDepth = 0)
    (hx : Holds session.env s c e.node operand x)
    (hknown : s.facts.factOf session.env.graph e.node = .ok known)
    (hbox : m.BoxesInt52 c.memory)
    (htrue : ∀ w, x.BoxesTo known.ty w → known.Describes (Value.kindOf session.env.layout c.memory
      w)) :
    targets.Continue session.env s' data ∧ targets.Plain m ∧ ∃ w, x.BoxesTo known.ty w ∧
      (e.useKind = .untyped → Value.passes session.env.layout c.memory w .string = false →
        m.Heads s.builder c targets.fallback) ∧
      ∀ p, w ≠ Value.empty ∨ e.useKind = .untyped → Value.passes session.env.layout c.memory w
        .string = true →
        Value.passes session.env.layout c.memory w e.useKind = true →
        (∀ c', m.At s'.builder c' → c.Follows s.builder c' s'.builder → c'.Has s'.builder string
          .i64 w →
          m.Heads s'.builder c' p) → m.Heads s.builder c p := by
  obtain ⟨s₁, s₂, h₁, h₂, hrest⟩ := stringOperand_ok hchild h
  have e₁ : s.builder.Emits [] s₁.builder := Tidy.after h₁ (.refl hc.wf)
  obtain ⟨x₂, hcont₂⟩ := switchTargets_continue (m := m) h₂ e₁.after
  have e₂ := x₂.emits
  have e₃ : s₂.builder.Emits [] s'.builder ∧ s'.upsilons = s₂.upsilons := by
    rcases hrest with ⟨-, rfl⟩ | ⟨-, h₃⟩
    · exact ⟨.refl e₂.after, rfl⟩
    · exact ⟨Tidy.after h₃ (.refl e₂.after), (Quiet.same _ _ _ _ h₃).upsilons⟩
  have hm₂ := e₃.1.toExtends.completes hm
  have hcont := hcont₂.later e₃.1.toExtends e₃.2
  have hplain : targets.Plain m :=
    hcont.plain hstart (hlater.trans (e₁.toExtends.trans (e₂.toExtends.trans e₃.1.toExtends))) hm
  obtain ⟨w, hw, hruns⟩ := asValue_goes h₁ (e₂.toExtends.completes hm₂) hc hvalid hdepth hx hknown
    hbox htrue
  refine ⟨hcont, hplain, w, hw, fun hu hnot => ?_, fun p hne hstring hpass k => ?_⟩
  · rcases hrest with ⟨hu', -⟩ | ⟨-, h₃⟩
    · simp [hu] at hu'
    refine (hruns (.inl hu)).heads e₁.toExtends fun c₁ hc₁ f₁ hr => .grow ?_ e₂.toExtends
    have hgoal := requireString_heads (p := targets.fallback) h₃ hm (x₂.stands _ hc₁)
      (hr.keep e₂.toExtends (.refl _ _))
      hplain.fallback fun c' hpass => by
        rw [f₁.memory, hnot] at hpass
        cases hpass
    simpa using hgoal
  · have huse : e.useKind = .untyped ∨ e.useKind = .knownString ∨
      (e.useKind = .string ∨ e.useKind = .stringIdent) ∧
        w ≠ Value.empty ∧ Value.passes session.env.layout c.memory w e.useKind = true := by
      rcases hrest with ⟨hu | hu, -⟩ | ⟨hu, -⟩
      · exact .inr (.inl hu)
      · refine .inr (.inr ⟨hu, hne.resolve_right fun hu' => ?_, hpass⟩)
        simp [hu'] at hu
      · exact .inl hu
    refine (hruns huse).heads e₁.toExtends fun c₁ hc₁ f₁ hr => .grow ?_ e₂.toExtends
    have f₂ : c₁.Follows s₁.builder c₁ s₂.builder := ⟨e₂.toExtends, .refl _ _⟩
    have hc₂ := x₂.stands _ hc₁
    rcases hrest with ⟨-, rfl⟩ | ⟨-, h₃⟩
    · exact k c₁ hc₂ (f₁.trans f₂) (hr.later f₂)
    · have hgoal := requireString_heads (p := p) h₃ hm hc₂ (hr.later f₂) hplain.fallback
        fun c' _ hc' f' =>
        k c' hc' ((f₁.trans f₂).trans f') ((hr.later f₂).later f')
      rw [f₁.memory, hstring] at hgoal
      exact hgoal

/-- Control gets to the head of block `t` of the graph, or of a block on the edge to it that does
nothing but hand over the values that were kept for the phis. The registers that were there are as
before. -/
def Reaches (m : Machine σ) (env : Env) (s s' : State) (c : Config σ) (t : BlockIndex) : Prop :=
  ∃ p phis args, m.Heads s.builder c p ∧ env.graph.phis t = .ok phis ∧
    phis.map (s'.upsilons.lookup ·) = args.map some ∧
    (args = [] ∧ p = ⟨t.index + 1⟩ ∨
      m.func.blocks[p.index]? = some { terminator := .jump ⟨t.index + 1⟩ args })

theorem Continues.reaches {s₀ : State} {p : BlockId} {t : BlockIndex} (h : Continues env s p t)
    (hm : s.builder.Completes m.func) (hp : m.Heads s₀.builder c p) : Reaches m env s₀ s c t := by
  obtain ⟨phis, args, hphis, hargs, -, hblock⟩ := h
  exact ⟨p, phis, args, hp, hphis, hargs, hblock.imp_right fun ⟨hc, hblk⟩ => (hm.closed _ hc).trans
    hblk⟩

/-- A string switch goes to the target of the first case that is equal to the string, or to the
fall-through.

The operand has the word `w`. If it does not pass for a string, an untyped switch goes to the
fall-through. If it does and the use of the operand takes it, there are two ways. A string with
8-bit characters is compared with the cases, if these allow it; no runtime is needed. Ropes, other
strings and other lists of cases are left to the runtime, which is trusted to give the first case
that matches. Keys are numbers of 32 bits, so that there have to be fewer cases, and characters are
found by offsets of 31 bits, which the options have to see to.

The empty word passes for a string where the byte at the place of its tag is that of strings: an
untyped switch then compares the characters found from address 0 on with its cases, and may go to
one of them. -/
theorem switchString_reaches {g : Graph} {options : LoweringOptions} {layout : ObjectLayout}
    {session : Session}
    {id : NodeId} {node operand : Node} {data : SwitchData} {e : Edge} {x : Datum}
    {known : AbstractValue}
    (hstart : Session.start g options layout = .ok session)
    (hlater : session.state.builder.Extends s.builder)
    (hop : node.op = .switch data) (hkind : data.kind = .string) (hchild : node.child 0 = .ok e)
    (h : lowerOp id node session.env s = .ok ((), s')) (hm : s'.builder.Completes m.func)
    (hc : m.At s.builder c)
    (hvalid : s.facts.valid = true) (hdepth : s.armDepth = 0)
    (hx : Holds session.env s c e.node operand x)
    (hknown : s.facts.factOf session.env.graph e.node = .ok known)
    (htrue : ∀ w, x.BoxesTo known.ty w → known.Describes (Value.kindOf session.env.layout c.memory
      w))
    (hbox : m.BoxesInt52 c.memory) (hcount : data.cases.length < 0x100000000)
    (hlength : session.env.options.maxStringSwitchCaseLength ≤ 0x80000000) :
    ∃ w, x.BoxesTo known.ty w ∧
      (e.useKind = .untyped → Value.passes session.env.layout c.memory w .string = false →
        Reaches m session.env s s' c data.fallThrough) ∧
      (w ≠ Value.empty ∨ e.useKind = .untyped → Value.passes session.env.layout c.memory w
        .string = true →
        Value.passes session.env.layout c.memory w e.useKind = true →
        ((stringCases? data session.env.options).isSome = true → Cell.isOneByte session.env.layout
          c.memory w = true →
          Reaches m session.env s s' c
            (data.targetOf (·.spells (Cell.characters session.env.layout c.memory w)))) ∧
        (stringCases? data session.env.options = none ∨ Cell.isOneByte session.env.layout c.memory
          w = false →
          ∀ isMatch, m.LooksUp data c.memory w isMatch → Reaches m session.env s s' c
            (data.targetOf isMatch))) := by
  rw [lowerOp, hop] at h
  change lowerSwitch node data session.env s = _ at h
  rw [lowerSwitch, hkind] at h
  obtain ⟨⟨string, targets⟩, s₁, h₁, h⟩ := bind_ok h
  dsimp only at h
  rw [read_bind] at h
  have e₁ : s.builder.Emits [] s₁.builder := Tidy.after h₁ (.refl hc.wf)
  -- the code behind the operand
  have e₂ : s₁.builder.Emits [] s'.builder ∧ s'.upsilons = s₁.upsilons := by
    cases hcases : stringCases? data session.env.options with
    | none =>
      rw [hcases] at h
      exact ⟨Tidy.after h (.refl e₁.after), (Quiet.same _ _ _ _ h).upsilons⟩
    | some cases =>
      rw [hcases] at h
      exact ⟨Tidy.after h (.refl e₁.after), (Quiet.same _ _ _ _ h).upsilons⟩
  obtain ⟨hcont, hplain, w, hw, hfall, hgo⟩ :=
    stringOperand_heads hstart hlater hchild h₁ (e₂.1.toExtends.completes hm) hc
    hvalid hdepth hx hknown hbox htrue
  have hcont' := hcont.later e₂.1.toExtends e₂.2
  have hshort {cases : List StringCase}
    (hcases : stringCases? data session.env.options = some cases) :
      ∀ k ∈ cases, k.rest.length ≤ 0x80000000 :=
        fun k hk => Nat.le_trans (stringCases?_length_le hcases k hk) hlength
  refine ⟨w, hw, fun hu hnot => hcont'.fallback.reaches hm (hfall hu hnot),
    fun hne hstring hpass => ⟨?_, ?_⟩⟩
  · intro hsome hone
    obtain ⟨cases, hcases⟩ := Option.isSome_iff_exists.1 hsome
    rw [hcases] at h
    refine (hcont'.goal _).reaches hm (hgo _ hne hstring hpass fun c₁ hc₁ f₁ hr => ?_)
    rw [← stringCases?_find hcases, ← f₁.memory]
    exact (switchInline_heads h hm hc₁ hr hplain (hshort hcases)).1 (by rwa [f₁.memory])
  · intro hslow isMatch hlook
    refine (hcont'.goal _).reaches hm (hgo _ hne hstring hpass fun c₁ hc₁ f₁ hr => ?_)
    rw [← f₁.memory] at hlook hslow
    cases hcases : stringCases? data session.env.options with
    | none =>
      rw [hcases] at h
      exact switchByRuntime_heads h hm hc₁ hr hplain hcount hlook
    | some cases =>
      rw [hcases] at h
      exact (switchInline_heads h hm hc₁ hr hplain (hshort hcases)).2
        (hslow.resolve_left (by simp [hcases])) hcount _ hlook

/-! A switch on the constant string "hi", which is the text of both cases. -/

namespace ConstantSwitch

/-- The switch of a program that returns a constant, wherever the switch goes. -/
def node (data : SwitchData) : Node where
  op := .switch data
  children := [{ node := ⟨0⟩ }]

def graph (name : String) (value : FrozenValue) (data : SwitchData) : Graph where
  name
  nodes := #[
    { op := .jsConstant value, result := .jsValue },
    node data,
    { op := .ret, children := [{ node := ⟨0⟩ }] },
    { op := .ret, children := [{ node := ⟨0⟩ }] },
    { op := .ret, children := [{ node := ⟨0⟩ }] }]
  blocks := #[{ index := ⟨0⟩, nodes := #[⟨0⟩, ⟨1⟩] },
    { index := ⟨1⟩, nodes := #[⟨2⟩], predecessors := [⟨0⟩] },
    { index := ⟨2⟩, nodes := #[⟨3⟩], predecessors := [⟨0⟩] },
    { index := ⟨3⟩, nodes := #[⟨4⟩], predecessors := [⟨0⟩] }]
  numArguments := 1
  numLocals := 0

/-- The start of block 0. -/
def before (session : Session) : State where
  builder := session.state.builder.goTo ⟨1⟩
  facts := { blocks := #[], current := .empty session.env.graph, valid := true }
  availability := .empty session.env.graph

def config (f : Function) (memory : Memory) : Config Unit where
  registers := Array.replicate f.types.size none
  block := ⟨1⟩
  memory
  runtimeState := ()

variable {session : Session} {name : String} {value : FrozenValue} {data : SwitchData} {w : Word}

theorem holds (f : Function) (memory : Memory) (h : session.env.graph = graph name value data)
    (hw : (Op.jsConstant value).constantWord? = some w) :
    Holds session.env (before session) (config f memory) ⟨0⟩
      { op := .jsConstant value, result := .jsValue } (.boxed w) where
  found := by rw [h]; rfl
  shown form r hr := by cases hr
  constant w' hw' := Option.some.inj (hw'.symm.trans hw) ▸ rfl
  boxed _ _ hnone := by rw [hw] at hnone; cases hnone

/-- Nothing is known of the constant yet. -/
theorem factOf_before (h : session.env.graph = graph name value data) :
    (before session).facts.factOf session.env.graph ⟨0⟩ = .ok (.ofType .bytecodeTop) := by
  rw [before, h]
  rfl

end ConstantSwitch

namespace TextSwitch

def address : Word := 0x5000

def text : FrozenValue := .cell { address, structureId := ⟨0⟩, string := some ⟨"hi", none⟩ }

def data : SwitchData where
  kind := .string
  cases := [⟨.string "hi", ⟨2⟩⟩, ⟨.string "hi", ⟨1⟩⟩]
  fallThrough := ⟨3⟩
  tableIndex := 0

def graph : Graph := ConstantSwitch.graph "textSwitch" text data

/-- The string and its characters. -/
def memory : Memory :=
  let string := (({} : Memory).write (address + 5) 1 (UInt64.ofNat CellType.string.tag)).write
    (address + 8) 8 0x6000
  let impl := ((string.write (0x6000 + 4) 4 2).write (0x6000 + 8) 8 0x7000).write (0x6000 + 16) 4 1
  (impl.write 0x7000 1 104).write 0x7001 1 105

/-- The lowering of the switch starts at the start of block 0, and the options and the layout are
such that the characters are compared. -/
def isAsExpected : Bool :=
  match Session.start graph {} {} with
  | .error _ => false
  | .ok session =>
    match lowerOp ⟨1⟩ (ConstantSwitch.node data) session.env (ConstantSwitch.before session) with
    | .error _ => false
    | .ok (_, s') =>
      decide ((Machine.plain s'.builder.func).At (ConstantSwitch.before session).builder
        (ConstantSwitch.config s'.builder.func memory)) &&
        (stringCases? data session.env.options).isSome &&
        Cell.isOneByte session.env.layout memory address &&
        Cell.characters session.env.layout memory address == [104, 105] &&
        Value.passes session.env.layout memory address .string &&
        Value.kindOf session.env.layout memory address == .stringVar &&
        session.env.options.maxStringSwitchCaseLength == 50

end TextSwitch

/-- The switch goes to the first of the two cases with the text. -/
theorem switchString_reaches_second :
    ∃ session s', Session.start TextSwitch.graph {} {} = .ok session ∧
    lowerOp ⟨1⟩ (ConstantSwitch.node TextSwitch.data) session.env
      (ConstantSwitch.before session) = .ok ((), s') ∧
    Reaches (Machine.plain s'.builder.func) session.env (ConstantSwitch.before session) s'
      (ConstantSwitch.config s'.builder.func TextSwitch.memory) ⟨2⟩ := by
  have hcheck : TextSwitch.isAsExpected = true := by decide +kernel
  unfold TextSwitch.isAsExpected at hcheck
  split at hcheck
  · cases hcheck
  rename_i session hstart
  split at hcheck
  · cases hcheck
  rename_i u s' h
  simp only [Bool.and_eq_true, decide_eq_true_eq, beq_iff_eq] at hcheck
  obtain ⟨⟨⟨⟨⟨⟨hc, hsome⟩, hone⟩, hcharacters⟩, hstring⟩, hkind⟩, hlength⟩ := hcheck
  have hgraph : session.env.graph = TextSwitch.graph := (Session.start_ok hstart).1
  have hbuilder : session.state.builder.Extends (ConstantSwitch.before session).builder :=
    Builder.goTo_extends _ _
  have htrue : ∀ w, (Datum.boxed TextSwitch.address).BoxesTo .bytecodeTop w →
      (AbstractValue.ofType .bytecodeTop).Describes
        (Value.kindOf session.env.layout TextSwitch.memory w) := by
    rintro w (rfl | rfl)
    all_goals exact hkind ▸ ⟨by decide, by decide, nofun⟩
  obtain ⟨w, hw, -, hgo⟩ :=
    switchString_reaches hstart hbuilder rfl rfl rfl h s'.builder.completes_self hc rfl rfl
    (ConstantSwitch.holds _ _ hgraph rfl) (ConstantSwitch.factOf_before hgraph) htrue
    (Machine.plain_boxesInt52 _ _) (by decide) (by omega)
  obtain rfl : w = TextSwitch.address := by rcases hw with rfl | rfl <;> rfl
  have hreaches := (hgo (.inr rfl) hstring rfl).1 hsome hone
  have htarget : TextSwitch.data.targetOf (·.spells [104, 105]) = ⟨2⟩ := by decide +kernel
  change Reaches _ _ _ _ _
    (TextSwitch.data.targetOf (·.spells (Cell.characters _ TextSwitch.memory _))) at hreaches
  rw [hcharacters, htarget] at hreaches
  exact ⟨session, s', hstart, h, hreaches⟩

/-- Returns 1 if the empty value is the empty string, else 2. -/
def emptySwitch : Graph where
  name := "emptySwitch"
  nodes := #[
    { op := .jsConstant .empty, result := .jsValue },
    { op := .switch { kind := .string, cases := [⟨.string "", ⟨1⟩⟩], fallThrough := ⟨2⟩,
                      tableIndex := 0 }
      children := [{ node := ⟨0⟩ }] },
    { op := .jsConstant (.int32 1), result := .jsValue },
    { op := .ret, children := [{ node := ⟨2⟩ }] },
    { op := .jsConstant (.int32 2), result := .jsValue },
    { op := .ret, children := [{ node := ⟨4⟩ }] }]
  blocks := #[{ index := ⟨0⟩, nodes := #[⟨0⟩, ⟨1⟩] },
    { index := ⟨1⟩, nodes := #[⟨2⟩, ⟨3⟩], predecessors := [⟨0⟩] },
    { index := ⟨2⟩, nodes := #[⟨4⟩, ⟨5⟩], predecessors := [⟨0⟩] }]
  numArguments := 1
  numLocals := 0

/-- At address 0 there is what an empty string has there. -/
def memoryOfString : Memory :=
  let string :=
    ((Simulation.FrameValues.memory {}).write 5 1 (UInt64.ofNat CellType.string.tag)).write 8 8
      0x6000
  ((string.write 0x6004 4 0).write 0x6008 8 0x7000).write 0x6010 4 1

/-- The empty value is no string, but the switch takes it for one. -/
theorem emptySwitch_returns_one : emptySwitch.canCompile.isOk = true ∧
    Value.kindOf {} memoryOfString Value.empty = .empty ∧
    simulated emptySwitch memoryOfString = some (.returned (Value.boxInt32 1)) := by
  decide +kernel

end Lowering

end SpecJit
