import SpecJit.Proofs.Lowering.Datum
import SpecJit.Proofs.Lowering.Laws.Operations

/-!
# Code that control gets through

`m.Passes b b'`: control that gets beyond the code from `b` to `b'` (`Config.Beyond`) has been at
its end, with registers and memory as they were before it. This is a law that holds of the steps
that read: they compute, have the runtime box integers of 52 bits, check and leave, and choose
between two arms. Code that writes or that ends a block does not obey it.
-/

namespace SpecJit

open Lir

namespace Lir

variable {σ : Type} {m : Machine σ} {b b' b₁ b₂ : Builder} {c c' : Config σ} {n : Nat}

/-- Control stands in a block that has no terminator yet, behind all that was built of it. -/
structure Config.Beyond (b : Builder) (c : Config σ) : Prop where
  notPassed : ¬ c.Passed b
  position : ∀ blk, b.func.blocks[c.block.index]? = some blk → blk.insts.size ≤ c.position

theorem Machine.At.beyond (hc : m.At b c) : c.Beyond b where
  notPassed hp := by
    unfold Config.Passed at hp
    rw [hc.block] at hp
    exact hc.isOpen.not_closed hp
  position blk hblk := by
    rw [hc.block] at hblk
    rw [hc.position blk hblk]

theorem Config.Beyond.before (h : c.Beyond b') (e : b.Extends b') : c.Beyond b where
  notPassed hp := h.notPassed (hp.grow e)
  position blk hblk := by
    obtain ⟨blk', hblk', -, hinsts⟩ := e.grown _ _ hblk
    refine Nat.le_trans ?_ (h.position blk' hblk')
    refine Nat.le_of_not_lt fun hlast => ?_
    have hinst := hinsts _ _ (Array.getElem?_eq_getElem hlast)
    simp at hinst

/-- A run that stands before the code from `b` to `b'` and gets beyond it. The runtime boxes
integers of 52 bits as documented. -/
structure Machine.Through (m : Machine σ) (b b' : Builder) (n : Nat) (c c' : Config σ) : Prop where
  completes : b'.Completes m.func
  boxes : m.BoxesInt52 c.memory
  start : m.At b c
  steps : m.Steps n c c'
  beyond : c'.Beyond b'

/-- Code that a run gets through does not leave. -/
theorem Machine.Through.not_leaves (h : m.Through b b' n c c') : ¬ m.Leaves b' c :=
  fun hleaves => h.beyond.notPassed (hleaves.passed h.steps)

theorem Machine.Through.first (h : m.Through b b' n c c') (e : b₁.Extends b') :
    m.Through b b₁ n c c' :=
  ⟨e.completes h.completes, h.boxes, h.start, h.steps, h.beyond.before e⟩

/-- A run that gets through the code has been at its end, with registers and memory as they were
before it. -/
structure Machine.Passes (m : Machine σ) (b b' : Builder) : Prop where
  emits : b.WellFormed → b.Emits [] b'
  comes : ∀ {n c c'}, m.Through b b' n c c' →
    ∃ k c₁, m.At b' c₁ ∧ c.Keeps b c₁ ∧ m.Steps k c₁ c'

/-- A run that gets through two pieces of code comes to where they meet. -/
theorem Machine.Through.rest (h : m.Through b b' n c c') (h₁ : m.Passes b b₁)
    (e : b₁.Extends b') : ∃ k c₁, m.Through b₁ b' k c₁ c' ∧ c.Follows b c₁ b₁ := by
  obtain ⟨k, c₁, hc₁, hkeeps, hs⟩ := h₁.comes (h.first e)
  exact ⟨k, c₁, ⟨h.completes, by rw [hkeeps.memory]; exact h.boxes, hc₁, hs, h.beyond⟩,
    (h₁.emits h.start.wf).toExtends, hkeeps⟩

theorem Machine.Passes.refl (b : Builder) : m.Passes b b :=
  ⟨.refl, fun ht => ⟨_, _, ht.start, .refl b _, ht.steps⟩⟩

theorem Machine.Passes.trans (h₁ : m.Passes b b₁) (h₂ : m.Passes b₁ b₂) : m.Passes b b₂ where
  emits hw := (h₁.emits hw).trans (h₂.emits (h₁.emits hw).after)
  comes ht := by
    have e₁ := h₁.emits ht.start.wf
    obtain ⟨k₁, c₁, ht₁, hf⟩ := ht.rest h₁ (h₂.emits e₁.after).toExtends
    obtain ⟨k₂, c₂, hc₂, hk₂, hs₂⟩ := h₂.comes ht₁
    exact ⟨k₂, c₂, hc₂, hf.keeps.trans hk₂ e₁.toExtends, hs₂⟩

/-- The law that control gets through the code. -/
def Builder.passing : Builder.Law where
  rel b b' := ∀ {σ : Type} (m : Machine σ), m.Passes b b'
  refl b _ _ := .refl b
  trans h₁ h₂ _ m := (h₁ m).trans (h₂ m)

/-- An instruction that leaves memory as it is. -/
theorem Machine.passes_define {ty : Ty} {inst : Inst} {r : Reg}
    (h : Emit.define ty inst b = .ok (r, b'))
    (hexec : ∀ c x, m.BoxesInt52 c.memory → m.execute c inst = .ok x →
      ∃ w t, x = (some w, { c with runtimeState := t })) : m.Passes b b' where
  emits hw := Emit.Tidy.emits inferInstance _ _ _ hw h
  comes {n c c'} ht := by
    obtain ⟨hm, hbox, hc, hs, hb⟩ := ht
    obtain ⟨b₁, h₁, rfl, rfl⟩ := Emit.define_ok h
    obtain rfl := Emit.ensureOpen_of_open h₁ hc.isOpen
    obtain ⟨blk, blk', hblk, hblk', hinst⟩ := hm.addInst_found ⟨hc.wf.flags, hc.wf.current⟩
    have hpos : c.position = blk.insts.size := hc.position blk hblk
    cases hs with
    | refl =>
      -- the instruction is still to come
      have hadded :
          ((b₁.addReg ty).addInst ⟨inst, some ⟨b₁.func.types.size⟩⟩).func.blocks[c.block.index]? =
            some { blk with insts := blk.insts.push ⟨inst, some ⟨b₁.func.types.size⟩⟩ } := by
        rw [hc.block]
        simp only [Builder.addInst, Builder.addReg, Array.getElem?_modify, ↓reduceIte]
        rw [show b₁.func.blocks[b₁.current.index]? = some blk from hblk, Option.map_some]
      have hle := hb.position _ hadded
      simp only [Array.size_push] at hle
      omega
    | next hstep hs' =>
      have hfound := Machine.step_inst (c := c) (by rw [hc.block]; exact hblk')
        (by rw [hpos]; exact hinst)
      cases hx : m.execute c inst with
      | error e => simp [hfound, Machine.stepInst, hx, bind, Except.bind] at hstep
      | ok x =>
        obtain ⟨w, t, rfl⟩ := hexec c x hbox hx
        obtain ⟨c₁, hstep₁, hc₁, hregs, hmem, -, -⟩ := Machine.define_goes h hm hc hx
        rw [hstep] at hstep₁
        cases hstep₁
        exact ⟨_, _, hc₁, ⟨hregs, hmem⟩, hs'⟩

instance : Emit.Computing Builder.passing where
  compute hinst h _ m := Machine.passes_define h fun c x _ hx => by
    rw [Machine.execute_plain hinst] at hx
    cases hv : m.value c _ with
    | error e => rw [hv] at hx; cases hx
    | ok w =>
      rw [hv] at hx
      cases hx
      exact ⟨w, _, rfl⟩

end Lir

namespace Lowering

variable {σ : Type} {m : Machine σ} {b b' : Builder} {env : Env} {s s' : State} {u : Unit}

theorem passes_boxInt52 {strict r : Reg} (h : Emit.call .boxInt52 [strict] b = .ok (r, b')) :
    m.Passes b b' := by
  refine Machine.passes_define h fun c x hbox hx => ?_
  rw [Machine.execute] at hx
  cases hr : c.read strict with
  | error e => simp [Config.readAll, hr, bind, Except.bind] at hx
  | ok w =>
    obtain ⟨t, ht⟩ := hbox w c.runtimeState
    simp only [Config.readAll, List.mapM_cons, List.mapM_nil, hr, bind, Except.bind, pure,
      Except.pure, ht] at hx
    cases hx
    exact ⟨_, t, rfl⟩

/-- Control that gets beyond a speculation did not leave. -/
theorem passes_speculate {kind : ExitKind} {profile : Option Reg} {failing : Reg}
    (h : speculate kind profile failing env s = .ok (u, s')) : m.Passes s.builder s'.builder where
  emits hw := Tidy.after h (.refl hw)
  comes {n c c'} ht := by
    obtain ⟨hm, -, hc, hs, hb⟩ := ht
    obtain ⟨d⟩ := speculation h hc.wf
    rw [d.ends] at hm hb ⊢
    have hlast := Builder.goTo_extends d.left d.continuation
    have hmLeft := hlast.completes hm
    have hmForked := d.fromForked.completes hmLeft
    -- up to the branch
    obtain ⟨c₁, hgoes, hc₁, hregs, hmem⟩ :=
      d.straight.does (L := .univ) (d.emits.toExtends.completes hm) hc
    have hat := d.stands hc₁
    have hpassed := (Machine.terminate_step d.branch hmForked hat).2.grow (d.fromForked.trans hlast)
    obtain ⟨k, hs₁⟩ :=
      ((hgoes.mono fun _ hx => hx.1).passed hc₁ d.emits.toExtends hpassed).rest hs hb.notPassed
    cases hs₁ with
    | refl => exact absurd hpassed hb.notPassed
    | next hstep hs₂ =>
      obtain ⟨w, hw⟩ := hat.branch_read d.branch hmForked hstep
      obtain ⟨-, hfork⟩ := hat.fork d.branch hmForked hw d.coldWaits d.nextForked
      rw [hfork] at hstep
      cases hstep
      by_cases hz : w.toUInt32 = 0
      · rw [if_neg (by simpa using hz)] at hs₂
        exact ⟨_, { c₁ with block := d.continuation, position := 0 },
          d.nextWaits.at d.leftWf rfl rfl hc₁.registers, ⟨hregs, hmem⟩, hs₂⟩
      · -- the block that leaves
        rw [if_pos hz] at hs₂
        have hcold : m.At (d.forked.goTo d.cold) { c₁ with block := d.cold, position := 0 } :=
          d.coldWaits.at d.forkedWf rfl rfl hc₁.registers
        obtain ⟨hexit, hpassed₂⟩ := Machine.terminate_step d.leave hmLeft hcold
        have hleaves : m.Leaves d.left { c₁ with block := d.cold, position := 0 } :=
          ⟨_, d.exit, d.captured, .refl _, hpassed₂, hexit⟩
        exact absurd ((hleaves.passed hs₂).grow hlast) hb.notPassed

/-- Control does not get beyond a block that ends by leaving. -/
theorem passes_terminate {kind : ExitKind} (h : terminate kind env s = .ok (u, s')) :
    m.Passes s.builder s'.builder where
  emits hw := Tidy.after h (.refl hw)
  comes {n c c'} ht := by
    by_cases hv : s.facts.valid = true
    · exact absurd (terminate_leaves h ht.completes ht.start hv) ht.not_leaves
    · rw [terminate, get_bind] at h
      obtain ⟨t, b₁, h₁, h⟩ := emit_bind_ok h
      obtain ⟨rfl, -⟩ := Emit.isTerminated_ok h₁
      rw [if_pos (by simp [hv])] at h
      cases h
      exact ⟨n, c, ht.start, .refl _ _, ht.steps⟩

/-- A step that control gets through. -/
abbrev Passed (x : Lower α) : Prop := Obeys (onBuilders Builder.passing) x

/-- Control that gets beyond an arm has been at the head of the block where the arms join. -/
theorem Passed.joins {arm : Lower Reg} (harm : Passed arm) {b₀ last : Builder}
    {p join : BlockId} {r result : Reg} {ty : Ty} {c c' : Config σ} {n : Nat} (hp : b.Waits p [])
    (hw : b.WellFormed) (hb : s.builder = b.goTo p) (h : arm env s = .ok (r, s'))
    (hjump : Emit.jump join [r] s'.builder = .ok (u, b')) (hm : b'.Completes m.func)
    (hj : b'.Waits join [result]) (hty : b'.func.types[result.index]? = some ty)
    (hnew : b₀.func.types.size ≤ result.index) (e₀ : b₀.Extends b) (e : b'.Extends last)
    (hbox : m.BoxesInt52 c.memory) (hregs : c.registers.size = m.func.types.size)
    (hs : m.Steps n { c with block := p, position := 0 } c') (hbeyond : c'.Beyond last) :
    ∃ k c₁, c₁.block = join ∧ c₁.position = 0 ∧ c₁.registers.size = m.func.types.size ∧
      c.Keeps b₀ c₁ ∧ m.Steps k c₁ c' := by
  have hc : m.At s.builder { c with block := p, position := 0 } := by
    rw [hb]
    exact hp.at hw rfl rfl hregs
  have hpass : m.Passes s.builder s'.builder := harm.of_ok h m
  have e₁ := hpass.emits hc.wf
  have e₂ := (inferInstance : (Emit.jump join [r]).Tidy).emits _ _ _ e₁.after hjump
  have hsize : b₀.func.types.size ≤ s.builder.func.types.size := by
    rw [hb]
    exact e₀.types_size_le
  have hthrough : m.Through s.builder s'.builder n { c with block := p, position := 0 } c' :=
    ⟨e₂.toExtends.completes hm, hbox, hc, hs, hbeyond.before (e₂.toExtends.trans e)⟩
  obtain ⟨k, c₁, hc₁, hk₁, hs₁⟩ := hpass.comes hthrough
  have hpassed := (Machine.terminate_step hjump hm hc₁).2.grow e
  cases hs₁ with
  | refl => exact absurd hpassed hbeyond.notPassed
  | next hstep hs₂ =>
    obtain ⟨w, hread⟩ := hc₁.jump_read hjump hm hj hstep
    obtain ⟨-, hjoin⟩ := hc₁.join hjump hm hread hj hty
    rw [hjoin] at hstep
    cases hstep
    refine ⟨_, { c₁ with
      block := join, position := 0, registers := c₁.registers.setIfInBounds result.index (some w) },
      rfl, rfl, by simpa using hc₁.registers, ⟨fun i hi => ?_, hk₁.memory⟩, hs₂⟩
    simp only []
    rw [Array.getElem?_setIfInBounds_ne (by omega)]
    exact hk₁.registers i (Nat.lt_of_lt_of_le hi hsize)

/-- Control that gets beyond the block where two arms join has been through one of them. -/
theorem passed_diamond (ty : Ty) (cond : Reg) (weight : BranchWeight) {x y : Lower Reg} [Tidy x]
    [Tidy y] (hx : Passed x) (hy : Passed y) : Passed (diamond ty cond weight x y) where
  obeys env s result s' h σ m := {
    emits := fun hw => Tidy.after h (.refl hw)
    comes := fun {n c c'} ht => by
      obtain ⟨hm, hbox, hc, hs, hb⟩ := ht
      obtain ⟨d⟩ := diamond_ok h hc.wf
      rw [d.ends] at hm hb ⊢
      have hlast := Builder.goTo_extends d.elseDone d.join
      have hmElse := hlast.completes hm
      have hmThen := d.fromThen.completes hmElse
      have hmForked := d.fromForked.completes hmThen
      have hat := d.stands hc
      have hpassed := (Machine.terminate_step d.branch hmForked hat).2.grow
        (d.fromForked.trans (d.fromThen.trans hlast))
      cases hs with
      | refl => exact absurd hpassed hb.notPassed
      | next hstep hs₁ =>
        obtain ⟨w, hw⟩ := hat.branch_read d.branch hmForked hstep
        obtain ⟨-, hfork⟩ := hat.fork d.branch hmForked hw d.thenWaits d.elseForked
        rw [hfork] at hstep
        cases hstep
        obtain ⟨k, c₁, hblock, hpos, hregs, hk, hs₂⟩ : ∃ k c₁, c₁.block = d.join ∧
            c₁.position = 0 ∧ c₁.registers.size = m.func.types.size ∧ c.Keeps s.builder c₁ ∧
            m.Steps k c₁ c' := by
          by_cases hz : w.toUInt32 = 0
          · rw [if_neg (by simpa using hz)] at hs₁
            exact hy.joins d.elseWaits
              d.thenDoneWf d.elseFrom d.elseOk d.elseJump hmElse d.joinElse d.typeElse d.fresh
              (d.toForked.trans d.fromForked) hlast hbox hc.registers hs₁ hb
          · rw [if_pos hz] at hs₁
            exact hx.joins d.thenWaits
              d.forkedWf d.thenFrom d.thenOk d.thenJump hmThen d.joinThen d.typeThen d.fresh
              d.toForked (d.fromThen.trans hlast) hbox hc.registers hs₁ hb
        exact ⟨k, c₁, d.joinElse.at d.elseDoneWf hblock hpos hregs, hk, hs₂⟩ }

instance : (onBuilders Builder.passing).Computes where
  computing := inferInstance
  chooses ty cond weight := passed_diamond ty cond weight inferInstance inferInstance
  speculates _ _ _ := ⟨fun _ _ _ _ h _ _ => passes_speculate h⟩

instance : (onBuilders Builder.passing).Boxes where
  boxes h := emitted_onBuilders fun _ => passes_boxInt52 h

instance : (onBuilders Builder.passing).Leaves where
  leaves _ := ⟨fun _ _ _ _ h _ _ => passes_terminate h⟩

end Lowering

end SpecJit
