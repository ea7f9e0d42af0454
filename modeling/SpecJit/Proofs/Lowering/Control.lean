import SpecJit.Proofs.Lir.Yields
import SpecJit.Proofs.Lowering.Laws.Forms

/-!
# Running checks and diamonds

What the two shapes of control flow that the lowering makes do at run time. A speculation goes on if
its test is 0 and leaves otherwise (`speculate_runs`); a diamond runs one of its arms and hands its
value on (`diamond_acts`, and `diamond_yields` for arms that only compute). `Acts m L env b c x Q`
says of a lowering step `x` with any effect that its code loads from `L` only and ends as `Q` says.
-/

namespace SpecJit

namespace Lir

variable {σ : Type} {m : Machine σ} {b b' : Builder} {c c' : Config σ} {p q : BlockId}
  {params : List Reg} {u : Unit}

theorem Builder.goTo_extends (b : Builder) (p : BlockId) : b.Extends (b.goTo p) :=
  ⟨fun _ _ h => h, fun _ blk h => ⟨blk, h, rfl, fun _ _ h => h⟩, fun _ h => ⟨h, rfl⟩⟩

theorem Builder.Waits.wf (h : b.Waits p params) (hw : b.WellFormed) : (b.goTo p).WellFormed :=
  ⟨hw.flags, (h.isOpen.lt hw : p.index < b.func.blocks.size)⟩

/-- Control at a branch between blocks that wait gets to the head of one of them. -/
theorem Machine.At.fork {cond : Reg} {weight : BranchWeight} {w : Word} (hc : m.At b c)
    (h : Emit.branch cond p q weight b = .ok (u, b')) (hm : b'.Completes m.func)
    (hcond : c.read cond = .ok w) (hp : b'.Waits p []) (hq : b'.Waits q []) :
    c.Passed b' ∧ m.step c = .ok (.running { c with
      block := if w.toUInt32 ≠ 0 then p else q, position := 0 }) := by
  obtain ⟨hstep, hpassed⟩ := terminate_step h hm hc
  obtain ⟨blk, hblk, hparams⟩ := hp.found hm
  obtain ⟨blk', hblk', hparams'⟩ := hq.found hm
  refine ⟨hpassed, ?_⟩
  rw [hstep]
  by_cases hz : w.toUInt32 = 0
  · simp [stepTerminator, hcond, hz, enter_nil hblk' hparams', bind, Except.bind, pure, Except.pure]
  · simp [stepTerminator, hcond, hz, enter_nil hblk hparams, bind, Except.bind, pure, Except.pure]

/-- Control at the end of an arm hands a value to the block where the arms join. -/
theorem Machine.At.join {r result : Reg} {ty : Ty} {w : Word} (hc : m.At b c)
    (h : Emit.jump p [r] b = .ok (u, b')) (hm : b'.Completes m.func) (hr : c.read r = .ok w)
    (hp : b'.Waits p [result]) (hty : b'.func.types[result.index]? = some ty) :
    c.Passed b' ∧ m.step c = .ok (.running { c with
      block := p, position := 0, registers := c.registers.setIfInBounds result.index (some w) })
        := by
  obtain ⟨hstep, hpassed⟩ := terminate_step h hm hc
  obtain ⟨blk, hblk, hparams⟩ := hp.found hm
  have hlt : result.index < c.registers.size := by
    rw [hc.registers]
    exact (Array.getElem?_eq_some_iff.1 (hm.types _ _ hty)).1
  refine ⟨hpassed, ?_⟩
  rw [hstep]
  simp [stepTerminator, enter_single hblk hparams hr hlt, bind, Except.bind, pure, Except.pure]

/-- Control that goes on behind a branch has read the condition. -/
theorem Machine.At.branch_read {cond : Reg} {weight : BranchWeight} (hc : m.At b c)
    (h : Emit.branch cond p q weight b = .ok (u, b')) (hm : b'.Completes m.func)
    (hstep : m.step c = .ok (.running c')) : ∃ w, c.read cond = .ok w := by
  rw [(terminate_step h hm hc).1, stepTerminator] at hstep
  cases hr : c.read cond with
  | error e => rw [hr] at hstep; cases hstep
  | ok w => exact ⟨w, rfl⟩

/-- Control that goes on behind a jump has read the value that it hands over. -/
theorem Machine.At.jump_read {r : Reg} (hc : m.At b c) (h : Emit.jump p [r] b = .ok (u, b'))
    (hm : b'.Completes m.func) (hp : b'.Waits p params) (hstep : m.step c = .ok (.running c')) :
    ∃ w, c.read r = .ok w := by
  obtain ⟨blk, hblk, -⟩ := hp.found hm
  rw [(terminate_step h hm hc).1, stepTerminator, enter, hblk] at hstep
  cases hr : c.read r with
  | error e =>
    have hreads : c.readAll [r] = .error e := by simp [Config.readAll, hr, bind, Except.bind]
    by_cases hlen : blk.params.length = 1 <;>
      simp [hlen, hreads, bind, Except.bind, throw, throwThe, MonadExceptOf.throw] at hstep
  | ok w => exact ⟨w, rfl⟩

/-- What was gone through up to a block that has its terminator now. -/
theorem Machine.Goes.passed {c' : Config σ} (h : m.Goes (Config.Inside b) c c') (hc : m.At b c')
    (e : b.Extends b') (hp : c'.Passed b') : m.Goes (Config.Passed b') c c' :=
  ((h.mono fun _ hx => ⟨hx, trivial⟩).enclosed (P := fun _ => True) hc e hp).mono fun _ hx => hx.1

theorem Machine.Reaches.passed {P : Config σ → Prop} (h : m.Reaches b c P) : c.Passed b := by
  obtain ⟨c', hgoes, hpassed, -⟩ := h
  cases hgoes with
  | refl => exact hpassed
  | next hp _ _ => exact hp

/-- Code that runs up to code that leads somewhere. -/
theorem Machine.Runs.reaches {b₁ : Builder} {Q P : Config σ → Prop} (h : m.Runs b c b₁ Q)
    (e : b₁.Extends b') (k : ∀ c', m.At b₁ c' → c.Keeps b c' → Q c' → m.Reaches b' c' P) :
    m.Reaches b' c P := by
  obtain ⟨c₁, hgoes, hc₁, hk, hq⟩ := h
  have hreach := k c₁ hc₁ hk hq
  have hp := hreach.passed
  obtain ⟨c₂, hgoes₂, hpassed, hlast⟩ := hreach
  exact ⟨c₂, (hgoes.passed hc₁ e hp).trans hgoes₂, hpassed, hlast⟩

/-- Code that runs up to code that leaves. -/
theorem Machine.Runs.leaves {b₁ : Builder} {Q : Config σ → Prop} (h : m.Runs b c b₁ Q)
    (e : b₁.Extends b') (k : ∀ c', m.At b₁ c' → c.Keeps b c' → Q c' → m.Leaves b' c') :
    m.Leaves b' c :=
  leaves_iff.2 (h.reaches e fun c' hc' hk hq => leaves_iff.1 (k c' hc' hk hq))

/-- Code that runs up to code that leaves or runs. -/
theorem Machine.Runs.orLeaves {ι : Type} {b₁ : Builder} {P : Config σ → Prop} {A : ι → Prop}
    {Q : ι → Config σ → Prop}
    (h : m.Runs b c b₁ P) (e : b.Extends b₁) (e' : b₁.Emits [] b')
    (k : ∀ c₁, m.At b₁ c₁ → c.Follows b c₁ b₁ → P c₁ → m.Leaves b' c₁ ∨ ∃ i, A i ∧
      m.Runs b₁ c₁ b' (Q i)) :
    m.Leaves b' c ∨ ∃ i, A i ∧ m.Runs b c b' (Q i) := by
  obtain ⟨c₁, hgoes, hc₁, hk, hp⟩ := h
  have hruns : m.Runs b c b₁ (· = c₁) := ⟨c₁, hgoes, hc₁, hk, rfl⟩
  rcases k c₁ hc₁ ⟨e, hk⟩ hp with hleave | ⟨i, ha, hrest⟩
  · exact .inl (hruns.leaves e'.toExtends fun c' _ _ hc' => hc' ▸ hleave)
  · exact .inr ⟨i, ha, hruns.bind e e'.toGrows fun c' _ _ hc' => hc' ▸ hrest⟩

end Lir

namespace Lowering

open Lir

variable {σ : Type} {m : Machine σ} {c c' : Config σ} {env : Env} {s s' : State} {u : Unit}

/-- A block was made, and control stands where it did. -/
structure Made (id : BlockId) (b b' : Builder) : Prop where
  waits : b'.Waits id []
  emits : b.Emits [id] b'
  current : b'.current = b.current
  after : ∀ {b₀ : Builder} {P : List BlockId}, b₀.Emits P b → b₀.Emits (P ++ [id]) b'
  stands : ∀ {σ : Type} {m : Machine σ} {c : Config σ}, m.At b c → m.At b' c

theorem createBlock_made {cold : Bool} {id : BlockId} {b b' : Builder}
    (h : Emit.createBlock cold b = .ok (id, b')) (hw : b.WellFormed) : Made id b b' := by
  obtain ⟨rfl, rfl⟩ := Emit.createBlock_ok h
  exact ⟨Builder.addBlock_waits hw cold, by simpa using (Builder.Emits.refl hw).addBlock cold, rfl,
    fun e => e.addBlock cold, fun hc => hc.addBlock cold⟩

theorem Made.ne_current {id : BlockId} {b b' : Builder} (h : Made id b b') : id ≠ b'.current :=
  (h.emits.pending id (by simp)).2.2

/-! ## Speculations -/

/-- What a speculation builds: the exit, two blocks, the branch to one of them, and the way out in
the other one. -/
theorem speculate_ok {kind : ExitKind} {profile : Option Reg} {failing : Reg}
    (h : speculate kind profile failing env s = .ok (u, s')) :
    ∃ exit captured s₁ cold b₂ continuation b₃ b₄ b₆, buildExit kind profile env
      s = .ok ((exit, captured), s₁) ∧
      Emit.createBlock true s₁.builder = .ok (cold, b₂) ∧ Emit.createBlock false
        b₂ = .ok (continuation, b₃) ∧
      Emit.branch failing cold continuation .takenRare b₃ = .ok ((), b₄) ∧
      Emit.exit exit captured (b₄.goTo cold) = .ok ((), b₆) ∧ s'.builder = b₆.goTo continuation ∧
      s'.exits = s₁.exits := by
  obtain ⟨⟨exit, captured⟩, s₁, h₁, h⟩ := bind_ok h
  obtain ⟨cold, b₂, h₂, h⟩ := emit_bind_ok h
  obtain ⟨continuation, b₃, h₃, h⟩ := emit_bind_ok h
  obtain ⟨_, b₄, h₄, h⟩ := emit_bind_ok h
  obtain ⟨_, b₅, h₅, h⟩ := emit_bind_ok h
  obtain rfl := Emit.switchTo_ok h₅
  obtain ⟨_, b₆, h₆, h⟩ := emit_bind_ok h
  obtain ⟨_, b₇, h₇, h⟩ := emit_bind_ok h
  obtain rfl := Emit.switchTo_ok h₇
  cases h
  exact ⟨exit, captured, s₁, cold, b₂, continuation, b₃, b₄, b₆, h₁, h₂, h₃, h₄, h₆, rfl, rfl⟩

/-- The same, with what waits where: the exit is built, and behind it the branch goes to a block
that leaves or to the block where the code goes on. -/
structure Speculation (env : Env) (kind : ExitKind) (profile : Option Reg) (failing : Reg)
    (s s' : State) where
  (exit : ExitId) (captured : List Reg)
  exited : State
  (cold continuation : BlockId)
  (start forked left : Builder)
  built : buildExit kind profile env s = .ok ((exit, captured), exited)
  straight : Straight s exited
  exits : s'.exits = exited.exits
  toStart : exited.builder.Extends start
  stands : ∀ {σ : Type} {m : Machine σ} {c : Config σ}, m.At exited.builder c → m.At start c
  branch : Emit.branch failing cold continuation .takenRare start = .ok ((), forked)
  leave : Emit.exit exit captured (forked.goTo cold) = .ok ((), left)
  ends : s'.builder = left.goTo continuation
  coldWaits : forked.Waits cold []
  nextForked : forked.Waits continuation []
  nextWaits : left.Waits continuation []
  forkedWf : forked.WellFormed
  leftWf : left.WellFormed
  emits : exited.builder.Emits [] (left.goTo continuation)
  fromForked : forked.Extends left

theorem speculation {kind : ExitKind} {profile : Option Reg} {failing : Reg}
    (h : speculate kind profile failing env s = .ok (u, s')) (hw : s.builder.WellFormed) :
    Nonempty (Speculation env kind profile failing s s') := by
  obtain ⟨exit, captured, s₁, cold, b₂, continuation, b₃, b₄, b₆, h₁, h₂, h₃, h₄, h₆, hb, hexits⟩ :=
    speculate_ok h
  have e₁ := (inferInstance : Smooth (buildExit kind profile)).straight env s _ s₁ hw h₁
  have hw₁ := e₁.emits.after
  have made₂ := createBlock_made h₂ hw₁
  have made₃ := createBlock_made h₃ made₂.emits.after
  have x₃ := made₃.after (made₂.after (.refl hw₁))
  have hne : continuation ≠ cold := by
    have hnd := x₃.distinct
    simp only [List.nil_append, List.cons_append] at hnd
    exact fun he => by simp [he] at hnd
  -- the two blocks wait at the branch
  have hcold : cold ≠ b₃.current := by rw [made₃.current]; exact made₂.ne_current
  have e₄ := (inferInstance : (Emit.branch failing cold continuation .takenRare).Tidy).emits _ _ _
    made₃.emits.after h₄
  have hcold₄ := (made₂.waits.emits made₃.emits made₂.ne_current).emits e₄ hcold
  have hnext₄ := made₃.waits.emits e₄ made₃.ne_current
  have w₅ := hcold₄.wf e₄.after
  have e₆ := (inferInstance : (Emit.exit exit captured).Tidy).emits _ _ _ w₅ h₆
  have x₆ := ((x₃.trans e₄).goTo (Emit.terminate_closed made₃.emits.after h₄) (p := cold)
    (by simp)).trans e₆
  have x₇ := x₆.goTo (Emit.terminate_closed w₅ h₆) (p := continuation) (by simp)
  exact ⟨{
    exit, captured, exited := s₁, cold, continuation, start := b₃, forked := b₄, left := b₆
    built := h₁, straight := e₁, exits := hexits
    toStart := made₂.emits.toExtends.trans made₃.emits.toExtends
    stands := fun hc => made₃.stands (made₂.stands hc)
    branch := h₄, leave := h₆, ends := hb
    coldWaits := hcold₄, nextForked := hnext₄, nextWaits := hnext₄.goTo.emits e₆ hne
    forkedWf := e₄.after, leftWf := e₆.after, emits := by simpa using x₇
    fromForked := (Builder.goTo_extends b₄ cold).trans e₆.toExtends }⟩

/-- A speculation goes on if the test is 0, and otherwise leaves at the exit that was built for it.
It loads nothing and leaves memory as it is. -/
theorem speculate_does {L : Set Word} {kind : ExitKind} {profile : Option Reg} {failing : Reg}
    {w : Word} (h : speculate kind profile failing env s = .ok (u, s'))
    (hm : s'.builder.Completes m.func) (hc : m.At s.builder c) (hf : c.Has s.builder failing .i32 w)
    :
    ∃ exit captured s₁, buildExit kind profile env s = .ok ((exit, captured), s₁) ∧
      s'.exits = s₁.exits ∧
      (w.toUInt32 = 0 → m.Does L s.builder c s'.builder fun c' => c'.memory = c.memory) ∧
      (w.toUInt32 ≠ 0 → m.Quits L exit s'.builder c) := by
  obtain ⟨d⟩ := speculation h hc.wf
  rw [d.ends] at hm ⊢
  have hlast := Builder.goTo_extends d.left d.continuation
  have hmLeft := hlast.completes hm
  -- the run: up to the branch, and from there
  obtain ⟨c₁, hgoes, hc₁, hregs₁, hmem₁⟩ :=
    d.straight.does (L := L) (d.emits.toExtends.completes hm) hc
  have hf₁ := (hf.retain d.straight.emits.toExtends hregs₁).keep d.toStart (.refl _ _)
  obtain ⟨hpassed, hstep⟩ := (d.stands hc₁).fork d.branch (d.fromForked.completes hmLeft) hf₁.read
    d.coldWaits d.nextForked
  have hloads : m.LoadsIn L c₁ := (d.stands hc₁).loadsIn d.branch (d.fromForked.completes hmLeft)
  replace hpassed := hpassed.grow (d.fromForked.trans hlast)
  refine ⟨d.exit, d.captured, d.exited, d.built, d.exits, ?_, ?_⟩
  · intro hz
    rw [if_neg (by simpa using hz)] at hstep
    exact ⟨_, (hgoes.mono fun _ hx => ⟨hx.1.grow d.emits.toGrows, hx.2⟩).trans
        (.next ⟨.inr hpassed, hloads⟩ hstep (.refl _)),
      d.nextWaits.at d.leftWf rfl rfl hc₁.registers, hregs₁, hmem₁⟩
  · intro hz
    rw [if_pos hz] at hstep
    have hc₂ : m.At (d.forked.goTo d.cold) { c₁ with block := d.cold, position := 0 } :=
      d.coldWaits.at d.forkedWf rfl rfl hc₁.registers
    obtain ⟨⟨blk, hend, ht⟩, hpassed₂⟩ := Machine.terminate_atEnd d.leave hmLeft hc₂
    exact ⟨_, (hgoes.enclosed hc₁ d.emits.toExtends hpassed).trans
        (.next ⟨hpassed, hloads⟩ hstep (.refl _)),
      hpassed₂.grow hlast, ⟨blk, d.captured, hend, ht⟩, hmem₁⟩

theorem speculate_course {kind : ExitKind} {profile : Option Reg} {failing : Reg} {w : Word}
    (h : speculate kind profile failing env s = .ok (u, s')) (hm : s'.builder.Completes m.func)
    (hc : m.At s.builder c) (hf : c.Has s.builder failing .i32 w) :
    ∃ exit captured s₁, buildExit kind profile env s = .ok ((exit, captured), s₁) ∧
      s'.exits = s₁.exits ∧
      (w.toUInt32 = 0 → m.Runs s.builder c s'.builder fun _ => True) ∧
      (w.toUInt32 ≠ 0 → m.LeavesAt exit s'.builder c) := by
  obtain ⟨exit, captured, s₁, h₁, hexits, hdoes, hquits⟩ := speculate_does (L := ∅) h hm hc hf
  exact ⟨exit, captured, s₁, h₁, hexits,
    fun hz => ((hdoes hz).mono fun _ _ _ hmem => ⟨hmem, trivial⟩).runs,
    fun hz => (hquits hz).leavesAt⟩

/-- A speculation goes on if the test is 0 and leaves otherwise. -/
theorem speculate_runs {kind : ExitKind} {profile : Option Reg} {failing : Reg} {w : Word}
    (h : speculate kind profile failing env s = .ok (u, s')) (hm : s'.builder.Completes m.func)
    (hc : m.At s.builder c) (hf : c.Has s.builder failing .i32 w) :
    (w.toUInt32 = 0 → m.Runs s.builder c s'.builder fun _ => True) ∧
      (w.toUInt32 ≠ 0 → m.Leaves s'.builder c) := by
  obtain ⟨exit, captured, s₁, -, -, hruns, hleaves⟩ := speculate_course h hm hc hf
  exact ⟨hruns, fun hz => (hleaves hz).leaves⟩

/-! ## Steps with effects -/

section Acts

variable {α β : Type} {L : Set Word} {b b' : Builder} {Q : α → Builder → Config σ → Prop}
  {ty ty' : Ty} {v w : Word}

/-- The code of the step loads from `L` only and ends as `Q` says of its result, wherever it stands
after `b`. -/
def Acts (m : Machine σ) (L : Set Word) (env : Env) (b : Builder) (c : Config σ) (x : Lower α)
    (Q : α → Builder → Config σ → Prop) : Prop :=
  ∀ ⦃s s' : State⦄ ⦃a : α⦄ ⦃c' : Config σ⦄, c.Follows b c' s.builder → m.At s.builder c' →
    x env s = .ok (a, s') → s'.builder.Completes m.func → m.Does L s.builder c' s'.builder
      (Q a s'.builder)

/-- The register holds a word that, with the memory, is as `R` says. -/
def InRegister (ty : Ty) (R : Word → Memory → Prop) (r : Reg) (b : Builder) (c : Config σ) : Prop :=
  ∃ w, c.Has b r ty w ∧ R w c.memory

/-- The step computes `w` and loads from `L` only, wherever it stands after `b`. -/
def YieldsIn (m : Machine σ) (L : Set Word) (env : Env) (b : Builder) (c : Config σ) (x : Lower Reg)
    (ty : Ty) (w : Word) : Prop :=
  Acts m L env b c x (InRegister ty fun w' memory => w' = w ∧ memory = c.memory)

theorem Acts.later {x : Lower α} (hx : Acts m L env b c x Q) (hf : c.Follows b c' b') :
    Acts m L env b' c' x Q :=
  fun _ _ _ _ hf' hc h hm => hx (hf.trans hf') hc h hm

theorem Acts.mono {x : Lower α} {Q' : α → Builder → Config σ → Prop} (hx : Acts m L env b c x Q)
    (hq : ∀ {a b' c'}, Q a b' c' → Q' a b' c') : Acts m L env b c x Q' :=
  fun _ _ _ _ hf hc h hm => (hx hf hc h hm).mono fun _ _ _ => hq

theorem Acts.pure {a : α} (hq : ∀ {b' c'}, c.Follows b c' b' → Q a b' c') :
    Acts m L env b c (pure a) Q := by
  intro s s' a' c' hf hc h hm
  cases h
  exact .refl hc (hq hf)

/-- Steps one after the other. What the first one did is known to the second one. -/
theorem Acts.bind {x : Lower α} {f : α → Lower β} [Tidy x] [∀ a, Tidy (f a)]
    {Q' : β → Builder → Config σ → Prop}
    (hx : Acts m L env b c x Q)
    (hf : ∀ {a : α} {b' : Builder} {c' : Config σ}, b.Extends b' → c.Retains b c' → Q a b' c' →
      Acts m L env b' c' (f a) Q') :
    Acts m L env b c (x >>= f) Q' := by
  intro s s' a c' hf' hc h hm
  obtain ⟨a, s₁, h₁, h₂⟩ := bind_ok h
  have e₁ : s.builder.Emits [] s₁.builder := Tidy.after h₁ (.refl hc.wf)
  have e₂ : s₁.builder.Emits [] s'.builder := Tidy.after h₂ (.refl e₁.after)
  refine (hx hf' hc h₁ (e₂.toExtends.completes hm)).bind e₁.toExtends e₂.toGrows
    fun c₁ hc₁ hregs ha => ?_
  exact hf (hf'.grown.trans e₁.toExtends) (hf'.keeps.retains.trans hregs hf'.grown) ha (.refl _ _)
    hc₁ h₂ hm

theorem YieldsIn.ofEmit {x : Emit Reg} (hx : x.YieldsIn m L b c ty w) :
    YieldsIn m L env b c (liftM x) ty w := by
  intro s s' r c' hf hc h hm
  obtain ⟨b', hb, rfl⟩ := emit_ok h
  exact (hx hf hc hb hm).mono fun _ _ _ ⟨hmem, hr⟩ => ⟨w, hr, rfl, hmem.trans hf.memory⟩

/-- A value that is computed before the rest. -/
theorem YieldsIn.andThen {x : Lower Reg} {f : Reg → Lower β} [Tidy x] [∀ r, Tidy (f r)]
    {Q' : β → Builder → Config σ → Prop}
    (hx : YieldsIn m L env b c x ty v)
    (hf : ∀ {r : Reg} {b' : Builder} {c' : Config σ}, c.Follows b c' b' → c'.Has b' r ty v →
      Acts m L env b' c' (f r) Q') :
    Acts m L env b c (x >>= f) Q' :=
  Acts.bind hx fun e hregs ⟨_, hr, hv, hmem⟩ => hf ⟨e, hregs, hmem⟩ (hv ▸ hr)

/-- A step that computes a value, as one that does what it says. -/
theorem YieldsIn.inRegister {x : Lower Reg} {R : Word → Memory → Prop}
    (hx : YieldsIn m L env b c x ty w) (hr : R w c.memory) :
    Acts m L env b c x (InRegister ty R) := by
  refine Acts.mono hx ?_
  rintro r b' c' ⟨_, h, rfl, hmem⟩
  exact ⟨_, h, by rw [hmem]; exact hr⟩

end Acts

/-! ## Diamonds -/

/-- The step computes `w`, wherever it stands after `b`. -/
def Yields (m : Machine σ) (env : Env) (b : Builder) (c : Config σ) (x : Lower Reg) (ty : Ty)
    (w : Word) : Prop :=
  ∀ ⦃s s' : State⦄ ⦃r : Reg⦄ ⦃c' : Config σ⦄, c.Follows b c' s.builder → m.At s.builder c' →
    x env s = .ok (r, s') → s'.builder.Completes m.func →
    m.Runs s.builder c' s'.builder fun c'' => c''.Has s'.builder r ty w

section Yields

variable {b : Builder} {ty ty' : Ty} {v w : Word}

theorem Yields.ofEmit {x : Emit Reg} (hx : x.Yields m b c ty w) :
    Yields m env b c (liftM x) ty w := by
  intro s s' r c' hf hc h hm
  obtain ⟨b', hb, rfl⟩ := emit_ok h
  exact hx hf hc hb hm

theorem Yields.bind {x : Lower Reg} {f : Reg → Lower Reg} [Tidy x] [∀ r, Tidy (f r)]
    (hx : Yields m env b c x ty v)
    (hf : ∀ {r : Reg} {b' : Builder} {c' : Config σ}, c.Follows b c' b' → c'.Has b' r ty v →
      Yields m env b' c' (f r) ty' w) : Yields m env b c (x >>= f) ty' w := by
  intro s s' r c' hf' hc h hm
  obtain ⟨a, s₁, h₁, h₂⟩ := bind_ok h
  have e₁ : s.builder.Emits [] s₁.builder := Tidy.after h₁ (.refl hc.wf)
  have e₂ : s₁.builder.Emits [] s'.builder := Tidy.after h₂ (.refl e₁.after)
  refine (hx hf' hc h₁ (e₂.toExtends.completes hm)).bind e₁.toExtends e₂.toGrows
    fun c₁ hc₁ hk ha => ?_
  exact hf (hf'.trans ⟨e₁.toExtends, hk⟩) ha (.refl _ _) hc₁ h₂ hm

theorem Yields.later {x : Lower Reg} {b' : Builder} {c' : Config σ} (hx : Yields m env b c x ty w)
    (hf : c.Follows b c' b') : Yields m env b' c' x ty w :=
  fun _ _ _ _ hf' hc h hm => hx (hf.trans hf') hc h hm

theorem Yields.congr {x : Lower Reg} (hx : Yields m env b c x ty v) (h : v = w) :
    Yields m env b c x ty w := h ▸ hx

theorem Yields.ofRead {f : Env → Lower Reg} (h : Yields m env b c (f env) ty w) :
    Yields m env b c (read >>= f) ty w :=
  h

theorem Yields.univ {x : Lower Reg} (hx : Yields m env b c x ty w) :
    YieldsIn m .univ env b c x ty w :=
  fun _ _ _ _ hf hc h hm => (hx hf hc h hm).does.mono fun _ _ _ ⟨hmem, hr⟩ =>
    ⟨w, hr, rfl, hmem.trans hf.memory⟩

theorem YieldsIn.yields {L : Set Word} {x : Lower Reg} (hx : YieldsIn m L env b c x ty w) :
    Yields m env b c x ty w := by
  intro s s' r c' hf hc h hm
  refine Machine.Does.runs ((hx hf hc h hm).mono fun c'' _ _ hreg => ?_)
  obtain ⟨_, hr, rfl, hmem⟩ := hreg
  exact ⟨hmem.trans hf.memory.symm, hr⟩

end Yields

section Arms

variable {α : Type} {L : Set Word} {R : Word → Memory → Prop} {Q : Unit → Builder → Config σ → Prop}
  {b₀ b b' : Builder} {p join : BlockId} {c₀ : Config σ}

/-- An arm, from the head of its block to the block where the arms join. -/
theorem Acts.joins {arm : Lower Reg} [Tidy arm] {ty : Ty} {r result : Reg}
    (harm : Acts m L env b₀ c₀ arm (InRegister ty R)) (hp : b.Waits p []) (hw : b.WellFormed)
    (hb : s.builder = b.goTo p) (h : arm env s = .ok (r, s'))
    (hjump : Emit.jump join [r] s'.builder = .ok (u, b')) (hm : b'.Completes m.func)
    (hj : b'.Waits join [result]) (hty : b'.func.types[result.index]? = some ty)
    (hnew : b₀.func.types.size ≤ result.index) (hblock : c.block = p) (hpos : c.position = 0)
    (hregs : c.registers.size = m.func.types.size) (e : b₀.Extends b) (hk : c₀.Keeps b₀ c) :
    ∃ c', m.Goes (fun x => x.Passed b' ∧ m.LoadsIn L x) c c' ∧ c'.block = join ∧ c'.position = 0 ∧
      c'.registers.size = m.func.types.size ∧ c₀.Retains b₀ c' ∧ ∃ v,
      c'.registers[result.index]? = some (some v) ∧ R v c'.memory := by
  have hc : m.At s.builder c := by rw [hb]; exact hp.at hw hblock hpos hregs
  have e₁ : s.builder.Emits [] s'.builder := Tidy.after h (.refl hc.wf)
  have e₂ := (inferInstance : (Emit.jump join [r]).Tidy).emits _ _ _ e₁.after hjump
  have e₀ : b₀.Extends s.builder := by rw [hb]; exact e.trans (Builder.goTo_extends b p)
  obtain ⟨c₁, hgoes, hc₁, hregs₁, v, hr, hv⟩ := harm ⟨e₀, hk⟩ hc h (e₂.toExtends.completes hm)
  obtain ⟨hpassed, hstep⟩ := hc₁.join hjump hm hr.read hj hty
  have hlt : result.index < c₁.registers.size := by
    rw [hc₁.registers]
    exact (Array.getElem?_eq_some_iff.1 (hm.types _ _ hty)).1
  refine ⟨_, (hgoes.enclosed hc₁ e₂.toExtends hpassed).trans (.next ⟨hpassed, hc₁.loadsIn hjump hm⟩
    hstep (.refl _)),
    rfl, rfl, ?_, fun i hi => ?_, v, ?_, hv⟩
  · simpa using hc₁.registers
  · simp only []
    rw [Array.getElem?_setIfInBounds_ne (by omega)]
    exact (hk.retains.trans hregs₁ e₀) i hi
  · simp only []
    rw [Array.getElem?_setIfInBounds_self, if_pos hlt]

/-- What a diamond builds: a branch to two blocks, an arm in each of them, and the block where the
arms join, which gets the result. -/
structure Diamond (env : Env) (ty : Ty) (cond : Reg) (weight : BranchWeight)
    (thenArm elseArm : Lower Reg)
    (s s' : State) (result : Reg) where
  (thenBlock elseBlock join : BlockId)
  /-- where the branch is added -/
  start : Builder
  (forked thenDone elseDone : Builder)
  (thenStart thenEnd elseStart elseEnd : State)
  (thenResult elseResult : Reg)
  made : s.builder.Emits [thenBlock, elseBlock, join] start
  stands : ∀ {σ : Type} {m : Machine σ} {c : Config σ}, m.At s.builder c → m.At start c
  branch : Emit.branch cond thenBlock elseBlock weight start = .ok ((), forked)
  thenFrom : thenStart.builder = forked.goTo thenBlock
  thenOk : thenArm env thenStart = .ok (thenResult, thenEnd)
  thenJump : Emit.jump join [thenResult] thenEnd.builder = .ok ((), thenDone)
  elseFrom : elseStart.builder = thenDone.goTo elseBlock
  elseOk : elseArm env elseStart = .ok (elseResult, elseEnd)
  elseJump : Emit.jump join [elseResult] elseEnd.builder = .ok ((), elseDone)
  ends : s'.builder = elseDone.goTo join
  fresh : s.builder.func.types.size ≤ result.index
  /-- the blocks that wait while others get their code -/
  thenWaits : forked.Waits thenBlock []
  elseForked : forked.Waits elseBlock []
  elseWaits : thenDone.Waits elseBlock []
  joinThen : thenDone.Waits join [result]
  joinElse : elseDone.Waits join [result]
  typeThen : thenDone.func.types[result.index]? = some ty
  typeElse : elseDone.func.types[result.index]? = some ty
  forkedWf : forked.WellFormed
  thenDoneWf : thenDone.WellFormed
  elseDoneWf : elseDone.WellFormed
  toForked : s.builder.Extends forked
  fromForked : forked.Extends thenDone
  fromThen : thenDone.Extends elseDone

theorem diamond_ok {ty : Ty} {cond : Reg} {weight : BranchWeight} {thenArm elseArm : Lower Reg}
    [Tidy thenArm] [Tidy elseArm] {result : Reg}
    (h : diamond ty cond weight thenArm elseArm env s = .ok (result, s'))
    (hw : s.builder.WellFormed) :
    Nonempty (Diamond env ty cond weight thenArm elseArm s s' result) := by
  obtain ⟨thenBlock, b₁, h₁, h⟩ := emit_bind_ok h
  have made₁ := createBlock_made h₁ hw
  obtain ⟨elseBlock, b₂, h₂, h⟩ := emit_bind_ok h
  have made₂ := createBlock_made h₂ made₁.emits.after
  obtain ⟨join, b₃, h₃, h⟩ := emit_bind_ok h
  have made₃ := createBlock_made h₃ made₂.emits.after
  obtain ⟨result, b₄, h₄, h⟩ := emit_bind_ok h
  obtain ⟨rfl, rfl⟩ := Emit.blockParam_ok h₄
  obtain ⟨_, b₅, h₅, h⟩ := emit_bind_ok h
  obtain ⟨_, s₁₂, harm, h⟩ := bind_ok h
  obtain ⟨s₁₁, h₁₁, rfl⟩ := inArm_ok harm
  obtain ⟨_, b₆, h₆, h₁₁⟩ := emit_bind_ok h₁₁
  obtain rfl := Emit.switchTo_ok h₆
  obtain ⟨r₁, s₇, h₇, h₁₁⟩ := bind_ok h₁₁
  obtain ⟨_, b₈, h₈, h₁₁⟩ := emit_bind_ok h₁₁
  obtain ⟨_, b₉, h₉, h₁₁⟩ := emit_bind_ok h₁₁
  obtain rfl := Emit.switchTo_ok h₉
  obtain ⟨r₂, s₁₀, h₁₀, h₁₁⟩ := bind_ok h₁₁
  obtain ⟨b₁₁, hjump, rfl⟩ := emit_ok h₁₁
  obtain ⟨_, b₁₂, h₁₂, h⟩ := emit_bind_ok h
  obtain rfl := Emit.switchTo_ok h₁₂
  cases h
  -- growth: the three blocks are taken up one after the other
  have x₃ := made₃.after (made₂.after (made₁.after (.refl hw)))
  have hnd := x₃.distinct
  simp only [List.nil_append, List.cons_append, List.nodup_cons, List.mem_cons, List.not_mem_nil,
    or_false, not_or, List.nodup_nil, and_true, not_false_eq_true] at hnd
  obtain ⟨⟨hte, htj⟩, hej⟩ := hnd
  have x₄ := (x₃.trans (Builder.addReg_emits x₃.after ty)).addParam (p :=
    join) (by simp) ⟨b₃.func.types.size⟩
  have e₅ := (inferInstance : (Emit.branch cond thenBlock elseBlock weight).Tidy).emits _ _ _
    x₄.after h₅
  have x₆ := (x₄.trans e₅).goTo (Emit.terminate_closed x₄.after h₅) (p := thenBlock) (by simp)
  have e₇ : (b₅.goTo thenBlock).Emits [] s₇.builder := Tidy.after h₇ (.refl x₆.after)
  have x₇ := x₆.trans e₇
  have e₈ := (inferInstance : (Emit.jump join [r₁]).Tidy).emits _ _ _ x₇.after h₈
  have x₉ := (x₇.trans e₈).goTo (Emit.terminate_closed x₇.after h₈) (p := elseBlock) (by simp)
  have e₁₀ : (b₈.goTo elseBlock).Emits [] s₁₀.builder := Tidy.after h₁₀ (.refl x₉.after)
  have x₁₀ := x₉.trans e₁₀
  have e₁₁ := (inferInstance : (Emit.jump join [r₂]).Tidy).emits _ _ _ x₁₀.after hjump
  have to₈ := (Builder.goTo_extends b₅ thenBlock).trans (e₇.toExtends.trans e₈.toExtends)
  have to₁₁ := (Builder.goTo_extends b₈ elseBlock).trans (e₁₀.toExtends.trans e₁₁.toExtends)
  -- what waits where
  have hcur₂ : b₂.current = s.builder.current := made₂.current.trans made₁.current
  have hcur₃ : b₃.current = s.builder.current := made₃.current.trans hcur₂
  have hthen₁ : thenBlock ≠ s.builder.current := made₁.current ▸ made₁.ne_current
  have helse₁ : elseBlock ≠ s.builder.current := hcur₂ ▸ made₂.ne_current
  have hjoin₁ : join ≠ s.builder.current := hcur₃ ▸ made₃.ne_current
  have hthen₅ : b₅.Waits thenBlock [] := by
    have h₃ := (made₁.waits.emits made₂.emits made₁.ne_current).emits made₃.emits (hcur₂ ▸ hthen₁)
    exact ((h₃.addReg ty).addParam_ne htj _).emits e₅ (hcur₃ ▸ hthen₁)
  have helse₅ : b₅.Waits elseBlock [] := by
    have h₃ := made₂.waits.emits made₃.emits made₂.ne_current
    exact ((h₃.addReg ty).addParam_ne hej _).emits e₅ (hcur₃ ▸ helse₁)
  have hjoin₅ : b₅.Waits join [⟨b₃.func.types.size⟩] :=
    ((made₃.waits.addReg ty).addParam _).emits e₅ (hcur₃ ▸ hjoin₁)
  have helse₈ : b₈.Waits elseBlock [] :=
    (helse₅.goTo.emits e₇ (Ne.symm hte)).emits e₈ (x₇.pending elseBlock (by simp)).2.2
  have hjoin₈ : b₈.Waits join [⟨b₃.func.types.size⟩] :=
    (hjoin₅.goTo.emits e₇ (Ne.symm htj)).emits e₈ (x₇.pending join (by simp)).2.2
  have hjoin₁₁ : b₁₁.Waits join [⟨b₃.func.types.size⟩] :=
    (hjoin₈.goTo.emits e₁₀ (Ne.symm hej)).emits e₁₁ (x₁₀.pending join (by simp)).2.2
  have hty₄ : ((b₃.addReg ty).addParam join ⟨b₃.func.types.size⟩).func.types[b₃.func.types.size]?
    = some ty := by
    simp [Builder.addReg, Builder.addParam]
  have hty₈ := (e₅.toExtends.trans to₈).types _ _ hty₄
  exact ⟨{
    thenBlock, elseBlock, join, start := _, forked := b₅, thenDone := b₈, elseDone := b₁₁
    thenStart := _, thenEnd := s₇, elseStart := _, elseEnd := s₁₀, thenResult := r₁, elseResult :=
      r₂
    made := x₄
    stands := fun hc =>
      ((made₃.stands (made₂.stands (made₁.stands hc))).addReg ty).addParam (hcur₃ ▸ hjoin₁) _
    branch := h₅, thenFrom := rfl, thenOk := h₇, thenJump := h₈, elseFrom := rfl, elseOk :=
      h₁₀, elseJump := hjump
    ends := rfl, fresh := x₃.toExtends.types_size_le
    thenWaits := hthen₅, elseForked := helse₅, elseWaits := helse₈, joinThen := hjoin₈, joinElse :=
      hjoin₁₁
    typeThen := hty₈, typeElse := to₁₁.types _ _ hty₈
    forkedWf := (x₄.trans e₅).after, thenDoneWf := (x₇.trans e₈).after, elseDoneWf :=
      (x₁₀.trans e₁₁).after
    toForked := (x₄.trans e₅).toExtends, fromForked := to₈, fromThen := to₁₁ }⟩

/-- A diamond does what the arm does that its condition selects. -/
theorem diamond_acts {ty : Ty} {cond : Reg} {weight : BranchWeight} {thenArm elseArm : Lower Reg}
    [Tidy thenArm] [Tidy elseArm] {w : Word} {ty' : Ty} (hcond : c₀.Has b cond ty' w)
    (hthen : w.toUInt32 ≠ 0 → Acts m L env b c₀ thenArm (InRegister ty R))
    (helse : w.toUInt32 = 0 → Acts m L env b c₀ elseArm (InRegister ty R)) :
    Acts m L env b c₀ (diamond ty cond weight thenArm elseArm) (InRegister ty R) := by
  intro s s' result c hf hc h hm
  obtain ⟨d⟩ := diamond_ok h hc.wf
  rw [d.ends] at hm ⊢
  have hmElse : d.elseDone.Completes m.func := (Builder.goTo_extends d.elseDone d.join).completes hm
  have hmThen := d.fromThen.completes hmElse
  have hlast := d.fromThen.trans (Builder.goTo_extends d.elseDone d.join)
  -- the run: the branch, an arm, the join
  obtain ⟨hpassed, hstep⟩ := (d.stands hc).fork d.branch (d.fromForked.completes hmThen)
    ((hcond.later hf).keep d.made.toExtends (.refl _ _)).read d.thenWaits d.elseForked
  have hloads : m.LoadsIn L c := (d.stands hc).loadsIn d.branch (d.fromForked.completes hmThen)
  replace hpassed := hpassed.grow (d.fromForked.trans hlast)
  obtain ⟨c₂, hgoes, hblock, hpos, hregs, hk, v, hv, hR⟩ : ∃ c₂,
      m.Goes (fun x => x.Passed (d.elseDone.goTo d.join) ∧ m.LoadsIn L x) c c₂ ∧ c₂.block = d.join ∧
      c₂.position = 0 ∧
        c₂.registers.size = m.func.types.size ∧ c.Retains s.builder c₂ ∧
        ∃ v, c₂.registers[result.index]? = some (some v) ∧ R v c₂.memory := by
    by_cases hz : w.toUInt32 = 0
    · rw [if_neg (by simpa using hz)] at hstep
      obtain ⟨c₂, hgoes, hrest⟩ := ((helse hz).later hf).joins d.elseWaits d.thenDoneWf d.elseFrom
        d.elseOk d.elseJump
        hmElse d.joinElse d.typeElse d.fresh (c := { c with block := d.elseBlock, position := 0 })
          rfl rfl hc.registers
        (d.toForked.trans d.fromForked) ⟨fun _ _ => rfl, rfl⟩
      exact ⟨c₂, .next ⟨hpassed, hloads⟩ hstep
        (hgoes.mono fun _ hx => ⟨hx.1.grow (Builder.goTo_extends d.elseDone d.join), hx.2⟩), hrest⟩
    · rw [if_pos hz] at hstep
      obtain ⟨c₂, hgoes, hrest⟩ := ((hthen hz).later hf).joins d.thenWaits d.forkedWf d.thenFrom
        d.thenOk d.thenJump
        hmThen d.joinThen d.typeThen d.fresh (c := { c with block := d.thenBlock, position := 0 })
          rfl rfl hc.registers
        d.toForked ⟨fun _ _ => rfl, rfl⟩
      exact ⟨c₂, .next ⟨hpassed, hloads⟩ hstep (hgoes.mono fun _ hx => ⟨hx.1.grow hlast, hx.2⟩),
        hrest⟩
  exact ⟨c₂, hgoes.mono fun _ hx => ⟨.inr hx.1, hx.2⟩, d.joinElse.at d.elseDoneWf hblock hpos hregs,
    hk, v,
    ⟨d.typeElse, hv⟩, hR⟩

/-- A diamond yields what the arm yields that its condition selects. -/
theorem diamond_yields {ty : Ty} {cond : Reg} {weight : BranchWeight} {thenArm elseArm : Lower Reg}
    [Tidy thenArm] [Tidy elseArm] {w v : Word} {ty' : Ty} (hcond : c₀.Has b cond ty' w)
    (hthen : w.toUInt32 ≠ 0 → Yields m env b c₀ thenArm ty v)
    (helse : w.toUInt32 = 0 → Yields m env b c₀ elseArm ty v) :
    Yields m env b c₀ (diamond ty cond weight thenArm elseArm) ty v :=
  YieldsIn.yields (diamond_acts hcond (fun hz => (hthen hz).univ) fun hz => (helse hz).univ)

end Arms

end Lowering

end SpecJit
