import SpecJit.Proofs.Lowering.Elements
import SpecJit.Proofs.Lowering.Laws.Operations

/-!
# Running a dispatch

A dispatch tries its cases in order and jumps to the block where they join from the first one whose
test yields 1. The last case of an exhaustive list is taken without a test (`chosen`). `Departs m L
env b c p params x o` says of a step `x` that ends its block that control gets from there to the
head of block `p`, or leaves, as `o` says; a dispatch departs as the case does that is chosen
(`dispatch_departs`). What stands behind the block where the cases join goes on from what the chosen
case did (`Proceeds.rejoin`, `Proceeds.rejoinWith`).
-/

namespace SpecJit.Lowering

open Lir

variable {α β σ : Type} {m : Machine σ} {L : Set Word} {b b₀ b' : Builder} {c c' : Config σ}
  {env : Env} {s s' : State} {P : List BlockId} {p q : BlockId} {params : List Reg} {u : Unit}
  {ty ty' : Ty} {v w : Word} {kind : ExitKind}

theorem YieldsIn.later {x : Lower Reg} (hx : YieldsIn m L env b c x ty w) (hf : c.Follows b c' b') :
    YieldsIn m L env b' c' x ty w :=
  (Acts.later hx hf).mono fun ⟨v, hr, hv, hmem⟩ => ⟨v, hr, hv, hmem.trans hf.memory.symm⟩

theorem Proceeds.mono {x : Lower α} {Q Q' : α → State → Config σ → Prop}
    (hx : Proceeds m L env s c x (.ok Q)) (hq : ∀ {a s' c'}, Q a s' c' → Q' a s' c') :
    Proceeds m L env s c x (.ok Q') := by
  intro s₁ s' a c₁ hsame hf hc h hm
  exact Machine.Does.mono (hx hsame hf hc h hm) fun _ _ _ => hq

/-! ## A block that waits for others -/

/-- From `b₀` to `b` the blocks `P` were left pending. One of them has these parameters and is still
empty. -/
structure Pends (b₀ : Builder) (P : List BlockId) (p : BlockId) (params : List Reg) (b : Builder) :
    Prop extends b₀.Emits P b where
  mem : p ∈ P
  waits : b.Waits p params

namespace Pends

theorem ne_current (h : Pends b₀ P p params b) : p ≠ b.current := (h.pending p h.mem).2.2

theorem emits (h : Pends b₀ P p params b) (e : b.Emits [] b') : Pends b₀ P p params b' :=
  ⟨h.toEmits.trans e, h.mem, h.waits.emits e h.ne_current⟩

theorem tidy {x : Lower α} [Tidy x] {a : α} (h : Pends b₀ P p params s.builder)
    (hx : x env s = .ok (a, s')) :
    Pends b₀ P p params s'.builder := h.emits (Tidy.after hx (.refl h.after))

theorem made (h : Pends b₀ P p params b) (hmade : Made q b b') : Pends b₀ (P ++ [q]) p params b' :=
  ⟨hmade.after h.toEmits, List.mem_append_left _ h.mem, h.waits.emits hmade.emits h.ne_current⟩

theorem goTo (h : Pends b₀ P p params b) (hclosed : b.IsClosed b.current.index) (hq : q ∈ P)
    (hne : p ≠ q) :
    Pends b₀ (P.erase q) p params (b.goTo q) :=
  ⟨h.toEmits.goTo hclosed hq, (List.mem_erase_of_ne hne).2 h.mem, h.waits.goTo⟩

end Pends

/-! ## Steps that end at a block -/

/-- Control gets from `c'` to the head of block `p`, or leaves. Apart from the parameters of the
block, registers of `b` are what they are in `c`. -/
def Departure (m : Machine σ) (L : Set Word) (b : Builder) (c : Config σ) (p : BlockId)
    (params : List Reg) (s' : State) (c' : Config σ) : Except ExitKind (Config σ → Prop) → Prop
  | .ok Q =>
    ∃ c'', m.Goes (fun x => x.Passed s'.builder ∧ m.LoadsIn L x) c' c'' ∧ c''.block = p ∧
      c''.position = 0 ∧
      c''.registers.size = m.func.types.size ∧
      (∀ i < b.func.types.size, (∀ r ∈ params, r.index ≠ i) → c''.registers[i]? = c.registers[i]?) ∧
      Q c''
  | .error kind => QuitsBy m L kind s' c'

/-- The step ends its block, and control gets to block `p` or leaves, wherever the step stands after
`b`. -/
def Departs (m : Machine σ) (L : Set Word) (env : Env) (b : Builder) (c : Config σ) (p : BlockId)
    (params : List Reg) (x : Lower α) (o : Except ExitKind (Config σ → Prop)) : Prop :=
  ∀ ⦃s s' : State⦄ ⦃a : α⦄ ⦃c' : Config σ⦄ ⦃b₀ : Builder⦄ ⦃P : List BlockId⦄,
    c.Follows b c' s.builder → m.At s.builder c' →
    Pends b₀ P p params s.builder → x env s = .ok (a, s') → s'.builder.Completes m.func →
    Departure m L b c p params s' c' o

theorem Departs.mono {x : Lower α} {Q Q' : Config σ → Prop}
    (hx : Departs m L env b c p params x (.ok Q)) (hq : ∀ {c'}, Q c' → Q' c') :
    Departs m L env b c p params x (.ok Q') := by
  intro s s' a c' b₀ P hf hc hp h hm
  obtain ⟨c'', hgoes, hblock, hpos, hsize, hregs, hQ⟩ := hx hf hc hp h hm
  exact ⟨c'', hgoes, hblock, hpos, hsize, hregs, hq hQ⟩

/-- An arm without a value, and the jump behind it. -/
theorem Acts.departs {x : Lower (List Reg)} {R : σ → Memory → Prop} [Tidy x]
    (hx : Acts m L env b c x fun args _ c' => args = [] ∧ R c'.runtimeState c'.memory) :
    Departs m L env b c p [] (do Emit.jump p (← x))
      (.ok fun c' => R c'.runtimeState c'.memory) := by
  intro s s' u c' b₀ P hf hc hp h hm
  obtain ⟨args, s₁, h₁, h⟩ := bind_ok h
  obtain ⟨b₂, h₂, rfl⟩ := emit_ok h
  have hp₁ := hp.tidy h₁
  have e₂ := (inferInstance : (Emit.jump p args).Tidy).emits _ _ _ hp₁.after h₂
  obtain ⟨c₁, hgoes, hc₁, hregs, rfl, hR⟩ := hx hf hc h₁ (e₂.toExtends.completes hm)
  obtain ⟨hstep, hpassed⟩ := Machine.terminate_step h₂ hm hc₁
  obtain ⟨blk, hblk, hparams⟩ := (hp₁.emits e₂).waits.found hm
  have hstep' : m.step c₁ = .ok (.running { c₁ with block := p, position := 0 }) := by
    rw [hstep]
    simp [Machine.stepTerminator, Machine.enter_nil hblk hparams]
  exact ⟨_, (hgoes.enclosed hc₁ e₂.toExtends hpassed).trans (.next ⟨hpassed, hc₁.loadsIn h₂ hm⟩
    hstep' (.refl _)), rfl, rfl,
    hc₁.registers, fun i hi _ => (hf.keeps.retains.trans hregs hf.grown) i hi, hR⟩

/-- The parameter of a block holds a word that is, with the memory, as `R` says. -/
def Handed (result : Reg) (R : Word → Memory → Prop) (c : Config σ) : Prop :=
  ∃ v, c.registers[result.index]? = some (some v) ∧ R v c.memory

/-- An arm with a value, and the jump behind it that hands the value on. -/
theorem Acts.departsWith {x : Lower (List Reg)} {R : Word → Memory → Prop} {result : Reg} [Tidy x]
    (hx : Acts m L env b c x fun args b' c' => ∃ r, args = [r] ∧ InRegister ty R r b' c')
    (hresult : b.func.types[result.index]? = some ty) :
    Departs m L env b c p [result] (do Emit.jump p (← x)) (.ok (Handed result R)) := by
  intro s s' u c' b₀ P hf hc hp h hm
  obtain ⟨args, s₁, h₁, h⟩ := bind_ok h
  obtain ⟨b₂, h₂, rfl⟩ := emit_ok h
  have hp₁ := hp.tidy h₁
  have e₁ : s.builder.Emits [] s₁.builder := Tidy.after h₁ (.refl hc.wf)
  have e₂ := (inferInstance : (Emit.jump p args).Tidy).emits _ _ _ hp₁.after h₂
  obtain ⟨c₁, hgoes, hc₁, hregs, r, rfl, v, hr, hR⟩ := hx hf hc h₁ (e₂.toExtends.completes hm)
  have hty := (hf.grown.trans (e₁.toExtends.trans e₂.toExtends)).types _ _ hresult
  obtain ⟨hpassed, hstep⟩ := hc₁.join h₂ hm hr.read (hp₁.emits e₂).waits hty
  have hlt : result.index < c₁.registers.size := by
    rw [hc₁.registers]
    exact (Array.getElem?_eq_some_iff.1 (hm.types _ _ hty)).1
  refine ⟨_, (hgoes.enclosed hc₁ e₂.toExtends hpassed).trans (.next ⟨hpassed, hc₁.loadsIn h₂ hm⟩
    hstep (.refl _)), rfl, rfl,
    by simpa using hc₁.registers, fun i hi hne => ?_, v, ?_, hR⟩
  · have hne := hne result (by simp)
    simp only [Array.getElem?_setIfInBounds_ne hne]
    exact (hf.keeps.retains.trans hregs hf.grown) i hi
  · simp only [Array.getElem?_setIfInBounds_self, if_pos hlt]

/-- Leaving where no case matched. -/
theorem exitHere_departs {profile : Option Reg} :
    Departs m L env b c p params (exitHere kind profile) (.error kind) := by
  intro s s' u c' b₀ P _ hc _ h hm
  obtain ⟨⟨exit, captured⟩, s₁, h₁, h⟩ := bind_ok h
  have e₁ := (inferInstance : Smooth (buildExit kind profile)).straight env s _ s₁ hc.wf h₁
  obtain ⟨_, b₂, h₂, h⟩ := emit_bind_ok h
  cases h
  have e₂ := (inferInstance : (Emit.exit exit captured).Tidy).emits _ _ _ e₁.emits.after h₂
  obtain ⟨c₁, hgoes, hc₁, -, hmem⟩ := e₁.does (L := L) (e₂.toExtends.completes hm) hc
  obtain ⟨⟨blk, hend, ht⟩, hpassed⟩ := Machine.terminate_atEnd h₂ hm hc₁
  obtain ⟨e, he, hkind⟩ := (buildExit_adds h₁).1
  exact ⟨exit, e, ⟨c₁, hgoes.enclosed hc₁ e₂.toExtends hpassed, hpassed, ⟨blk, captured, hend, ht⟩,
    hmem⟩, he, hkind⟩

/-- A step that goes on to the block from where control departs. -/
theorem Departure.next {o : Except ExitKind (Config σ → Prop)} {c₁ c₂ : Config σ}
    (hstep : m.step c₁ = .ok (.running c₂)) (hpassed : c₁.Passed s'.builder)
    (hloads : m.LoadsIn L c₁) (hmem : c₂.memory = c₁.memory)
    (h : Departure m L b c p params s' c₂ o) : Departure m L b c p params s' c₁ o := by
  cases o with
  | ok Q =>
    obtain ⟨c', hgoes, h⟩ := h
    exact ⟨c', .next ⟨hpassed, hloads⟩ hstep hgoes, h⟩
  | error kind =>
    obtain ⟨id, e, ⟨c', hgoes, hpassed', hexit, hmem'⟩, h⟩ := h
    exact ⟨id, e, ⟨c', .next ⟨hpassed, hloads⟩ hstep hgoes, hpassed', hexit, hmem'.trans hmem⟩, h⟩

/-- Code that leaves memory as it is, up to code from where control departs. -/
theorem Departure.after {o : Except ExitKind (Config σ → Prop)} {c₁ : Config σ} {b₁ : Builder}
    {Q : Config σ → Prop}
    (h : m.Does L b' c₁ b₁ Q) (e : b₁.Extends s'.builder)
    (k : ∀ c₂, m.At b₁ c₂ → c₁.Retains b' c₂ → Q c₂ → c₂.memory = c₁.memory ∧ c₂.Passed s'.builder ∧
      Departure m L b c p params s' c₂ o) : Departure m L b c p params s' c₁ o := by
  cases o with
  | ok Q' =>
    obtain ⟨c₂, hgoes, hc₂, hregs, hq⟩ := h
    obtain ⟨-, hpassed, c', hgoes', h⟩ := k c₂ hc₂ hregs hq
    exact ⟨c', (hgoes.enclosed hc₂ e hpassed).trans hgoes', h⟩
  | error kind =>
    exact QuitsBy.after h e fun c₂ hc₂ hregs hq => ⟨(k c₂ hc₂ hregs hq).1, (k c₂ hc₂ hregs hq).2.2⟩

/-- What is built behind a step from where control departs for a block does not matter. -/
theorem Departure.grow {Q : Config σ → Prop} {s₁ : State}
    (h : Departure m L b c p params s₁ c' (.ok Q)) (e : s₁.builder.Extends s'.builder) :
    Departure m L b c p params s' c' (.ok Q) := by
  obtain ⟨c'', hgoes, h⟩ := h
  exact ⟨c'', hgoes.mono fun _ hx => ⟨hx.1.grow e, hx.2⟩, h⟩

/-! ## Dispatches -/

/-- The case that a dispatch takes, given what the tests say: the first one that passes, or the last
one if that is not tested. -/
def chosen (exhaustive : Bool) (t : α → Bool) : List α → Option α
  | [] => none
  | k :: rest =>
    if exhaustive && rest.isEmpty then some k else if t k then some k else chosen exhaustive t rest

/-- If some case of an exhaustive list passes its test, the one that is taken is the first such. -/
theorem chosen_eq_find? {exhaustive : Bool} {t : α → Bool} {cases : List α}
    (h : exhaustive = true → ∃ k ∈ cases, t k = true) :
    chosen exhaustive t cases = cases.find? t := by
  induction cases with
  | nil => rfl
  | cons k rest ih =>
    rw [chosen, List.find?_cons]
    cases ht : t k with
    | true => simp
    | false =>
      have hrest : exhaustive = true → ∃ k ∈ rest, t k = true := by
        intro hex
        obtain ⟨k', hk', ht'⟩ := h hex
        rcases List.mem_cons.1 hk' with rfl | hk'
        · rw [ht] at ht'
          cases ht'
        · exact ⟨k', hk', ht'⟩
      have hlast : ¬ (exhaustive && rest.isEmpty) = true := by
        rw [Bool.and_eq_true, List.isEmpty_iff]
        rintro ⟨hex, rfl⟩
        obtain ⟨k', hk', -⟩ := hrest hex
        cases hk'
      rw [if_neg hlast, ih hrest]
      rfl

/-- Of an exhaustive list some case is taken. -/
theorem chosen_isSome {t : α → Bool} {cases : List α} (h : cases ≠ []) :
    (chosen true t cases).isSome = true := by
  induction cases with
  | nil => exact absurd rfl h
  | cons k rest ih =>
    rw [chosen]
    cases rest with
    | nil => rfl
    | cons k' rest =>
      rw [if_neg (by simp)]
      split
      · rfl
      · exact ih nofun

/-- What a dispatch comes to: a case, or the exit behind the cases. -/
def outcome (kind : ExitKind) : Option α → Except ExitKind α
  | some k => .ok k
  | none => .error kind

/-- A dispatch departs as the case does that is chosen. -/
theorem dispatch_departs {exhaustive : Bool} {test : α → Lower Reg} {body : α → Lower (List Reg)}
    {miss : Lower Unit}
    [∀ k, Tidy (test k)] [∀ k, Tidy (body k)] [Tidy miss] {t : α → Bool} {Q : α → Config σ → Prop}
    {cases : List α}
    (htest : ∀ k ∈ cases, YieldsIn m L env b c (test k) .i32 (ofBool (t k)))
    (hbody : ∀ k ∈ cases, Departs m L env b c p params (do Emit.jump p (← body k)) (.ok (Q k)))
    (hmiss : chosen exhaustive t cases = none → Departs m L env b c p params miss (.error kind))
    (hclosed : cases = [] ∨ exhaustive = false → ∀ s s' u, s.builder.WellFormed →
      miss env s = .ok (u, s') →
      s'.builder.IsClosed s'.builder.current.index) :
    Departs m L env b c p params (dispatch p exhaustive test body miss cases)
      ((outcome kind (chosen exhaustive t cases)).map Q) := by
  induction cases with
  | nil =>
    intro s s' u c₁ b₀ P hf hc hp h hm
    rw [dispatch] at h
    exact hmiss rfl hf hc hp h hm
  | cons k rest ih =>
    intro s s' u c₁ b₀ P hf hc hp h hm
    rw [dispatch] at h
    rw [chosen] at hmiss ⊢
    by_cases hlast : (exhaustive && rest.isEmpty) = true
    · rw [if_pos hlast] at h ⊢
      exact hbody k (by simp) hf hc hp h hm
    rw [if_neg hlast] at h hmiss ⊢
    obtain ⟨found, s₁, h₁, h⟩ := bind_ok h
    obtain ⟨hit, b₂, h₂, h⟩ := emit_bind_ok h
    obtain ⟨next, b₃, h₃, h⟩ := emit_bind_ok h
    obtain ⟨_, b₄, h₄, h⟩ := emit_bind_ok h
    obtain ⟨_, b₅, h₅, h⟩ := emit_bind_ok h
    obtain rfl := Emit.switchTo_ok h₅
    obtain ⟨args, s₆, h₆, h⟩ := bind_ok h
    obtain ⟨_, b₇, h₇, h⟩ := emit_bind_ok h
    obtain ⟨_, b₈, h₈, h⟩ := emit_bind_ok h
    obtain rfl := Emit.switchTo_ok h₈
    -- growth: the two blocks of the case are taken up one after the other
    have hp₁ := hp.tidy h₁
    have e₁ : s.builder.Emits [] s₁.builder := Tidy.after h₁ (.refl hc.wf)
    have made₂ := createBlock_made h₂ e₁.after
    have hp₂ := hp₁.made made₂
    have made₃ := createBlock_made h₃ made₂.emits.after
    have hp₃ := hp₂.made made₃
    have hhit : hit ∉ P := fun hmem => (List.nodup_append.1 hp₂.distinct).2.2 hit hmem hit (by simp)
      rfl
    have hnext : next ∉ P ++ [hit] := fun hmem => (List.nodup_append.1 hp₃.distinct).2.2 next hmem
      next (by simp) rfl
    have hne : next ≠ hit := fun he => hnext (by simp [he])
    have hjoin : p ≠ hit := fun he => hhit (he ▸ hp.mem)
    have hjoin' : p ≠ next := fun he => hnext (by simp [← he, hp.mem])
    have e₄ := (inferInstance : (Emit.branch found hit next .normal).Tidy).emits _ _ _ hp₃.after h₄
    have hclosed₄ := Emit.terminate_closed hp₃.after h₄
    have hp₅ := (hp₃.emits e₄).goTo hclosed₄ (q := hit) (by simp) hjoin
    have hp₆ := hp₅.tidy h₆
    have e₆ : (b₄.goTo hit).Emits [] s₆.builder := Tidy.after h₆ (.refl hp₅.after)
    have e₇ := (inferInstance : (Emit.jump p args).Tidy).emits _ _ _ hp₆.after h₇
    have hclosed₇ := Emit.terminate_closed hp₆.after h₇
    have hmem : next ∈ (P ++ [hit] ++ [next]).erase hit := (List.mem_erase_of_ne hne).2 (by simp)
    have hp₈ := (hp₆.emits e₇).goTo hclosed₇ hmem hjoin'
    have hclosedRest : rest = [] ∨ exhaustive = false → ∀ s s' u, s.builder.WellFormed →
      miss env s = .ok (u, s') →
        s'.builder.IsClosed s'.builder.current.index := by
      rintro (rfl | hex)
      · exact hclosed (.inr (by simpa using hlast))
      · exact hclosed (.inr hex)
    have e₉ : (b₇.goTo next).Emits [] s'.builder :=
      (dispatch_after h (.refl hp₈.after) hclosedRest).1
    -- the finished function has all of them
    have hlast₇ : b₇.Extends s'.builder := (Builder.goTo_extends b₇ next).trans e₉.toExtends
    have hlast₄ : b₄.Extends s'.builder :=
      (Builder.goTo_extends b₄ hit).trans (e₆.toExtends.trans (e₇.toExtends.trans hlast₇))
    have hm₇ := hlast₇.completes hm
    have hm₄ := hlast₄.completes hm
    have e₄' : s₁.builder.Extends b₄ :=
      made₂.emits.toExtends.trans (made₃.emits.toExtends.trans e₄.toExtends)
    -- what waits where
    have hcur : b₃.current = s₁.builder.current := made₃.current.trans made₂.current
    have hhit₄ : b₄.Waits hit [] :=
      (made₂.waits.emits made₃.emits made₂.ne_current).emits e₄ (hcur ▸ made₂.current ▸
        made₂.ne_current)
    have hnext₄ : b₄.Waits next [] := made₃.waits.emits e₄ made₃.ne_current
    have hnext₇ : b₇.Waits next [] :=
      (hnext₄.goTo.emits e₆ hne).emits e₇ (hp₆.pending next hmem).2.2
    -- the run: the test, the branch, and the case or the rest
    refine Departure.after (htest k (by simp) hf hc h₁ (e₄'.completes hm₄)) (e₄'.trans hlast₄)
      fun c₂ hc₂ hregs₂ hfound => ?_
    obtain ⟨_, hfound, rfl, hmem₂⟩ := hfound
    have hmem₂' : c₂.memory = c₁.memory := hmem₂.trans hf.memory.symm
    have hf₂ : c.Follows b c₂ s₁.builder := hf.trans ⟨e₁.toExtends, hregs₂, hmem₂'⟩
    have hc₃ : m.At b₃ c₂ := made₃.stands (made₂.stands hc₂)
    obtain ⟨hpassed, hstep⟩ := hc₃.fork h₄ hm₄
      (hfound.keep (made₂.emits.toExtends.trans made₃.emits.toExtends) (.refl _ _)).read hhit₄
        hnext₄
    have hloads : m.LoadsIn L c₂ := hc₃.loadsIn h₄ hm₄
    refine ⟨hmem₂', hpassed.grow hlast₄, ?_⟩
    cases ht : t k with
    | true =>
      rw [ht, if_pos (ofBool_ne_zero.2 rfl)] at hstep
      have hc₅ : m.At (b₄.goTo hit) { c₂ with block := hit, position := 0 } :=
        hhit₄.at e₄.after rfl rfl hc₂.registers
      have hcase : (do Emit.jump p (← body k) : Lower Unit) env { s₁ with builder := b₄.goTo hit } =
          .ok ((), { s₆ with builder := b₇ }) := by
        rw [bind_of_ok h₆]
        change emit (Emit.jump p args) env s₆ = _
        simp only [emit, h₇]
      have hf₅ : c.Follows b { c₂ with block := hit, position := 0 } (b₄.goTo hit) :=
        hf₂.trans ⟨e₄'.trans (Builder.goTo_extends b₄ hit), fun _ _ => rfl, rfl⟩
      have hrun := hbody k (by simp) hf₅ hc₅ hp₅ hcase hm₇
      exact Departure.next hstep (hpassed.grow hlast₄) hloads rfl (hrun.grow hlast₇)
    | false =>
      rw [ht, if_neg (by simp)] at hstep
      rw [ht] at hmiss
      have hc₈ : m.At (b₇.goTo next) { c₂ with block := next, position := 0 } :=
        hnext₇.at (hp₆.emits e₇).after rfl rfl hc₂.registers
      have hf₈ : c.Follows b { c₂ with block := next, position := 0 } (b₇.goTo next) :=
        hf₂.trans
          ⟨e₄'.trans ((Builder.goTo_extends b₄ hit).trans (e₆.toExtends.trans (e₇.toExtends.trans
          (Builder.goTo_extends b₇ next)))), fun _ _ => rfl, rfl⟩
      have hrun :=
        ih (fun k' hk' => htest k' (by simp [hk'])) (fun k' hk' => hbody k' (by simp [hk'])) hmiss
          hclosedRest
        hf₈ hc₈ hp₈ h hm
      exact Departure.next hstep (hpassed.grow hlast₄) hloads rfl hrun

/-! ## Behind a dispatch -/

/-- The step leaves nothing pending and ends its block. -/
class Ending (x : Lower Unit) : Prop where
  ended : ∀ env s u s', x env s = .ok (u, s') → s.builder.WellFormed →
    s.builder.Emits [] s'.builder ∧ s'.builder.IsClosed s'.builder.current.index

section Rejoin

variable {ι : Type} {o : Except ExitKind ι} {s₁ : State} {a : β} {rest : Lower β}

/-- Arms, and the block where they join. -/
theorem Departs.rejoins {arms : Lower Unit} [Quiet arms] [hx : Ending arms]
    {R : ι → Config σ → Prop} (hp : Pends b₀ [p] p params s.builder)
    (h : (inArm arms >>= fun _ => liftM (Emit.switchTo p) >>= fun _ => rest) env s = .ok (a, s')) :
    ∃ s₁, b₀.Emits [] s₁.builder ∧ SameButCode s s₁ ∧ s.builder.Extends s₁.builder ∧
      rest env s₁ = .ok (a, s') ∧
      ∀ c, m.At s.builder c → s₁.builder.Completes m.func → Departs m L env s.builder c p params
        arms (o.map R) → match o with
        | .ok i =>
          ∃ c₁, m.Goes (fun x => x.Passed s₁.builder ∧ m.LoadsIn L x) c c₁ ∧ m.At s₁.builder c₁ ∧
            (∀ i < s.builder.func.types.size, (∀ r ∈ params, r.index ≠ i) →
              c₁.registers[i]? = c.registers[i]?) ∧ R i c₁
        | .error kind => QuitsBy m L kind s₁ c := by
  obtain ⟨_, s₃, harmed, h⟩ := bind_ok h
  have hsame : SameButCode s s₃ := Quiet.same _ _ _ _ harmed
  obtain ⟨s₂, h₂, rfl⟩ := inArm_ok harmed
  obtain ⟨e₂, hclosed⟩ := hx.ended _ _ _ _ h₂ hp.after
  obtain ⟨_, b₄, h₄, h⟩ := emit_bind_ok h
  obtain rfl := Emit.switchTo_ok h₄
  have hp₂ := hp.emits e₂
  have e₄ : b₀.Emits [] (s₂.builder.goTo p) := by simpa using hp₂.toEmits.goTo hclosed hp₂.mem
  refine ⟨{ s₂ with armDepth := s₂.armDepth - 1, builder := s₂.builder.goTo p }, e₄,
    hsame.trans ⟨rfl, rfl, rfl, rfl, rfl, rfl, rfl, rfl⟩,
    e₂.toExtends.trans (Builder.goTo_extends _ p), h, fun c hc hm harms => ?_⟩
  have hf : c.Follows s.builder c ({ s with armDepth := s.armDepth + 1 } : State).builder :=
    .refl _ _
  have hrun := harms hf hc hp h₂ ((Builder.goTo_extends s₂.builder p).completes hm)
  cases o with
  | ok i =>
    obtain ⟨c₁, hgoes, hblock, hpos, hsize, hregs, hR⟩ := hrun
    exact ⟨c₁, hgoes.mono fun _ hx => ⟨hx.1.grow (Builder.goTo_extends s₂.builder p), hx.2⟩,
      hp₂.waits.at hp₂.after hblock hpos hsize, hregs, hR⟩
  | error kind =>
    obtain ⟨id, e, hquits, he⟩ := hrun
    exact ⟨id, e, hquits.grow (Builder.goTo_extends s₂.builder p), he⟩

/-- What is done from where a block was made for the arms to join at. -/
theorem Departs.course {setup : Lower Reg} {arms : Reg → Lower Unit} [Tidy setup] [Quiet setup]
    [∀ r, Quiet (arms r)]
    [∀ r, Ending (arms r)] [Tidy rest] [KeepsExits rest] {R : ι → Config σ → Prop}
    {Q : ι → β → State → Config σ → Prop}
    (hp : Pends s₁.builder [p] p params s.builder)
    (hfresh : ∀ r ∈ params, s₁.builder.func.types.size ≤ r.index)
    (hc : m.At s.builder c) (hsetup : YieldsIn m L env s.builder c setup ty v)
    (harms : ∀ {r b' c'}, c.Follows s.builder c' b' → c'.Has b' r ty v → Departs m L env b' c' p
      params (arms r) (o.map R))
    (h : (setup >>= fun r => inArm (arms r) >>= fun _ => liftM (Emit.switchTo p) >>= fun _ => rest)
      env s = .ok (a, s'))
    (hm : s'.builder.Completes m.func)
    (hrest : ∀ {i s₃ c₃}, o = .ok i → SameButCode s s₃ → s.builder.Extends s₃.builder →
      c.Retains s₁.builder c₃ → R i c₃ →
      m.At s₃.builder c₃ → rest env s₃ = .ok (a, s') → m.Does L s₃.builder c₃ s'.builder (Q i a s'))
        :
    Course m L s₁ s' c a (o.map Q) := by
  obtain ⟨r, s₂, h₂, h⟩ := bind_ok h
  have e₂ : s.builder.Emits [] s₂.builder := Tidy.after h₂ (.refl hc.wf)
  have hsame₂ : SameButCode s s₂ := Quiet.same _ _ _ _ h₂
  obtain ⟨s₃, e₃, hsame₃, hext, h₃, hrun⟩ := Departs.rejoins (m := m) (L := L) (o := o) (R :=
    R) (hp.emits e₂) h
  have e₄ : s₃.builder.Emits [] s'.builder := Tidy.after h₃ (.refl e₃.after)
  have hm₃ := e₄.toExtends.completes hm
  -- the run
  obtain ⟨c₂, hgoes₂, hc₂, hregs₂, w, hr, rfl, hmem₂⟩ :=
    hsetup (.refl _ _) hc h₂ (hext.completes hm₃)
  have hdoes₂ : m.Does L s.builder c s₂.builder (· = c₂) := ⟨c₂, hgoes₂, hc₂, hregs₂, rfl⟩
  replace hrun := hrun c₂ hc₂ hm₃ (harms ⟨e₂.toExtends, hregs₂, hmem₂⟩ hr)
  cases o with
  | ok i =>
    obtain ⟨c₃, hgoes₃, hc₃, hregs₃, hR⟩ := hrun
    have hregs : c.Retains s₁.builder c₃ := by
      intro i hi
      have hle := hp.toExtends.types_size_le
      rw [hregs₃ i (Nat.lt_of_lt_of_le hi (Nat.le_trans hle e₂.toExtends.types_size_le))
        fun r hr => by
        have := hfresh r hr
        omega]
      exact hregs₂ i (Nat.lt_of_lt_of_le hi hle)
    have hgoes : m.Goes (fun x => x.Inside s₃.builder ∧ m.LoadsIn L x) c c₃ := by
      have hpassed : c₂.Passed s₃.builder ∨ c₂ = c₃ := by
        cases hgoes₃ with
        | refl => exact .inr rfl
        | next hp _ _ => exact .inl hp.1
      rcases hpassed with hpassed | rfl
      · exact ((hgoes₂.enclosed hc₂ hext hpassed).trans hgoes₃).mono fun _ hx => ⟨.inr hx.1, hx.2⟩
      · refine hgoes₂.mono fun x hx => ⟨?_, hx.2⟩
        rcases hx.1 with hx | hx
        · exact .inl (by rw [hx, ← hc₂.block, ← hc₃.block])
        · exact .inr (hx.grow hext)
    have hdoes : m.Does L s₁.builder c s₃.builder (· = c₃) := ⟨c₃, hgoes, hc₃, hregs, rfl⟩
    exact hdoes.bind e₃.toExtends e₄.toGrows fun c' hc' _ heq => by
      subst heq
      exact hrest rfl (hsame₂.trans hsame₃) (e₂.toExtends.trans hext) hregs hR hc' h₃
  | error kind =>
    refine QuitsBy.after hdoes₂ (hext.trans e₄.toExtends) fun c' _ _ heq => ?_
    subst heq
    exact ⟨hmem₂, QuitsBy.before hrun h₃ e₄.toExtends⟩

/-- Arms without a value, and what stands behind them. A word that the arms look at is computed
after the block was made where they join. -/
theorem Proceeds.rejoin {setup : Lower Reg} {arms : BlockId → Reg → Lower Unit} [Tidy setup]
    [Quiet setup]
    [∀ p r, Quiet (arms p r)] [∀ p r, Ending (arms p r)] [Tidy rest] [KeepsExits rest]
    {R : ι → σ → Memory → Prop}
    {Q : ι → β → State → Config σ → Prop} (hsetup : YieldsIn m L env s.builder c setup ty v)
    (harms : ∀ {p r b' c'}, c.Follows s.builder c' b' → c'.Has b' r ty v →
      Departs m L env b' c' p [] (arms p r) (o.map fun i c'' => R i c''.runtimeState c''.memory))
    (hrest : ∀ {i s' c'}, o = .ok i → SameButCode s s' → s.builder.Extends s'.builder →
      c.Retains s.builder c' →
      R i c'.runtimeState c'.memory → Proceeds m L env s' c' rest (.ok (Q i))) :
    Proceeds m L env s c (do
      let join ← Emit.createBlock false
      let current ← setup
      inArm (arms join current)
      Emit.switchTo join
      rest) (o.map Q) := by
  intro s₁ s' a c₁ hsame hf hc h hm
  obtain ⟨join, b₁, h₁, h⟩ := emit_bind_ok h
  have made := createBlock_made h₁ hc.wf
  have hp : Pends s₁.builder [join] join [] b₁ :=
    ⟨made.emits, List.mem_singleton_self _, made.waits⟩
  have hf₁ : c.Follows s.builder c₁ b₁ := hf.trans ⟨made.emits.toExtends, fun _ _ => rfl, rfl⟩
  refine Departs.course (s := { s₁ with builder := b₁ }) hp (fun _ hr => by cases hr)
    (made.stands hc) (hsetup.later hf₁)
    (fun hf' hr => harms (hf₁.trans hf') hr) h hm fun ho hsame' hext hregs hR hc' hrun => ?_
  have hsame₁ : SameButCode s₁ { s₁ with builder := b₁ } := ⟨rfl, rfl, rfl, rfl, rfl, rfl, rfl, rfl⟩
  exact hrest ho (hsame.trans (hsame₁.trans hsame'))
    (hf.grown.trans (made.emits.toExtends.trans hext))
    (hf.keeps.retains.trans hregs hf.grown) hR (.refl _) (.refl _ _) hc' hrun hm

/-- Arms with a value, and what stands behind them. -/
theorem Proceeds.rejoinWith {setup : Lower Reg} {arms : BlockId → Reg → Lower Unit}
    {rest : Reg → Lower β} [Tidy setup] [Quiet setup]
    [∀ p r, Quiet (arms p r)] [∀ p r, Ending (arms p r)] [∀ r, Tidy (rest r)]
    [∀ r, KeepsExits (rest r)]
    {R : ι → Word → Memory → Prop} {Q : ι → β → State → Config σ → Prop}
    (hsetup : YieldsIn m L env s.builder c setup ty' v)
    (harms : ∀ {p r result b' c'}, c.Follows s.builder c' b' → c'.Has b' r ty' v →
      b'.func.types[result.index]? = some ty →
      Departs m L env b' c' p [result] (arms p r) (o.map fun i => Handed result (R i)))
    (hrest : ∀ {i s' c' result}, o = .ok i → SameButCode s s' → s.builder.Extends s'.builder →
      c.Retains s.builder c' →
      InRegister ty (R i) result s'.builder c' → Proceeds m L env s' c' (rest result) (.ok (Q i))) :
    Proceeds m L env s c (do
      let join ← Emit.createBlock false
      let result ← Emit.blockParam join ty
      let current ← setup
      inArm (arms join current)
      Emit.switchTo join
      rest result) (o.map Q) := by
  intro s₁ s' a c₁ hsame hf hc h hm
  obtain ⟨join, b₁, h₁, h⟩ := emit_bind_ok h
  have made := createBlock_made h₁ hc.wf
  obtain ⟨result, b₂, h₂, h⟩ := emit_bind_ok h
  obtain ⟨rfl, rfl⟩ := Emit.blockParam_ok h₂
  have hp : Pends s₁.builder [join] join [⟨b₁.func.types.size⟩]
    ((b₁.addReg ty).addParam join ⟨b₁.func.types.size⟩) :=
    ⟨(made.emits.trans (Builder.addReg_emits made.emits.after ty)).addParam
      (List.mem_singleton_self _) _,
      List.mem_singleton_self _, (made.waits.addReg ty).addParam _⟩
  have hty : ((b₁.addReg ty).addParam join ⟨b₁.func.types.size⟩).func.types[b₁.func.types.size]?
    = some ty := by
    simp [Builder.addReg, Builder.addParam]
  have hc₂ : m.At ((b₁.addReg ty).addParam join ⟨b₁.func.types.size⟩) c₁ :=
    ((made.stands hc).addReg ty).addParam made.ne_current _
  have hf₁ : c.Follows s.builder c₁ ((b₁.addReg ty).addParam join ⟨b₁.func.types.size⟩) :=
    hf.trans ⟨hp.toExtends, fun _ _ => rfl, rfl⟩
  refine Departs.course (s :=
    { s₁ with builder := (b₁.addReg ty).addParam join ⟨b₁.func.types.size⟩ }) hp
    (fun r hr => by
      obtain rfl := List.mem_singleton.1 hr
      exact made.emits.toExtends.types_size_le) hc₂ (hsetup.later hf₁)
    (fun hf' hr => harms (hf₁.trans hf') hr (hf'.grown.types _ _ hty)) h hm
      fun ho hsame' hext hregs hR hc' hrun => ?_
  obtain ⟨w, hw, hR⟩ := hR
  have hsame₂ : SameButCode s₁
    { s₁ with builder := (b₁.addReg ty).addParam join ⟨b₁.func.types.size⟩ } :=
    ⟨rfl, rfl, rfl, rfl, rfl, rfl, rfl, rfl⟩
  exact hrest ho (hsame.trans (hsame₂.trans hsame')) (hf.grown.trans (hp.toExtends.trans hext))
    (hf.keeps.retains.trans hregs hf.grown)
    ⟨w, ⟨hext.types _ _ hty, hw⟩, hR⟩ (.refl _) (.refl _ _) hc' hrun hm

end Rejoin

/-! ## Two arms that may have several ends -/

instance (x : Lower α) (p : BlockId) (args : α → List Reg) [Tidy x] :
    Ending (x >>= fun a => liftM (Emit.jump p (args a))) where
  ended _ _ _ _ h hw := by
    obtain ⟨_, _, h₁, h₂⟩ := bind_ok h
    exact terminate_after h₂ nofun (Tidy.after h₁ (.refl hw))

/-- Two arms without values. Each of them goes on to the block where they join, in one way or in
several. -/
def fork (cond : Reg) (weight : BranchWeight) (x y : BlockId → Lower Unit) : Lower Unit := do
  let first ← Emit.createBlock false
  let second ← Emit.createBlock false
  let join ← Emit.createBlock false
  Emit.branch cond first second weight
  inArm do
    Emit.switchTo first
    x join
    Emit.switchTo second
    y join
  Emit.switchTo join

instance (cond : Reg) (weight : BranchWeight) (x y : BlockId → Lower Unit) [hx : ∀ p, Ending (x p)]
    [hy : ∀ p, Ending (y p)] :
    Tidy (fork cond weight x y) where
  obeys env s a s' h hw := by
    obtain ⟨first, s₁, h₁, h⟩ := bind_ok h
    have e₁ := createBlock_after h₁ (.refl hw)
    obtain ⟨second, s₂, h₂, h⟩ := bind_ok h
    have e₂ := createBlock_after h₂ e₁
    obtain ⟨join, s₃, h₃, h⟩ := bind_ok h
    have e₃ := createBlock_after h₃ e₂
    obtain ⟨_, s₄, h₄, h⟩ := bind_ok h
    obtain ⟨e₄, hclosed₄⟩ := terminate_after h₄ nofun e₃
    obtain ⟨_, _, harms, h⟩ := bind_ok h
    obtain ⟨s₈, h₈, rfl⟩ := inArm_ok harms
    obtain ⟨_, s₅, h₅, h₈⟩ := bind_ok h₈
    have e₅ := switchTo_after h₅ e₄ hclosed₄ (by simp)
    obtain ⟨_, s₆, h₆, h₈⟩ := bind_ok h₈
    obtain ⟨e₆, hclosed₆⟩ := (hx join).ended _ _ _ _ h₆ e₅.after
    obtain ⟨_, s₇, h₇, h₈⟩ := bind_ok h₈
    have e₇ := switchTo_after h₇ (e₅.trans e₆) hclosed₆ (by simp)
    obtain ⟨e₈, hclosed₈⟩ := (hy join).ended _ _ _ _ h₈ e₇.after
    simpa using switchTo_after h (e₇.trans e₈) hclosed₈ (by simp)

theorem fork_ends {cond : Reg} {weight : BranchWeight} {x y : BlockId → Lower Unit}
    [hx : ∀ p, Ending (x p)] [hy : ∀ p, Ending (y p)]
    {R : σ → Memory → Prop} (hcond : c.Has b cond ty w)
    (hfirst : w.toUInt32 ≠ 0 → ∀ {p b' c'}, c.Follows b c' b' →
      Departs m L env b' c' p [] (x p) (.ok fun c'' => R c''.runtimeState c''.memory))
    (hsecond : w.toUInt32 = 0 → ∀ {p b' c'}, c.Follows b c' b' →
      Departs m L env b' c' p [] (y p) (.ok fun c'' => R c''.runtimeState c''.memory)) :
    Acts m L env b c (fork cond weight x y) fun _ _ c' => R c'.runtimeState c'.memory := by
  intro s s' u c₁ hf hc h hm
  replace hcond := hcond.later hf
  obtain ⟨first, b₁, h₁, h⟩ := emit_bind_ok h
  have made₁ := createBlock_made h₁ hc.wf
  obtain ⟨second, b₂, h₂, h⟩ := emit_bind_ok h
  have made₂ := createBlock_made h₂ made₁.emits.after
  obtain ⟨join, b₃, h₃, h⟩ := emit_bind_ok h
  have made₃ := createBlock_made h₃ made₂.emits.after
  obtain ⟨_, b₄, h₄, h⟩ := emit_bind_ok h
  obtain ⟨_, s₉, harms, h⟩ := bind_ok h
  obtain ⟨s₈, h₈, rfl⟩ := inArm_ok harms
  obtain ⟨_, b₅, h₅, h₈⟩ := emit_bind_ok h₈
  obtain rfl := Emit.switchTo_ok h₅
  obtain ⟨_, s₆, h₆, h₈⟩ := bind_ok h₈
  obtain ⟨_, b₇, h₇, h₈⟩ := emit_bind_ok h₈
  obtain rfl := Emit.switchTo_ok h₇
  obtain ⟨b₉, h₉, rfl⟩ := emit_ok h
  obtain rfl := Emit.switchTo_ok h₉
  -- growth: the three blocks are taken up one after the other
  have x₃ := made₃.after (made₂.after (made₁.after (.refl hc.wf)))
  have hnd := x₃.distinct
  simp only [List.nil_append, List.cons_append, List.nodup_cons, List.mem_cons, List.not_mem_nil,
    or_false, not_or, List.nodup_nil, and_true, not_false_eq_true] at hnd
  obtain ⟨⟨hne, hfj⟩, hsj⟩ := hnd
  have e₄ := (inferInstance : (Emit.branch cond first second weight).Tidy).emits _ _ _ x₃.after h₄
  have x₅ := (x₃.trans e₄).goTo (Emit.terminate_closed x₃.after h₄) (p := first) (by simp)
  obtain ⟨e₆, hclosed₆⟩ := (hx join).ended _ _ _ _ h₆ x₅.after
  have x₇ := (x₅.trans e₆).goTo hclosed₆ (p := second) (by simp)
  obtain ⟨e₈, hclosed₈⟩ := (hy join).ended _ _ _ _ h₈ x₇.after
  have x₉ := (x₇.trans e₈).goTo hclosed₈ (p := join) (by simp)
  -- the finished function has all of them
  have hlast₆ : s₆.builder.Extends (s₈.builder.goTo join) :=
    (Builder.goTo_extends s₆.builder second).trans
    (e₈.toExtends.trans (Builder.goTo_extends s₈.builder join))
  have hlast₄ : b₄.Extends (s₈.builder.goTo join) :=
    (Builder.goTo_extends b₄ first).trans (e₆.toExtends.trans hlast₆)
  -- what waits where
  have hcur₂ : b₂.current = s.builder.current := made₂.current.trans made₁.current
  have hcur₃ : b₃.current = s.builder.current := made₃.current.trans hcur₂
  have hfirst₄ : b₄.Waits first [] :=
    ((made₁.waits.emits made₂.emits made₁.ne_current).emits made₃.emits
    (hcur₂ ▸ made₁.current ▸ made₁.ne_current)).emits e₄ (hcur₃ ▸ made₁.current ▸ made₁.ne_current)
  have hsecond₄ : b₄.Waits second [] :=
    (made₂.waits.emits made₃.emits made₂.ne_current).emits e₄ (hcur₃ ▸ hcur₂ ▸ made₂.ne_current)
  have hjoin₄ : b₄.Waits join [] := made₃.waits.emits e₄ made₃.ne_current
  have hp₅ : Pends s.builder _ join [] (b₄.goTo first) := ⟨x₅, by simp, hjoin₄.goTo⟩
  have hsecond₆ : s₆.builder.Waits second [] := hsecond₄.goTo.emits e₆ (Ne.symm hne)
  have hp₇ : Pends s.builder _ join [] (s₆.builder.goTo second) :=
    ⟨x₇, by simp, (hp₅.emits e₆).waits.goTo⟩
  have hp₈ := hp₇.emits e₈
  -- the run: the branch, an arm, the join
  have hc₃ : m.At b₃ c₁ := made₃.stands (made₂.stands (made₁.stands hc))
  have hm₄ := hlast₄.completes hm
  obtain ⟨hpassed, hstep⟩ := hc₃.fork h₄ hm₄ (hcond.keep x₃.toExtends (.refl _ _)).read hfirst₄
    hsecond₄
  have hloads : m.LoadsIn L c₁ := hc₃.loadsIn h₄ hm₄
  obtain ⟨c₂, hgoes, hblock, hpos, hsize, hregs, hR⟩ : Departure m L s.builder c₁ join []
    { s₈ with builder := s₈.builder.goTo join } c₁
      (.ok fun c' => R c'.runtimeState c'.memory) := by
    by_cases hz : w.toUInt32 = 0
    · rw [if_neg (by simpa using hz)] at hstep
      have hc₇ : m.At (s₆.builder.goTo second) { c₁ with block := second, position := 0 } :=
        hsecond₆.at (x₅.trans e₆).after rfl rfl hc.registers
      have hf₇ : c₁.Follows s.builder { c₁ with block := second, position := 0 }
        (s₆.builder.goTo second) :=
        ⟨x₇.toExtends, fun _ _ => rfl, rfl⟩
      have hrun :=
        hsecond hz hf hf₇ hc₇ hp₇ h₈ ((Builder.goTo_extends s₈.builder join).completes hm)
      exact .next hstep (hpassed.grow hlast₄) hloads rfl
        (hrun.grow (Builder.goTo_extends s₈.builder join))
    · rw [if_pos hz] at hstep
      have hc₅ : m.At (b₄.goTo first) { c₁ with block := first, position := 0 } :=
        hfirst₄.at (x₃.trans e₄).after rfl rfl hc.registers
      have hf₅ : c₁.Follows s.builder { c₁ with block := first, position := 0 } (b₄.goTo first) :=
        ⟨x₅.toExtends, fun _ _ => rfl, rfl⟩
      have hrun := hfirst hz hf hf₅ hc₅ hp₅ h₆ (hlast₆.completes hm)
      exact .next hstep (hpassed.grow hlast₄) hloads rfl (hrun.grow hlast₆)
  exact ⟨c₂, hgoes.mono fun _ hx => ⟨.inr hx.1, hx.2⟩, hp₈.waits.at hp₈.after hblock hpos hsize,
    fun i hi => hregs i hi fun _ hmem => absurd hmem List.not_mem_nil, hR⟩

/-! ## Dispatches as arms -/

instance (p : BlockId) (exhaustive : Bool) (test : α → Lower Reg) (body : α → Lower (List Reg))
    (profile : Option Reg) (cases : List α) [∀ k, Tidy (test k)] [∀ k, Tidy (body k)] :
    Ending (dispatch p exhaustive test body (exitHere kind profile) cases) where
  ended _ _ _ _ h hw := dispatch_after h (.refl hw) fun _ _ _ _ => exitHere_closed

instance (p : BlockId) (test : α → Lower Reg) (body : α → Lower (List Reg)) (miss : Lower Unit)
    (k : α) (rest : List α) [∀ k, Tidy (test k)] [∀ k, Tidy (body k)] [Tidy miss] :
    Ending (dispatch p true test body miss (k :: rest)) where
  ended _ _ _ _ h hw := dispatch_after h (.refl hw) fun hlast => by simp at hlast

instance (p : BlockId) (exhaustive : Bool) (test : α → Lower Reg) (body : α → Lower (List Reg))
    (miss : Lower Unit) (cases : List α) [∀ k, Quiet (test k)] [∀ k, Quiet (body k)] [Quiet miss] :
    Quiet (dispatch p exhaustive test body miss cases) := by
  induction cases with
  | nil => exact inferInstanceAs (Quiet miss)
  | cons k rest ih =>
    rw [dispatch]
    infer_instance

end SpecJit.Lowering
