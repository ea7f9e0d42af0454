import SpecJit.Proofs.Lir.Effects
import SpecJit.Proofs.Lowering.Leaving
import SpecJit.Proofs.Lowering.Laws.Operations

/-!
# Steps with effects that may leave

`Proceeds m L env s c x o`: the code of the lowering step `x`, wherever it stands after `s`, loads
from addresses in `L` only. It leaves by an exit of the kind that `o` says, with memory as it was,
or comes to its end as `o` says of the result, the state and the configuration there. A step is gone
through part by part: values that it computes (`Proceeds.value`), parts with effects
(`Proceeds.act`), checks (`Proceeds.guard`), and the record of a result (`proceeds_setResult`). The
parts with effects are stores, calls of the runtime, and what is done if a condition holds
(`store_acts`, `callHelper_acts`, `when_acts`).
-/

namespace SpecJit.Lowering

open Lir

variable {α β σ : Type} {m : Machine σ} {L L' : Set Word} {b b' : Builder} {c c' : Config σ}
  {env : Env} {s s' s₁ : State} {u : Unit} {id : NodeId} {node : Node} {form : Form}
  {kind : ExitKind} {t : Bool} {ty ty' : Ty} {v w : Word} {r : Reg}

/-! ## Exits that are reached without effects -/

/-- The code loads from `L` only and leads to an exit of the kind before the end of what was built,
with memory as it was. -/
def QuitsBy (m : Machine σ) (L : Set Word) (kind : ExitKind) (s : State) (c : Config σ) : Prop :=
  ∃ id e, m.Quits L id s.builder c ∧ s.exits.exit? id = some e ∧ e.kind = kind

theorem QuitsBy.leavesBy (h : QuitsBy m L kind s c) : LeavesBy m kind s c := by
  obtain ⟨id, e, hquits, he⟩ := h
  exact ⟨id, e, hquits.leavesAt, he⟩

/-- Code that leaves memory as it is, up to code that leaves. -/
theorem QuitsBy.after {Q : Config σ → Prop} (h : m.Does L b c b' Q) (e : b'.Extends s'.builder)
    (k : ∀ c', m.At b' c' → c.Retains b c' → Q c' → c'.memory = c.memory ∧ QuitsBy m L kind s' c') :
    QuitsBy m L kind s' c := by
  obtain ⟨c₁, hgoes, hc₁, hregs, hq⟩ := h
  obtain ⟨hmem, id, exit, hquits, hexit, hkind⟩ := k c₁ hc₁ hregs hq
  have hdoes : m.Does L b c b' (· = c₁) := ⟨c₁, hgoes, hc₁, hregs, rfl⟩
  exact ⟨id, exit, hdoes.quits e fun c' _ _ hc' => hc' ▸ ⟨hmem, hquits⟩, hexit, hkind⟩

/-- What is built after code that leaves does not matter. -/
theorem QuitsBy.before {x : Lower α} [hx : KeepsExits x] {a : α} (h : QuitsBy m L kind s c)
    (hrest : x env s = .ok (a, s')) (e : s.builder.Extends s'.builder) : QuitsBy m L kind s' c := by
  obtain ⟨id, exit, hquits, hexit, hkind⟩ := h
  exact ⟨id, exit, hquits.grow e, hx.kept hrest hexit, hkind⟩

/-- A speculation goes on if its test fails, and otherwise leaves by an exit of its kind. -/
theorem speculate_quits {profile : Option Reg} (h : speculate kind profile r env s = .ok (u, s'))
    (hm : s'.builder.Completes m.func) (hc : m.At s.builder c)
    (hr : c.Has s.builder r .i32 (ofBool t)) :
    (t = false → m.Does L s.builder c s'.builder fun c' => c'.memory = c.memory) ∧
      (t = true → QuitsBy m L kind s' c) := by
  obtain ⟨exit, captured, s₁, hbuilt, hexits, hdoes, hquits⟩ := speculate_does (L := L) h hm hc hr
  constructor
  · rintro rfl
    exact hdoes (by decide)
  · rintro rfl
    obtain ⟨e, he, hkind⟩ := (buildExit_adds hbuilt).1
    exact ⟨exit, e, hquits (by decide), by rw [hexits]; exact he, hkind⟩

/-! ## How a step goes -/

/-- The code between two states leaves by an exit of a kind, or comes to its end. -/
def Course (m : Machine σ) (L : Set Word) (s s' : State) (c : Config σ) (a : α) :
    Except ExitKind (α → State → Config σ → Prop) → Prop
  | .ok Q => m.Does L s.builder c s'.builder (Q a s')
  | .error kind => QuitsBy m L kind s' c

/-- The step goes as `o` says and loads from `L` only, wherever it stands after `s`. -/
def Proceeds (m : Machine σ) (L : Set Word) (env : Env) (s : State) (c : Config σ) (x : Lower α)
    (o : Except ExitKind (α → State → Config σ → Prop)) : Prop :=
  ∀ ⦃s₁ s' : State⦄ ⦃a : α⦄ ⦃c₁ : Config σ⦄, SameButCode s s₁ → c.Follows s.builder c₁ s₁.builder →
    m.At s₁.builder c₁ →
    x env s₁ = .ok (a, s') → s'.builder.Completes m.func → Course m L s₁ s' c₁ a o

variable {o : Except ExitKind (β → State → Config σ → Prop)} {Q : α → State → Config σ → Prop}

/-- A part with effects, before the rest. -/
theorem Proceeds.act {x : Lower α} {f : α → Lower β} {Q' : α → Builder → Config σ → Prop}
    {Q : β → State → Config σ → Prop}
    [Tidy x] [Quiet x] [∀ a, Tidy (f a)] (hx : Acts m L env s.builder c x Q')
    (hf : ∀ {a : α} {s' : State} {c' : Config σ}, SameButCode s s' → s.builder.Extends s'.builder →
      c.Retains s.builder c' →
      Q' a s'.builder c' → Proceeds m L env s' c' (f a) (.ok Q)) : Proceeds m L env s c (x >>= f)
        (.ok Q) := by
  intro s₁ s' a c₁ hsame hfollows hc h hm
  obtain ⟨a, s₂, h₁, h₂⟩ := bind_ok h
  have e₁ : s₁.builder.Emits [] s₂.builder := Tidy.after h₁ (.refl hc.wf)
  have e₂ : s₂.builder.Emits [] s'.builder := Tidy.after h₂ (.refl e₁.after)
  refine (hx hfollows hc h₁ (e₂.toExtends.completes hm)).bind e₁.toExtends e₂.toGrows
    fun c₂ hc₂ hregs hq => ?_
  exact hf (hsame.trans (Quiet.same _ _ _ _ h₁)) (hfollows.grown.trans e₁.toExtends)
    (hfollows.keeps.retains.trans hregs hfollows.grown) hq (.refl _) (.refl _ _) hc₂ h₂ hm

/-- The last part of a step. -/
theorem Acts.proceeds {x : Lower α} {Q' : α → Builder → Config σ → Prop} [Tidy x] [Quiet x]
    (hx : Acts m L env s.builder c x Q')
    (hq : ∀ {a : α} {s' : State} {c' : Config σ}, SameButCode s s' → s.builder.Extends s'.builder →
      c.Retains s.builder c' →
      Q' a s'.builder c' → Q a s' c') : Proceeds m L env s c x (.ok Q) := by
  intro s₁ s' a c₁ hsame hfollows hc h hm
  have e₁ : s₁.builder.Emits [] s'.builder := Tidy.after h (.refl hc.wf)
  exact (hx hfollows hc h hm).mono fun c₂ _ hregs hq' => hq (hsame.trans (Quiet.same _ _ _ _ h))
    (hfollows.grown.trans e₁.toExtends) (hfollows.keeps.retains.trans hregs hfollows.grown) hq'

/-- A value that is computed before the rest. -/
theorem Proceeds.value {x : Lower Reg} {f : Reg → Lower β} [Tidy x] [Quiet x] [∀ r, Tidy (f r)]
    (hx : YieldsIn m L env s.builder c x ty v)
    (hf : ∀ {r : Reg} {s' : State} {c' : Config σ}, SameButCode s s' → c.Follows s.builder c'
      s'.builder →
      c'.Has s'.builder r ty v → Proceeds m L env s' c' (f r) o) : Proceeds m L env s c (x >>= f)
        o := by
  intro s₁ s' a c₁ hsame hfollows hc h hm
  obtain ⟨r, s₂, h₁, h₂⟩ := bind_ok h
  have e₁ : s₁.builder.Emits [] s₂.builder := Tidy.after h₁ (.refl hc.wf)
  have e₂ : s₂.builder.Emits [] s'.builder := Tidy.after h₂ (.refl e₁.after)
  have hdoes := hx hfollows hc h₁ (e₂.toExtends.completes hm)
  have hrest (c₂ : Config σ) (hc₂ : m.At s₂.builder c₂) (hregs : c₁.Retains s₁.builder c₂)
      (hr : InRegister ty (fun w' memory => w' = v ∧ memory = c.memory) r s₂.builder c₂) :
      c₂.memory = c₁.memory ∧ Course m L s₂ s' c₂ a o := by
    obtain ⟨_, hr, rfl, hmem⟩ := hr
    have hmem₁ : c₂.memory = c₁.memory := hmem.trans hfollows.memory.symm
    refine ⟨hmem₁, ?_⟩
    exact hf (hsame.trans (Quiet.same _ _ _ _ h₁)) (hfollows.trans ⟨e₁.toExtends, hregs, hmem₁⟩) hr
      (.refl _) (.refl _ _) hc₂ h₂ hm
  cases o with
  | ok Q =>
    exact hdoes.bind e₁.toExtends e₂.toGrows fun c₂ hc₂ hregs hr => (hrest c₂ hc₂ hregs hr).2
  | error kind => exact .after hdoes e₂.toExtends fun c₂ hc₂ hregs hr => hrest c₂ hc₂ hregs hr

/-- A check before the rest. -/
theorem Proceeds.guard {profile : Option Reg} {f : Unit → Lower β} [∀ u, Tidy (f u)]
    [∀ u, KeepsExits (f u)]
    (hr : c.Has s.builder r .i32 (ofBool t))
    (hf : t = false → ∀ {s' : State} {c' : Config σ}, SameButCode s s' → c.Follows s.builder c'
      s'.builder →
      Proceeds m L env s' c' (f ()) o) :
    Proceeds m L env s c (speculate kind profile r >>= f) (if t then .error kind else o) := by
  intro s₁ s' a c₁ hsame hfollows hc h hm
  obtain ⟨u, s₂, h₁, h₂⟩ := bind_ok h
  have e₁ : s₁.builder.Emits [] s₂.builder := Tidy.after h₁ (.refl hc.wf)
  have e₂ : s₂.builder.Emits [] s'.builder := Tidy.after h₂ (.refl e₁.after)
  obtain ⟨hdoes, hquits⟩ := speculate_quits (L := L) h₁ (e₂.toExtends.completes hm) hc
    (hr.later hfollows)
  cases t with
  | true => exact (hquits rfl).before h₂ e₂.toExtends
  | false =>
    have hrest (c₂ : Config σ) (hc₂ : m.At s₂.builder c₂) (hregs : c₁.Retains s₁.builder c₂)
      (hmem : c₂.memory = c₁.memory) :
        Course m L s₂ s' c₂ a o :=
      hf rfl (hsame.trans (Quiet.same _ _ _ _ h₁)) (hfollows.trans ⟨e₁.toExtends, hregs, hmem⟩)
        (.refl _) (.refl _ _) hc₂ h₂ hm
    cases o with
    | ok Q => exact (hdoes rfl).bind e₁.toExtends e₂.toGrows hrest
    | error kind =>
      exact .after (hdoes rfl) e₂.toExtends fun c₂ hc₂ hregs hmem => ⟨hmem, hrest c₂ hc₂ hregs hmem⟩

/-- A node that is looked up before the rest. -/
theorem Proceeds.ofNode {f : Node → Lower β} (hnode : env.graph.node id = .ok node)
    (hf : Proceeds m L env s c (f node) o) :
    Proceeds m L env s c (getNode id >>= f) o := by
  intro s₁ s' a c₁ hsame hfollows hc h hm
  obtain ⟨node', hnode', h⟩ := getNode_bind_ok h
  rw [hnode] at hnode'
  cases hnode'
  exact hf hsame hfollows hc h hm

/-! ## Results -/

/-- The node is held in the form. Its word is, with the memory, as `R` says. -/
def HeldAs (id : NodeId) (form : Form) (R : Word → Memory → Prop) (_ : Unit) (s : State)
    (c : Config σ) : Prop :=
  ∃ r, s.values.lookup (id, form) = some (r, s.block) ∧ InRegister form.type R r s.builder c

theorem HeldAs.mono {R R' : Word → Memory → Prop} (h : HeldAs id form R u s c)
    (hr : ∀ {w memory}, R w memory → R' w memory) :
    HeldAs id form R' u s c := by
  obtain ⟨r, hheld, w, hw, hR⟩ := h
  exact ⟨r, hheld, w, hw, hr hR⟩

/-- The result of a node is recorded. -/
theorem proceeds_setResult {R : Word → Memory → Prop} (hnode : env.graph.node id = .ok node)
    (hform : node.result.form? = some form) (hdepth : s.armDepth = 0)
    (hr : InRegister form.type R r s.builder c) :
    Proceeds m L env s c (setResult id r) (.ok (HeldAs id form R)) := by
  intro s₁ s' u c₁ hsame hf hc h hm
  obtain ⟨node', hnode', h⟩ := getNode_bind_ok h
  rw [hnode] at hnode'
  cases hnode'
  rw [hform] at h
  obtain rfl : { s₁ with values := ((id, form), r, s₁.block) :: s₁.values } = s' := by
    cases h
    exact (if_pos (hsame.armDepth.trans hdepth)).symm
  obtain ⟨w, hr, hw⟩ := hr
  refine .refl hc ⟨r, by simp, w, hr.later hf, ?_⟩
  rw [hf.memory]
  exact hw

/-- The code leaves by the exit that the outcome says. -/
theorem Course.leavesBy_iff {a : α} {o : Except ExitKind (α → State → Config σ → Prop)}
    (h : Course m L s s' c a o) :
    LeavesBy m kind s' c ↔ o = .error kind := by
  cases o with
  | ok Q => exact ⟨fun hleave => absurd hleave.leaves (Machine.Does.not_leaves h), nofun⟩
  | error kind' =>
    constructor
    · intro hleave
      rw [hleave.unique (QuitsBy.leavesBy h)]
    · rintro ⟨⟩
      exact QuitsBy.leavesBy h

/-- The uses of a node are read between `s` and some state; the rest of its code goes as `o` says.
-/
def Performs (m : Machine σ) (L : Set Word) (s s' : State) (c : Config σ)
    (o : Except ExitKind (Unit → State → Config σ → Prop)) : Prop :=
  ∃ s₁ c₁, s.builder.Emits [] s₁.builder ∧ s₁.builder.Emits [] s'.builder ∧
    m.Runs s.builder c s₁.builder (· = c₁) ∧
    Course m L s₁ s' c₁ () o

/-- Reading one more use. -/
theorem Performs.after {P : Config σ → Prop} {o : Except ExitKind (Unit → State → Config σ → Prop)}
    (h : m.Runs s.builder c s₁.builder P) (e₁ : s.builder.Emits [] s₁.builder)
    (k : ∀ c₁, m.At s₁.builder c₁ → c.Follows s.builder c₁ s₁.builder → P c₁ →
      Performs m L s₁ s' c₁ o) : Performs m L s s' c o := by
  obtain ⟨c₁, hgoes, hc₁, hk, hp⟩ := h
  obtain ⟨s₂, c₂, x₁, x₂, hruns, hcourse⟩ := k c₁ hc₁ ⟨e₁.toExtends, hk⟩ hp
  have hruns₁ : m.Runs s.builder c s₁.builder (· = c₁) := ⟨c₁, hgoes, hc₁, hk, rfl⟩
  exact ⟨s₂, c₂, e₁.trans x₁, x₂, hruns₁.bind e₁.toExtends x₁.toGrows fun c' _ _ hc' => hc' ▸ hruns,
    hcourse⟩

/-- The part of the code that is left when all uses are read. -/
theorem Proceeds.performs {x : Lower Unit} {o : Except ExitKind (Unit → State → Config σ → Prop)}
    (hx : Proceeds m L env s c x o) (hc : m.At s.builder c) (h : x env s = .ok (u, s'))
    (hm : s'.builder.Completes m.func) (e : s.builder.Emits [] s'.builder) :
    Performs m L s s' c o :=
  ⟨s, c, .refl hc.wf, e, .refl hc rfl, hx (.refl s) (.refl _ _) hc h hm⟩

theorem Performs.mono {Q Q' : Unit → State → Config σ → Prop} (h : Performs m L s s' c (.ok Q))
    (hq : ∀ {c'}, Q () s' c' → Q' () s' c') : Performs m L s s' c (.ok Q') := by
  obtain ⟨s₁, c₁, e₁, e₂, hruns, hdoes⟩ := h
  exact ⟨s₁, c₁, e₁, e₂, hruns, hdoes.mono fun _ _ _ => hq⟩

/-- The code of a node that comes to its end. -/
theorem Performs.does {Q : Unit → State → Config σ → Prop} (h : Performs m L s s' c (.ok Q)) :
    m.Does .univ s.builder c s'.builder (Q () s') := by
  obtain ⟨s₁, c₁, e₁, e₂, hruns, hdoes⟩ := h
  refine hruns.does.bind e₁.toExtends e₂.toGrows fun c' _ _ hc' => ?_
  rw [hc'.2]
  exact hdoes.widen fun _ _ => trivial

/-- The code of a node leaves by the exit that the outcome says. -/
theorem Performs.leavesBy_iff {o : Except ExitKind (Unit → State → Config σ → Prop)}
    (h : Performs m L s s' c o) :
    LeavesBy m kind s' c ↔ o = .error kind := by
  cases o with
  | ok Q => exact ⟨fun hleave => absurd hleave.leaves h.does.not_leaves, nofun⟩
  | error kind' =>
    obtain ⟨s₁, c₁, e₁, e₂, hruns, hquits⟩ := h
    have hleave : LeavesBy m kind' s' c := .after hruns e₂.toExtends fun c' _ _ hc' => hc' ▸
      QuitsBy.leavesBy hquits
    constructor
    · intro hleave'
      rw [hleave'.unique hleave]
    · rintro ⟨⟩
      exact hleave

/-! ## Parts with effects -/

theorem Acts.ofRead {f : Env → Lower α} {Q : α → Builder → Config σ → Prop}
    (h : Acts m L env b c (f env) Q) :
    Acts m L env b c (read >>= f) Q := h

theorem Acts.ofField {field : CellField} {f : Int → Lower α} {Q : α → Builder → Config σ → Prop}
    (h : Acts m L env b c (f (env.layout.fieldOffset field)) Q) :
    Acts m L env b c (fieldOffset field >>= f) Q := h

theorem YieldsIn.ofRead {f : Env → Lower Reg} (h : YieldsIn m L env b c (f env) ty w) :
    YieldsIn m L env b c (read >>= f) ty w := h

theorem checkI32_ok {n k : Int} (h : Fault.checkI32 n = .ok k) :
    (-0x80000000 ≤ n ∧ n < 0x80000000) ∧ k = n := by
  unfold Fault.checkI32 at h
  split at h
  · cases h
    exact ⟨‹_›, rfl⟩
  · cases h

/-- What is checked while the code is built. -/
theorem Acts.ofCheck {x : Except Fault β} {f : β → Lower α} {Q : α → Builder → Config σ → Prop}
    (hf : ∀ {a}, x = .ok a → Acts m L env b c (f a) Q) : Acts m L env b c (liftM x >>= f) Q := by
  intro s s' a c' hfollows hc h hm
  obtain ⟨a, s₁, h₁, h₂⟩ := bind_ok h
  obtain ⟨hx, rfl⟩ := check_ok h₁
  exact hf hx hfollows hc h₂ hm

theorem Acts.ofCheckI32 {n : Int} {f : Int → Lower α} {Q : α → Builder → Config σ → Prop}
    (hf : -0x80000000 ≤ n → n < 0x80000000 → Acts m L env b c (f n) Q) :
    Acts m L env b c (liftM (Fault.checkI32 n) >>= f) Q := by
  refine .ofCheck fun hn => ?_
  obtain ⟨hrange, rfl⟩ := checkI32_ok hn
  exact hf hrange.1 hrange.2

/-- A loop keeps what each of its turns keeps. -/
theorem forM_acts {f : Nat → Lower Unit} [∀ i, Tidy (f i)] {I : Nat → Memory → Prop} {n : Nat}
    (hstart : I 0 c.memory)
    (hturn : ∀ i < n, ∀ {b' : Builder} {c' : Config σ}, b.Extends b' → c.Retains b c' →
      I i c'.memory →
      Acts m L env b' c' (f i) fun _ _ c'' => I (i + 1) c''.memory) :
    Acts m L env b c ((List.range n).forM f) fun _ _ c' => I n c'.memory := by
  induction n with
  | zero => exact .pure fun hf => hf.memory ▸ hstart
  | succ n ih =>
    have hturns : Acts m L env b c ((List.range n).forM f >>= fun _ => f n >>= fun _ => pure ())
      fun _ _ c' => I (n + 1) c'.memory := by
      refine .bind (ih fun i hi => hturn i (by omega)) fun e hregs hi => ?_
      exact .bind (hturn n (by omega) e hregs hi) fun _ _ hlast => .pure fun hf => hf.memory ▸ hlast
    intro s s' u c' hf hc h hm
    rw [List.range_succ, forM_append] at h
    exact hturns hf hc h hm

/-- A store changes memory. -/
theorem store_acts {width : MemWidth} {value addr : Reg} {offset : Int} {a : Word}
    (hv : c.Has b value ty w) (ha : c.Has b addr .i64 a) :
    Acts m L env b c (liftM (Emit.store width value addr offset)) fun _ _ c' =>
      c'.memory = c.memory.write (Machine.address a (Int32.ofInt offset)) width.bytes
        (width.encode w) := by
  intro s s' u c' hf hc h hm
  obtain ⟨b', hb, rfl⟩ := emit_ok h
  refine (Machine.store_does hb hm hc (hv.later hf) (ha.later hf)).mono fun c'' _ _ hstore => ?_
  change c''.memory = _
  rw [hstore.2, hf.memory]

theorem storeField_acts {width : MemWidth} {value cell : Reg} {field : CellField} {a : Word}
    (hv : c.Has b value ty w) (ha : c.Has b cell .i64 a) :
    Acts m L env b c (storeField width value cell field) fun _ _ c' =>
      c'.memory = c.memory.write (Machine.address a (Int32.ofInt (env.layout.fieldOffset field)))
        width.bytes (width.encode w) := by
  intro s s' u c' hf hc h hm
  change (liftM (Emit.store width value cell (env.layout.fieldOffset field)) : Lower Unit) env s = _
    at h
  exact store_acts hv ha hf hc h hm

/-- The registers hold the words. -/
def HoldAll (b : Builder) (c : Config σ) (args : List Reg) (ws : List Word) : Prop :=
  List.Forall₂ (fun r w => ∃ ty, c.Has b r ty w) args ws

theorem HoldAll.readAll {args : List Reg} {ws : List Word} (h : HoldAll b c args ws) :
    c.readAll args = .ok ws := by
  unfold Config.readAll
  induction h with
  | nil => rfl
  | cons hr _ ih =>
    obtain ⟨ty, hr⟩ := hr
    simp only [List.mapM_cons, hr.read, ih, bind, Except.bind, pure, Except.pure]

theorem HoldAll.later {args : List Reg} {ws : List Word} (h : HoldAll b c args ws)
    (hf : c.Follows b c' b') : HoldAll b' c' args ws :=
  h.imp fun _ _ ⟨ty, hr⟩ => ⟨ty, hr.later hf⟩

/-- The runtime answers a call with a word and a memory, in one of its states. -/
def Answers (m : Machine σ) (helper : Helper) (ws : List Word) (memory : Memory) (w : Word)
    (memory' : Memory) : Prop :=
  ∃ t t', m.runtime.callHelper helper ws t memory = (w, t', memory')

/-- The last thing that happened outside the code is that the runtime was called in one of its
states, and answered with a word. -/
def Called (m : Machine σ) (helper : Helper) (ws : List Word) (memory : Memory) (w : Word) (t' : σ)
    (memory' : Memory) : Prop :=
  ∃ t, m.runtime.callHelper helper ws t memory = (w, t', memory')

theorem Called.answers {helper : Helper} {ws : List Word} {memory memory' : Memory} {t' : σ}
    (h : Called m helper ws memory w t' memory') : Answers m helper ws memory w memory' := by
  obtain ⟨t, h⟩ := h
  exact ⟨t, t', h⟩

/-- A call leaves the runtime and the memory as the runtime does. -/
theorem callHelper_ends {helper : Helper} {args : List Reg} {ws : List Word}
    (h : HoldAll b c args ws) :
    Acts m L env b c (callHelper helper args) fun r b' c' =>
      ∃ w, c'.Has b' r .i64 w ∧ Called m helper ws c.memory w c'.runtimeState c'.memory := by
  intro s s' r c' hf hc hcall hm
  rw [callHelper] at hcall
  split at hcall
  · obtain ⟨b', hb, rfl⟩ := emit_ok hcall
    have hread := (h.later hf).readAll
    obtain ⟨w, t', memory', hanswer⟩ : ∃ w t' memory', m.runtime.callHelper helper ws
      c'.runtimeState c'.memory = (w, t', memory') :=
      ⟨_, _, _, rfl⟩
    have hexecute : m.execute c' (.call helper args) = .ok (some w,
      { c' with runtimeState := t', memory := memory' }) := by
      simp [Machine.execute, hread, hanswer, bind, Except.bind, pure, Except.pure]
    refine (Machine.define_does hb hm hc hexecute (fun _ ha => by cases ha)).mono
      fun c'' _ _ hdone => ?_
    obtain ⟨hmem, hstate, hr⟩ := hdone
    refine ⟨_, hr, c'.runtimeState, ?_⟩
    rw [hmem, hstate, ← hf.memory]
    exact hanswer
  · cases hcall

/-- A call gives what the runtime answers. -/
theorem callHelper_acts {helper : Helper} {args : List Reg} {ws : List Word}
    (h : HoldAll b c args ws) :
    Acts m L env b c (callHelper helper args) (InRegister .i64 (Answers m helper ws c.memory)) :=
  (callHelper_ends h).mono fun ⟨w, hr, hcalled⟩ => ⟨w, hr, hcalled.answers⟩

/-- What is done if a condition holds. `R` is about the state of the runtime and the memory. -/
theorem when_ends {cond : Reg} {weight : BranchWeight} {arm : Lower Unit} [Tidy arm]
    {R : σ → Memory → Prop} (hcond : c.Has b cond ty' w)
    (harm : w.toUInt32 ≠ 0 → Acts m L env b c arm fun _ _ c' => R c'.runtimeState c'.memory)
    (hnot : w.toUInt32 = 0 → ∀ t, R t c.memory) :
    Acts m L env b c (when cond weight arm) fun _ _ c' => R c'.runtimeState c'.memory := by
  intro s s' u c₁ hf hc h hm
  replace hcond := hcond.later hf
  obtain ⟨thenBlock, b₁, h₁, h⟩ := emit_bind_ok h
  have made₁ := createBlock_made h₁ hc.wf
  obtain ⟨join, b₂, h₂, h⟩ := emit_bind_ok h
  have made₂ := createBlock_made h₂ made₁.emits.after
  obtain ⟨_, b₃, h₃, h⟩ := emit_bind_ok h
  obtain ⟨_, s₇, harmed, h⟩ := bind_ok h
  obtain ⟨s₆, h₆, rfl⟩ := inArm_ok harmed
  obtain ⟨_, b₄, h₄, h₆⟩ := emit_bind_ok h₆
  obtain rfl := Emit.switchTo_ok h₄
  obtain ⟨_, s₅, h₅, h₆⟩ := bind_ok h₆
  obtain ⟨t, b₅, hb₅, h₆⟩ := emit_bind_ok h₆
  obtain ⟨rfl, ht⟩ := Emit.isTerminated_ok hb₅
  obtain ⟨b₈, h₈, rfl⟩ := emit_ok h
  obtain rfl := Emit.switchTo_ok h₈
  -- growth: the two blocks are taken up one after the other
  have x₂ := made₂.after (made₁.after (.refl hc.wf))
  have hnd := x₂.distinct
  simp only [List.nil_append, List.cons_append, List.nodup_cons, List.mem_cons, List.not_mem_nil,
    or_false, List.nodup_nil, and_true, not_false_eq_true] at hnd
  have e₃ := (inferInstance : (Emit.branch cond thenBlock join weight).Tidy).emits _ _ _ x₂.after h₃
  have x₄ := (x₂.trans e₃).goTo (Emit.terminate_closed x₂.after h₃) (p := thenBlock) (by simp)
  have e₅ : (b₃.goTo thenBlock).Emits [] s₅.builder := Tidy.after h₅ (.refl x₄.after)
  have x₅ := x₄.trans e₅
  -- the arm may have left already; otherwise it joins
  obtain ⟨e₆, hclosed⟩ : s₅.builder.Emits [] s₆.builder ∧
    s₆.builder.IsClosed s₆.builder.current.index := by
    cases t with
    | true =>
      cases h₆
      exact ⟨.refl x₅.after, ht⟩
    | false =>
      obtain ⟨b₆, hjump, rfl⟩ := emit_ok h₆
      exact ⟨(inferInstance : (Emit.jump join []).Tidy).emits _ _ _ x₅.after hjump,
        Emit.terminate_closed x₅.after hjump⟩
  have x₇ := (x₅.trans e₆).goTo hclosed (p := join) (by simp)
  have hm₆ : s₆.builder.Completes m.func := (Builder.goTo_extends s₆.builder join).completes hm
  have hm₅ := e₆.toExtends.completes hm₆
  have hm₃ : b₃.Completes m.func :=
    (Builder.goTo_extends b₃ thenBlock).completes (e₅.toExtends.completes hm₅)
  -- what waits where
  have hcur : b₂.current = s.builder.current := made₂.current.trans made₁.current
  have hthen : b₃.Waits thenBlock [] :=
    (made₁.waits.emits made₂.emits made₁.ne_current).emits e₃ (hcur ▸ made₁.current ▸
      made₁.ne_current)
  have hjoin₃ : b₃.Waits join [] := made₂.waits.emits e₃ made₂.ne_current
  have hjoin₅ : s₅.builder.Waits join [] := hjoin₃.goTo.emits e₅ (Ne.symm hnd)
  have hjoin₆ : s₆.builder.Waits join [] := hjoin₅.emits e₆ (x₅.pending join (by simp)).2.2
  have hlast₅ : s₅.builder.Extends (s₆.builder.goTo join) :=
    e₆.toExtends.trans (Builder.goTo_extends s₆.builder join)
  have hlast₃ : b₃.Extends (s₆.builder.goTo join) :=
    (Builder.goTo_extends b₃ thenBlock).trans (e₅.toExtends.trans hlast₅)
  -- the run: the branch, and the arm if it is taken
  have hc₂ : m.At b₂ c₁ := made₂.stands (made₁.stands hc)
  obtain ⟨hpassed, hstep⟩ := hc₂.fork h₃ hm₃ (hcond.keep x₂.toExtends (.refl _ _)).read hthen hjoin₃
  have hloads : m.LoadsIn L c₁ := hc₂.loadsIn h₃ hm₃
  by_cases hz : w.toUInt32 = 0
  · rw [if_neg (by simpa using hz)] at hstep
    refine ⟨_, .next ⟨.inr (hpassed.grow hlast₃), hloads⟩ hstep (.refl _),
      hjoin₆.at (x₅.trans e₆).after rfl rfl hc.registers,
      fun _ _ => rfl, ?_⟩
    change R c₁.runtimeState c₁.memory
    rw [hf.memory]
    exact hnot hz _
  · rw [if_pos hz] at hstep
    have hc₄ : m.At (b₃.goTo thenBlock) { c₁ with block := thenBlock, position := 0 } :=
      hthen.at (x₂.trans e₃).after rfl rfl hc.registers
    have hf₄ : c.Follows b { c₁ with block := thenBlock, position := 0 } (b₃.goTo thenBlock) :=
      hf.trans ⟨x₄.toExtends, fun _ _ => rfl, rfl⟩
    obtain ⟨c₅, hgoes, hc₅, hregs, hR⟩ := harm hz hf₄ hc₄ h₅ hm₅
    obtain rfl : t = false := by
      rw [← Bool.not_eq_true]
      rintro rfl
      exact hc₅.isOpen.not_closed ht
    obtain ⟨b₆, hjump, rfl⟩ := emit_ok h₆
    obtain ⟨hstep₅, hpassed₅⟩ := Machine.terminate_step hjump hm₆ hc₅
    obtain ⟨blk, hblk, hparams⟩ := hjoin₆.found hm₆
    have hstep₅' : m.step c₅ = .ok (.running { c₅ with block := join, position := 0 }) := by
      rw [hstep₅]
      simp [Machine.stepTerminator, Machine.enter_nil hblk hparams, bind, Except.bind, pure,
        Except.pure]
    have hpassed₆ := hpassed₅.grow (Builder.goTo_extends b₆ join)
    refine ⟨_, .next ⟨.inr (hpassed.grow hlast₃), hloads⟩ hstep
      (((hgoes.enclosed hc₅ hlast₅ hpassed₆).mono fun _ hx =>
      ⟨.inr hx.1, hx.2⟩).trans (.next ⟨.inr hpassed₆, hc₅.loadsIn hjump hm₆⟩ hstep₅' (.refl _))),
      hjoin₆.at (x₅.trans e₆).after rfl rfl hc₅.registers, fun i hi => ?_, hR⟩
    exact hregs i (Nat.lt_of_lt_of_le hi x₄.toExtends.types_size_le)

/-- The same if only the memory matters. -/
theorem when_acts {cond : Reg} {weight : BranchWeight} {arm : Lower Unit} [Tidy arm]
    {R : Memory → Prop} (hcond : c.Has b cond ty' w)
    (harm : w.toUInt32 ≠ 0 → Acts m L env b c arm fun _ _ c' => R c'.memory)
    (hnot : w.toUInt32 = 0 → R c.memory) :
    Acts m L env b c (when cond weight arm) fun _ _ c' => R c'.memory :=
  when_ends (R := fun _ => R) hcond harm fun hz _ => hnot hz

end SpecJit.Lowering
