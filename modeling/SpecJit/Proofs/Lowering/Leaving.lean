import SpecJit.Proofs.Lowering.Checks
import SpecJit.Proofs.Lowering.Exits.Record

/-!
# Code that leaves by an exit of a kind

`LeavesBy m kind s c`: control leaves, from `c`, by an exit whose record says `kind`. A step of the
lowering may end in three ways: as a check it leaves by one kind of exit or has no effect
(`Guards`), and as the code of a node it yields the value of the node or leaves (`Finishes`). The
code of a node is gone through step by step: values that it computes, checks, and the record of its
result.
-/

namespace SpecJit.Lowering

open Lir

variable {α β σ : Type} {m : Machine σ} {b b' : Builder} {c c' : Config σ} {env : Env}
  {s s' : State} {u : Unit} {id : NodeId} {node : Node} {form : Form} {kind : ExitKind} {t : Bool}
  {ty : Ty} {v w : Word} {r : Reg} {o o' : Except ExitKind Word}

/-! ## Exits that stay in the table -/

/-- The code leads to an exit of the kind, before the end of what was built. -/
def LeavesBy (m : Machine σ) (kind : ExitKind) (s : State) (c : Config σ) : Prop :=
  ∃ id e, m.LeavesAt id s.builder c ∧ s.exits.exit? id = some e ∧ e.kind = kind

theorem LeavesBy.leaves (h : LeavesBy m kind s c) : m.Leaves s.builder c := by
  obtain ⟨id, e, hleave, -⟩ := h
  exact hleave.leaves

/-- There is one kind of exit that control can leave by. -/
theorem LeavesBy.unique {kind' : ExitKind} (h : LeavesBy m kind s c) (h' : LeavesBy m kind' s c) :
    kind = kind' := by
  obtain ⟨id, e, hleave, he, rfl⟩ := h
  obtain ⟨id', e', hleave', he', rfl⟩ := h'
  obtain rfl := hleave.unique hleave'
  rw [he] at he'
  cases he'
  rfl

/-- An exit that is built is in the table, and the others stay there. -/
theorem buildExit_adds {profile : Option Reg} {id : ExitId} {regs : List Reg}
    (h : buildExit kind profile env s = .ok ((id, regs), s')) :
    (∃ e, s'.exits.exit? id = some e ∧ e.kind = kind) ∧
      ∀ {id' : ExitId} {e'}, s.exits.exit? id' = some e' → s'.exits.exit? id' = some e' := by
  obtain ⟨K, captured, e, s₁, hrecords, rfl, -, rfl⟩ := buildExit_records h
  obtain ⟨xs, hcollects, -⟩ := hrecords.collects
  refine ⟨⟨e, by simp [ExitTable.exit?, ExitTable.pushExit], hrecords.kind⟩, fun {id' e'} he => ?_⟩
  rw [ExitTable.exit?, ← hcollects.exits] at he
  have hlt := (Array.getElem?_eq_some_iff.1 he).1
  have hne : id'.index ≠ s₁.exits.exits.size := by omega
  simp only [ExitTable.exit?, ExitTable.pushExit, Array.getElem?_push, if_neg hne]
  exact he

/-- The exits that are in the table stay there. -/
def keepingExits : Law where
  rel _ s s' := ∀ (id : ExitId) e, s.exits.exit? id = some e → s'.exits.exit? id = some e
  refl _ _ _ _ he := he
  trans h₁ h₂ id e he := h₂ id e (h₁ id e he)

/-- The step keeps the exits that are in the table. -/
abbrev KeepsExits (x : Lower α) : Prop := Obeys keepingExits x

theorem KeepsExits.kept {x : Lower α} [hx : KeepsExits x] {a : α} {id : ExitId} {e : OsrExit}
    (h : x env s = .ok (a, s')) (he : s.exits.exit? id = some e) : s'.exits.exit? id = some e :=
  hx.of_ok h id e he

instance : keepingExits.Uncoded where
  counts _ _ _ _ _ he := he
  arms h := h
  code _ _ _ _ _ he := he

instance : keepingExits.Rebuilds where
  rebuilding := inferInstance
  captures _ _ := ⟨fun _ _ _ _ h _ _ he => (buildExit_adds h).2 he⟩

instance : keepingExits.Records where
  records _ _ _ := obeys_modify fun _ _ => by
    dsimp only
    split <;> exact fun _ _ he => he

/-- Code that runs up to code that leaves by an exit. -/
theorem LeavesBy.after {b₁ : Builder} {Q : Config σ → Prop} (h : m.Runs b c b₁ Q)
    (e : b₁.Extends s'.builder) (k : ∀ c', m.At b₁ c' → c.Keeps b c' → Q c' → LeavesBy m kind s' c')
    : LeavesBy m kind s' c := by
  obtain ⟨c₁, hgoes, hc₁, hk, hq⟩ := h
  obtain ⟨id, exit, hleave, hexit, hkind⟩ := k c₁ hc₁ hk hq
  have hruns : m.Runs b c b₁ (· = c₁) := ⟨c₁, hgoes, hc₁, hk, rfl⟩
  exact ⟨id, exit, hruns.reaches e fun c' _ _ hc' => hc' ▸ hleave, hexit, hkind⟩

/-- What is built after code that leaves does not matter. -/
theorem LeavesBy.before {x : Lower α} [hx : KeepsExits x] {a : α} (h : LeavesBy m kind s c)
    (hrest : x env s = .ok (a, s')) (e : s.builder.Extends s'.builder) : LeavesBy m kind s' c := by
  obtain ⟨id, exit, hleave, hexit, hkind⟩ := h
  exact ⟨id, exit, hleave.grow e, hx.kept hrest hexit, hkind⟩

/-! ## Checks -/

/-- The check leaves by an exit of the kind if `t` holds, and otherwise has no effect, wherever it
stands after `b`. -/
def Guards (m : Machine σ) (env : Env) (b : Builder) (c : Config σ) (x : Lower Unit)
    (kind : ExitKind) (t : Bool) : Prop :=
  ∀ ⦃s s' : State⦄ ⦃u : Unit⦄ ⦃c' : Config σ⦄, c.Follows b c' s.builder → m.At s.builder c' →
    x env s = .ok (u, s') →
    s'.builder.Completes m.func →
    (t = false → m.Runs s.builder c' s'.builder fun _ => True) ∧ (t = true → LeavesBy m kind s' c')

theorem guards_pure : Guards m env b c (pure ()) kind false := by
  intro s s' u c' _ hc h _
  cases h
  exact ⟨fun _ => .refl hc trivial, nofun⟩

theorem guards_speculate (hr : c.Has b r .i32 (ofBool t)) :
    Guards m env b c (speculate kind none r) kind t := by
  intro s s' u c' hf hc h hm
  obtain ⟨exit, captured, s₁, hbuilt, hexits, hruns, hleaves⟩ :=
    speculate_course h hm hc (hr.later hf)
  constructor
  · rintro rfl
    exact hruns (by decide)
  · rintro rfl
    obtain ⟨e, he, hkind⟩ := (buildExit_adds hbuilt).1
    exact ⟨exit, e, hleaves (by decide), by rw [hexits]; exact he, hkind⟩

theorem Guards.bind {x : Lower Reg} {f : Reg → Lower Unit} [Tidy x] [∀ r, Tidy (f r)]
    (hx : Yields m env b c x ty v)
    (hf : ∀ {r : Reg} {b' : Builder} {c' : Config σ}, c.Follows b c' b' → c'.Has b' r ty v →
      Guards m env b' c' (f r) kind t) :
    Guards m env b c (x >>= f) kind t := by
  intro s s' u c' hfollows hc h hm
  obtain ⟨r, s₁, h₁, h₂⟩ := bind_ok h
  have e₁ : s.builder.Emits [] s₁.builder := Tidy.after h₁ (.refl hc.wf)
  have e₂ : s₁.builder.Emits [] s'.builder := Tidy.after h₂ (.refl e₁.after)
  have hruns := hx hfollows hc h₁ (e₂.toExtends.completes hm)
  constructor
  · intro ht
    refine hruns.bind e₁.toExtends e₂.toGrows fun c₁ hc₁ hk hr => ?_
    exact (hf (hfollows.trans ⟨e₁.toExtends, hk⟩) hr (.refl _ _) hc₁ h₂ hm).1 ht
  · intro ht
    refine .after hruns e₂.toExtends fun c₁ hc₁ hk hr => ?_
    exact (hf (hfollows.trans ⟨e₁.toExtends, hk⟩) hr (.refl _ _) hc₁ h₂ hm).2 ht

/-- A check that is made only if it is asked for. -/
theorem Guards.ite {p : Bool} {x : Lower Unit} (hx : p = true → Guards m env b c x kind t) :
    Guards m env b c (if p = true then x else pure ()) kind (p && t) := by
  cases p with
  | true => exact hx rfl
  | false => exact guards_pure

/-! ## The code of a node -/

/-- Between two states the code of a node was built. It computes the word that holds the node in the
form, or leaves by an exit of a kind. -/
def Ends (m : Machine σ) (id : NodeId) (form : Form) (s s' : State) (c : Config σ) :
    Except ExitKind Word → Prop
  | .ok w => ∃ r, s'.values = ((id, form), r, s.block) :: s.values ∧ s'.block = s.block ∧
      m.Runs s.builder c s'.builder fun c' => c'.Has s'.builder r form.type w
  | .error kind => LeavesBy m kind s' c

/-- Code that is executed as a whole before the rest of the code of a node. -/
theorem Ends.after {s₁ : State} {Q : Config σ → Prop} (h : m.Runs s.builder c s₁.builder Q)
    (hsame : SameButCode s s₁)
    (e₁ : s.builder.Emits [] s₁.builder) (e₂ : s₁.builder.Emits [] s'.builder)
    (k : ∀ c₁, m.At s₁.builder c₁ → c.Follows s.builder c₁ s₁.builder → Q c₁ →
      Ends m id form s₁ s' c₁ o) :
    Ends m id form s s' c o := by
  obtain ⟨c₁, hgoes, hc₁, hk, hq⟩ := h
  have hruns : m.Runs s.builder c s₁.builder (· = c₁) := ⟨c₁, hgoes, hc₁, hk, rfl⟩
  have hrest := k c₁ hc₁ ⟨e₁.toExtends, hk⟩ hq
  cases o with
  | ok w =>
    obtain ⟨r, hvalues, hblock, hrest⟩ := hrest
    rw [hsame.values, hsame.block] at hvalues
    exact ⟨r, hvalues, hblock.trans hsame.block, hruns.bind e₁.toExtends e₂.toGrows
      fun c₂ _ _ hc₂ => hc₂ ▸ hrest⟩
  | error kind => exact .after hruns e₂.toExtends fun c₂ _ _ hc₂ => hc₂ ▸ hrest

/-- The step is the code of a node, wherever it stands after `b`. -/
def Finishes (m : Machine σ) (env : Env) (b : Builder) (c : Config σ) (id : NodeId) (form : Form)
    (x : Lower Unit) (o : Except ExitKind Word) : Prop :=
  ∀ ⦃s s' : State⦄ ⦃u : Unit⦄ ⦃c' : Config σ⦄, c.Follows b c' s.builder → m.At s.builder c' →
    s.armDepth = 0 →
    x env s = .ok (u, s') → s'.builder.Completes m.func → Ends m id form s s' c' o

theorem finishes_record (hr : c.Has b r form.type w) :
    Finishes m env b c id form (record id form r) (.ok w) := by
  intro s s' u c' hf hc hdepth h _
  obtain rfl : { s with values := ((id, form), r, s.block) :: s.values } = s' := by
    cases h
    exact (if_pos hdepth).symm
  exact ⟨r, rfl, rfl, .refl hc (hr.later hf)⟩

theorem finishes_setResult (hnode : env.graph.node id = .ok node)
    (hform : node.result.form? = some form) (hr : c.Has b r form.type w) :
    Finishes m env b c id form (setResult id r) (.ok w) := by
  intro s s' u c' hf hc hdepth h hm
  obtain ⟨node', hnode', h⟩ := getNode_bind_ok h
  rw [hnode] at hnode'
  cases hnode'
  rw [hform] at h
  exact finishes_record hr hf hc hdepth h hm

/-- A value that the code of a node computes. -/
theorem Finishes.bind {x : Lower Reg} {f : Reg → Lower Unit} [Tidy x] [Quiet x] [∀ r, Tidy (f r)]
    (hx : Yields m env b c x ty v)
    (hf : ∀ {r : Reg} {b' : Builder} {c' : Config σ}, c.Follows b c' b' → c'.Has b' r ty v →
      Finishes m env b' c' id form (f r) o) : Finishes m env b c id form (x >>= f) o := by
  intro s s' u c' hfollows hc hdepth h hm
  obtain ⟨r, s₁, h₁, h₂⟩ := bind_ok h
  have e₁ : s.builder.Emits [] s₁.builder := Tidy.after h₁ (.refl hc.wf)
  have e₂ : s₁.builder.Emits [] s'.builder := Tidy.after h₂ (.refl e₁.after)
  have hsame := Quiet.same env s r s₁ h₁
  refine .after (hx hfollows hc h₁ (e₂.toExtends.completes hm)) hsame e₁ e₂ fun c₁ hc₁ hf₁ hr => ?_
  exact hf (hfollows.trans hf₁) hr (.refl _ _) hc₁ (hsame.armDepth.trans hdepth) h₂ hm

theorem Finishes.ofRead {f : Env → Lower Unit} (h : Finishes m env b c id form (f env) o) :
    Finishes m env b c id form (read >>= f) o := h

/-- A check in the code of a node. -/
theorem Finishes.guard {x : Lower Unit} {f : Unit → Lower Unit} [Tidy x] [Quiet x] [∀ u, Tidy (f u)]
    [∀ u, KeepsExits (f u)]
    (hx : Guards m env b c x kind t)
    (hf : t = false → ∀ {b' : Builder} {c' : Config σ}, c.Follows b c' b' → Finishes m env b' c' id
      form (f ()) o) :
    Finishes m env b c id form (x >>= f) (if t then .error kind else o) := by
  intro s s' u c' hfollows hc hdepth h hm
  obtain ⟨u₁, s₁, h₁, h₂⟩ := bind_ok h
  have e₁ : s.builder.Emits [] s₁.builder := Tidy.after h₁ (.refl hc.wf)
  have e₂ : s₁.builder.Emits [] s'.builder := Tidy.after h₂ (.refl e₁.after)
  have hsame := Quiet.same env s u₁ s₁ h₁
  obtain ⟨hruns, hleaves⟩ := hx hfollows hc h₁ (e₂.toExtends.completes hm)
  cases t with
  | true => exact (hleaves rfl).before h₂ e₂.toExtends
  | false =>
    refine .after (hruns rfl) hsame e₁ e₂ fun c₁ hc₁ hf₁ _ => ?_
    exact hf rfl (hfollows.trans hf₁) (.refl _ _) hc₁ (hsame.armDepth.trans hdepth) h₂ hm

/-- A check in the code of a node that is made only if it is asked for. -/
theorem Finishes.ite {p : Bool} {x y : Lower Unit}
    (hx : p = true → Finishes m env b c id form x (if t then .error kind else o))
    (hy : p = false → Finishes m env b c id form y o) :
    Finishes m env b c id form (if p = true then x else y) (if p && t then .error kind else o) := by
  cases p with
  | true => exact hx rfl
  | false => exact hy rfl

end SpecJit.Lowering
